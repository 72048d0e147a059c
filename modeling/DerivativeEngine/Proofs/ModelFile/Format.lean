import DerivativeEngine.ModelFile.Reader
import DerivativeEngine.Proofs.Bytes.Words
import DerivativeEngine.Proofs.Tensor.Arrays
import Mathlib.Data.List.Forall2

/-! The format of model files, read and written. Each reader takes from the front exactly the bytes
that are written for what it gives, and nothing else is accepted; for the parameters this holds
one after the other. Both directions are one statement, an equivalence, so each part of the format
is dealt with once. -/

namespace DerivativeEngine

def Adapted.Shaped {α : Type} (x : Adapted α) (shape : Shape) : Prop :=
  x.data.shape = shape ∧ x.first.shape = shape ∧ x.second.shape = shape

namespace Reader

variable {β γ : Type} {bs rest : List UInt8}

/-- Reading gives something good, and what was taken from the front is what is written for it. -/
def Inverts (r : Reader β) (good : β → Prop) (write : β → Written) : Prop :=
  ∀ bs x rest, r.run bs = .ok (x, rest) ↔
    good x ∧ ∃ front, write x = .ofBytes front ∧ bs = front ++ rest

theorem run_bind_ok {r : Reader β} {f : β → Reader γ} {y : γ} :
    (r >>= f).run bs = .ok (y, rest) ↔
      ∃ x mid, r.run bs = .ok (x, mid) ∧ (f x).run mid = .ok (y, rest) := by
  rw [StateT.run_bind]
  cases r.run bs with
  | error e => simp [bind, Except.bind]
  | ok p =>
    obtain ⟨x, mid⟩ := p
    constructor
    · exact fun h => ⟨x, mid, rfl, h⟩
    · rintro ⟨x, mid, ⟨⟩, h⟩
      exact h

theorem run_pure_ok {x y : β} :
    (pure x : Reader β).run bs = .ok (y, rest) ↔ x = y ∧ bs = rest := by
  have unfolded : (pure x : Reader β).run bs = .ok (x, bs) := rfl
  simp [unfolded]

theorem run_throw {e : FormatError} : (throw e : Reader β).run bs = .error e := rfl

theorem run_throw_bind {e : FormatError} {f : β → Reader γ} :
    (throw e >>= f).run bs = .error e := rfl

theorem run_check_ok {c : Bool} {stop go : Reader β} {y : β} {e : FormatError}
    (stops : stop.run bs = .error e) :
    (if c = true then stop else go).run bs = .ok (y, rest) ↔
      c = false ∧ go.run bs = .ok (y, rest) := by
  cases c with
  | true => simp [stops]
  | false => simp

theorem run_take_ok {n : Nat} {front : List UInt8} :
    (take n).run bs = .ok (front, rest) ↔ front.length = n ∧ bs = front ++ rest := by
  have unfolded : (take n).run bs = if (bs.take n).length = n then .ok (bs.take n, bs.drop n)
      else .error (.truncated n (bs.take n).length) := by
    simp only [take, List.splitAt_eq, StateT.run_bind, StateT.run_get, pure_bind]
    split <;> rfl
  rw [unfolded]
  split
  · next full =>
    simp only [Except.ok.injEq, Prod.mk.injEq]
    constructor
    · rintro ⟨rfl, rfl⟩
      exact ⟨full, (List.take_append_drop n bs).symm⟩
    · rintro ⟨length, rfl⟩
      exact ⟨List.take_left' length, List.drop_left' length⟩
  · next short =>
    refine ⟨fun h => (by cases h), ?_⟩
    rintro ⟨length, rfl⟩
    rw [List.take_left' length] at short
    exact absurd length short

theorem groups_eq_iff {width : Nat} {decode : List UInt8 → β} {encode : β → List UInt8}
    {good : β → Prop}
    (inverse : ∀ bs x, good x ∧ bs = encode x ↔ bs.length = width ∧ decode bs = x) :
    ∀ (n : Nat) (bs : List UInt8) (xs : List β),
      bs.length = width * n ∧ (groups width n bs).map decode = xs ↔
        xs.length = n ∧ (∀ x ∈ xs, good x) ∧ bs = xs.flatMap encode
  | 0, bs, xs => by
    simp only [Nat.mul_zero, List.length_eq_zero_iff, groups, List.map_nil]
    constructor
    · rintro ⟨rfl, rfl⟩
      simp
    · rintro ⟨rfl, -, rfl⟩
      simp
  | n + 1, bs, xs => by
    rw [groups, List.map_cons]
    constructor
    · rintro ⟨length, rfl⟩
      have front : (bs.take width).length = width := by
        rw [List.length_take, length, Nat.mul_succ]
        omega
      have back : (bs.drop width).length = width * n := by
        rw [List.length_drop, length, Nat.mul_succ]
        omega
      obtain ⟨fits, first⟩ := (inverse _ _).2 ⟨front, rfl⟩
      obtain ⟨count, others, tail⟩ := (groups_eq_iff inverse n _ _).1 ⟨back, rfl⟩
      refine ⟨by rw [List.length_cons, count], List.forall_mem_cons.2 ⟨fits, others⟩, ?_⟩
      rw [List.flatMap_cons, ← first, ← tail, List.take_append_drop]
    · rintro ⟨count, fits, rfl⟩
      cases xs with
      | nil => cases count
      | cons x xs =>
        obtain ⟨first, others⟩ := List.forall_mem_cons.1 fits
        obtain ⟨front, gives⟩ := (inverse _ _).1 ⟨first, rfl⟩
        obtain ⟨back, rest⟩ :=
          (groups_eq_iff inverse n _ xs).2 ⟨Nat.succ.inj count, others, rfl⟩
        rw [List.flatMap_cons, List.take_left' front, List.drop_left' front, gives, rest,
          List.length_append, front, back, Nat.mul_succ]
        exact ⟨Nat.add_comm _ _, rfl⟩

section Integers

open LittleEndian (fitsInt32 eq_int32_iff)

theorem inverts_int32s (n : Nat) : Inverts (int32s n) (fun ns => ns.length = n) .ofInts := by
  intro bs ns rest
  have groups := groups_eq_iff (fun _ _ => eq_int32_iff) n
  simp only [int32s, run_bind_ok, run_pure_ok, run_take_ok, Written.ofInts_eq_ofBytes]
  constructor
  · rintro ⟨front, mid, ⟨length, rfl⟩, gives, rfl⟩
    obtain ⟨count, fits, eq⟩ := (groups _ _).1 ⟨length, gives⟩
    exact ⟨count, front, ⟨fits, eq⟩, rfl⟩
  · rintro ⟨count, front, ⟨fits, eq⟩, rfl⟩
    obtain ⟨length, gives⟩ := (groups _ _).2 ⟨count, fits, eq⟩
    exact ⟨front, rest, ⟨length, rfl⟩, gives, rfl⟩

theorem inverts_int32 : Inverts int32 (fun _ => True) fun n => .ofInts [n] := by
  intro bs n rest
  simp only [int32, run_bind_ok, run_pure_ok, run_take_ok, Written.ofInts_eq_ofBytes,
    List.forall_mem_singleton, List.flatMap_singleton, true_and]
  constructor
  · rintro ⟨front, mid, ⟨length, rfl⟩, gives, rfl⟩
    exact ⟨front, eq_int32_iff.2 ⟨length, gives⟩, rfl⟩
  · rintro ⟨front, eq, rfl⟩
    obtain ⟨length, gives⟩ := eq_int32_iff.1 eq
    exact ⟨front, rest, ⟨length, rfl⟩, gives, rfl⟩

end Integers

theorem inverts_header : Inverts header (fun _ => True) fun _ => ModelFile.header := by
  have magic {bs : List UInt8} : bs = LittleEndian.bytes 4 modelMagic ↔ _ :=
    LittleEndian.eq_bytes_iff (by decide)
  have version {bs : List UInt8} : bs = LittleEndian.bytes 4 modelVersion ↔ _ :=
    LittleEndian.eq_bytes_iff (by decide)
  intro bs u rest
  simp only [header, run_bind_ok, run_check_ok run_throw_bind, run_check_ok run_throw,
    run_pure_ok, run_take_ok, bne_eq_false_iff_eq, true_and, ModelFile.header, Written.ofBytes_inj]
  constructor
  · rintro ⟨front, mid, ⟨length, rfl⟩, first, second, rfl⟩
    have start := magic.2 ⟨by rw [List.length_take, length]; rfl, first⟩
    have stop := version.2 ⟨by rw [List.length_drop, length], second⟩
    refine ⟨front, ?_, rfl⟩
    rw [← start, ← stop, List.take_append_drop]
  · rintro ⟨front, rfl, rfl⟩
    obtain ⟨first, isMagic⟩ := magic.1 rfl
    obtain ⟨second, isVersion⟩ := version.1 rfl
    refine ⟨_, rest, ⟨by rw [List.length_append, first, second], rfl⟩, ?_, ?_, rfl⟩
    · rw [List.take_left' first, isMagic]
    · rw [List.drop_left' first, isVersion]

theorem inverts_config : Inverts config (fun _ => True) ModelFile.config := by
  intro bs c rest
  simp only [config, run_bind_ok, inverts_int32s 6 _ _ _, true_and, ModelFile.config]
  constructor
  · rintro ⟨ns, mid, ⟨length, front, written, rfl⟩, gives⟩
    obtain ⟨v, d, h, l, f, m, rfl⟩ : ∃ v d h l f m, ns = [v, d, h, l, f, m] := by
      match ns, length with
      | [v, d, h, l, f, m], _ => exact ⟨v, d, h, l, f, m, rfl⟩
    obtain ⟨rfl, rfl⟩ := run_pure_ok.1 gives
    exact ⟨front, written, rfl⟩
  · rintro ⟨front, written, rfl⟩
    exact ⟨_, rest, ⟨rfl, front, written, rfl⟩, rfl⟩

theorem inverts_front : Inverts (header *> config) (fun _ => True)
    fun c => ModelFile.header ++ ModelFile.config c := by
  intro bs c rest
  rw [seqRight_eq_bind, run_bind_ok]
  simp only [inverts_header _ _ _, inverts_config _ _ _, true_and, Written.append_eq_ofBytes]
  constructor
  · rintro ⟨-, _, ⟨f, header, rfl⟩, g, config, rfl⟩
    exact ⟨f ++ g, ⟨f, g, header, config, rfl⟩, (List.append_assoc f g rest).symm⟩
  · rintro ⟨_, ⟨f, g, header, config, rfl⟩, rfl⟩
    exact ⟨(), g ++ rest, ⟨f, header, List.append_assoc f g rest⟩, g, config, rfl⟩

theorem inverts_count (n : Nat) : Inverts (count n) (fun _ => True) fun _ => .ofInts [n] := by
  intro bs u rest
  simp only [count, run_bind_ok, inverts_int32 _ _ _, run_check_ok run_throw, run_pure_ok,
    bne_eq_false_iff_eq, true_and]
  constructor
  · rintro ⟨m, mid, ⟨front, written, rfl⟩, rfl, rfl⟩
    exact ⟨front, written, rfl⟩
  · rintro ⟨front, written, rfl⟩
    exact ⟨_, rest, ⟨front, written, rfl⟩, rfl, rfl⟩

section Elements

variable {α : Type} [WordCoded α]

open LittleEndian (word eq_word_iff)

theorem eq_ofWordBytes_iff {x : α} :
    True ∧ bs = word (WordCoded.toWord x) ↔ bs.length = 8 ∧ ofWordBytes bs = x := by
  rw [true_and, eq_word_iff, ofWordBytes]
  refine and_congr_right fun _ => ⟨fun same => ?_, fun same => ?_⟩
  · rw [same, WordCoded.ofWord_toWord]
  · rw [← same, WordCoded.toWord_ofWord]

theorem inverts_training : Inverts (training (α := α)) (fun _ => True) ModelFile.training := by
  intro bs s rest
  simp only [training, run_bind_ok, run_pure_ok, run_take_ok, true_and, ModelFile.training,
    Written.append_eq_ofBytes, Written.ofInts_eq_ofBytes, Written.ofBytes_inj,
    List.forall_mem_singleton, List.flatMap_singleton]
  constructor
  · rintro ⟨front, mid, ⟨length, rfl⟩, rfl, rfl⟩
    have step := LittleEndian.eq_int32_iff.2
      ⟨show (front.take 4).length = 4 by rw [List.length_take, length]; rfl, rfl⟩
    have loss := (eq_ofWordBytes_iff (α := α)).2
      ⟨show ((front.drop 4).take 8).length = 8 by
        rw [List.length_take, List.length_drop, length]
        rfl, rfl⟩
    have rate := (eq_ofWordBytes_iff (α := α)).2
      ⟨show (front.drop 12).length = 8 by rw [List.length_drop, length], rfl⟩
    dsimp only
    refine ⟨front, ⟨front.take 4, _, step, rfl, ?_⟩, rfl⟩
    have split : front.drop 12 = (front.drop 4).drop 8 := by rw [List.drop_drop]
    rw [← loss.2, ← rate.2, split, List.take_append_drop, List.take_append_drop]
  · rintro ⟨-, ⟨first, -, step, rfl, rfl⟩, rfl⟩
    obtain ⟨four, isStep⟩ := LittleEndian.eq_int32_iff.1 step
    have number (x : α) : (word (WordCoded.toWord x)).length = 8 ∧ _ :=
      eq_ofWordBytes_iff.1 ⟨trivial, rfl⟩
    obtain ⟨eight, isLoss⟩ := number s.loss
    obtain ⟨eight', isRate⟩ := number s.rate
    have afterLoss : (first ++ (word (WordCoded.toWord s.loss) ++
        word (WordCoded.toWord s.rate))).drop 12 = word (WordCoded.toWord s.rate) := by
      rw [← List.append_assoc]
      exact List.drop_left' (by rw [List.length_append, four, eight])
    refine ⟨_, rest, ⟨?_, rfl⟩, ?_, rfl⟩
    · rw [List.length_append, List.length_append, four, eight, eight']
    · rw [List.take_left' four, List.drop_left' four, List.take_left' eight, afterLoss, isStep,
        isLoss, isRate]

variable [Zero α]

theorem inverts_elements (shape : Shape) :
    Inverts (elements (α := α) shape) (fun x => x.shape = shape) ModelFile.elements := by
  have groups := groups_eq_iff (fun _ (x : α) => eq_ofWordBytes_iff) shape.size
  intro bs x rest
  simp only [elements, run_bind_ok, run_pure_ok, run_take_ok, ModelFile.elements,
    Written.ofBytes_inj]
  constructor
  · rintro ⟨front, mid, ⟨length, rfl⟩, rfl, rfl⟩
    obtain ⟨count, -, eq⟩ := (groups _ _).1 ⟨length, rfl⟩
    refine ⟨rfl, front, ?_, rfl⟩
    rw [NDArray.toList_ofFn count, ← eq]
  · rintro ⟨rfl, front, rfl, rfl⟩
    have size : x.toList.length = x.shape.size := x.size_data
    obtain ⟨length, gives⟩ := (groups _ _).2 ⟨size, fun _ _ => trivial, rfl⟩
    refine ⟨_, rest, ⟨length, rfl⟩, ?_, rfl⟩
    rw [gives, NDArray.ofFn_toList]

theorem inverts_parameter (i : Nat) (e : Expected) :
    Inverts (parameter (α := α) i e) (fun x => x.shape = e.shape) ModelFile.parameter := by
  intro bs x rest
  simp only [parameter, run_bind_ok, run_check_ok run_throw_bind, inverts_int32 _ _ _,
    inverts_int32s _ _ _ _, inverts_elements _ _ _ _, true_and, bne_eq_false_iff_eq,
    Bool.or_eq_false_iff, ModelFile.parameter, Written.append_eq_ofBytes]
  constructor
  · rintro ⟨rank, _, ⟨f₁, rank', rfl⟩, rfl, dims, _, ⟨-, f₂, dims', rfl⟩, size, _,
      ⟨f₃, size', rfl⟩, ⟨rfl, rfl⟩, shape, f₄, written, rfl⟩
    rw [← shape] at rank' dims' size'
    refine ⟨shape, _, ⟨_, f₄, ⟨_, f₃, ⟨f₁, f₂, rank', dims', rfl⟩, size', rfl⟩, written, rfl⟩, ?_⟩
    simp only [List.append_assoc]
  · rintro ⟨shape, _, ⟨_, f₄, ⟨_, f₃, ⟨f₁, f₂, rank, dims, rfl⟩, size, rfl⟩, written, rfl⟩, rfl⟩
    have sameSize : x.size = e.shape.size := congrArg Shape.size shape
    rw [shape] at rank dims
    rw [sameSize] at size
    refine ⟨_, f₂ ++ (f₃ ++ (f₄ ++ rest)), ⟨f₁, rank, ?_⟩, rfl, _, f₃ ++ (f₄ ++ rest),
      ⟨by rw [List.length_map], f₂, dims, rfl⟩, _, f₄ ++ rest, ⟨f₃, size, rfl⟩, ⟨rfl, rfl⟩, shape,
      f₄, written, rfl⟩
    simp only [List.append_assoc]

theorem inverts_adapted (i : Nat) (e : Expected) :
    Inverts (adapted (α := α) i e) (fun x => x.Shaped e.shape) ModelFile.adapted := by
  intro bs x rest
  simp only [adapted, run_bind_ok, run_pure_ok, inverts_parameter _ _ _ _ _,
    inverts_elements _ _ _ _, ModelFile.adapted, Written.append_eq_ofBytes]
  constructor
  · rintro ⟨_, _, ⟨data, f₁, written₁, rfl⟩, _, _, ⟨first, f₂, written₂, rfl⟩, _, _,
      ⟨second, f₃, written₃, rfl⟩, rfl, rfl⟩
    refine ⟨⟨data, first, second⟩, _, ⟨_, f₃, ⟨f₁, f₂, written₁, written₂, rfl⟩, written₃, rfl⟩, ?_⟩
    simp only [List.append_assoc]
  · rintro ⟨⟨data, first, second⟩, _,
      ⟨_, f₃, ⟨f₁, f₂, written₁, written₂, rfl⟩, written₃, rfl⟩, rfl⟩
    refine ⟨x.data, f₂ ++ (f₃ ++ rest), ⟨data, f₁, written₁, ?_⟩, x.first, f₃ ++ rest,
      ⟨first, f₂, written₂, rfl⟩, x.second, rest, ⟨second, f₃, written₃, rfl⟩, rfl, rfl⟩
    simp only [List.append_assoc]

theorem inverts_mapM {σ : Type} {f : σ → Reader β} {good : β → σ → Prop} {write : β → Written}
    (each : ∀ s, Inverts (f s) (fun x => good x s) write) : ∀ ss : List σ,
      Inverts (ss.mapM f) (fun xs => List.Forall₂ good xs ss) fun xs => .concat (xs.map write)
  | [] => by
    intro bs xs rest
    simp only [List.mapM_nil, run_pure_ok, List.forall₂_nil_right_iff]
    constructor
    · rintro ⟨rfl, rfl⟩
      exact ⟨rfl, [], rfl, rfl⟩
    · rintro ⟨rfl, _, written, rfl⟩
      obtain rfl := Written.ofBytes_inj.1 written
      exact ⟨rfl, rfl⟩
  | s :: ss => by
    intro bs xs rest
    simp only [List.mapM_cons, run_bind_ok, run_pure_ok, each s _ _ _, inverts_mapM each ss _ _ _]
    constructor
    · rintro ⟨x, _, ⟨first, f, written, rfl⟩, xs, _, ⟨others, g, written', rfl⟩, rfl, rfl⟩
      refine ⟨.cons first others, f ++ g, ?_, (List.append_assoc f g _).symm⟩
      rw [List.map_cons, Written.concat_cons, Written.append_eq_ofBytes]
      exact ⟨f, g, written, written', rfl⟩
    · rintro ⟨good, front, written, rfl⟩
      cases good with
      | cons first others =>
        rw [List.map_cons, Written.concat_cons, Written.append_eq_ofBytes] at written
        obtain ⟨f, g, written, written', rfl⟩ := written
        exact ⟨_, g ++ rest, ⟨first, f, written, List.append_assoc f g rest⟩, _, rest,
          ⟨others, g, written', rfl⟩, rfl, rfl⟩

theorem forall₂_zipIdx {σ : Type} {good : β → σ → Prop} {xs : List β} {ss : List σ} {i : Nat} :
    List.Forall₂ (fun x p => good x p.1) xs (ss.zipIdx i) ↔ List.Forall₂ good xs ss := by
  rw [← List.forall₂_map_right_iff (f := Prod.fst), List.zipIdx_map_fst]

theorem forall₂_eq_iff {σ τ : Type} {f : β → τ} {g : σ → τ} {xs : List β} {ss : List σ} :
    List.Forall₂ (fun x s => f x = g s) xs ss ↔ xs.map f = ss.map g := by
  have mapped : List.Forall₂ Eq (xs.map f) (ss.map g) ↔
      List.Forall₂ (fun x s => f x = g s) xs ss := by
    rw [List.forall₂_map_left_iff, List.forall₂_map_right_iff]
  rw [← mapped, List.forall₂_eq_eq_eq]

theorem inverts_counted {σ : Type} {f : σ × Nat → Reader β} {write : β → Written}
    (good : β → σ → Prop) (each : ∀ p, Inverts (f p) (fun x => good x p.1) write) (ss : List σ) :
    Inverts (count ss.length >>= fun _ => ss.zipIdx.mapM f) (fun xs => List.Forall₂ good xs ss)
      (ModelFile.counted write) := by
  intro bs xs rest
  have all := inverts_mapM each ss.zipIdx
  simp only [run_bind_ok, inverts_count _ _ _ _, all _ _ _, forall₂_zipIdx, true_and,
    ModelFile.counted, Written.append_eq_ofBytes]
  constructor
  · rintro ⟨-, _, ⟨f, number, rfl⟩, same, g, written, rfl⟩
    rw [← same.length_eq] at number
    exact ⟨same, f ++ g, ⟨f, g, number, written, rfl⟩, (List.append_assoc f g rest).symm⟩
  · rintro ⟨same, _, ⟨f, g, number, written, rfl⟩, rfl⟩
    rw [same.length_eq] at number
    exact ⟨(), g ++ rest, ⟨f, number, List.append_assoc f g rest⟩, same, g, written, rfl⟩

theorem inverts_adaptedAll (es : List Expected) : Inverts (adaptedAll (α := α) es)
    (fun xs => List.Forall₂ (fun x e => x.Shaped e.shape) xs es)
    (ModelFile.counted ModelFile.adapted) :=
  inverts_counted _ (fun p => inverts_adapted p.2 p.1) es

theorem parametersFrom_ok_iff : ∀ (es : List Expected) (i : Nat) (bs : List UInt8)
    (xs : List (NDArray α)) (rest : List UInt8), parametersFrom i es bs = ⟨xs, .ok rest⟩ ↔
      ((es.zipIdx i).mapM fun p => parameter p.2 p.1).run bs = .ok (xs, rest)
  | [], i, bs, xs, rest => by
    have nothing : ((([] : List Expected).zipIdx i).mapM fun p => parameter p.2 p.1).run bs =
        .ok (([] : List (NDArray α)), bs) := rfl
    rw [nothing]
    simp [parametersFrom]
  | e :: es, i, bs, xs, rest => by
    rw [List.zipIdx_cons, List.mapM_cons, parametersFrom, run_bind_ok]
    cases first : (parameter (α := α) i e).run bs with
    | error err => simp
    | ok p =>
      obtain ⟨x, mid⟩ := p
      have others (ys : List (NDArray α)) (end' : List UInt8) :=
        parametersFrom_ok_iff es (i + 1) mid ys end'
      simp only [run_bind_ok, run_pure_ok]
      constructor
      · intro gives
        obtain ⟨arrays, end'⟩ := Progress.mk.inj gives
        refine ⟨x, mid, rfl, _, rest, (others _ rest).1 ?_, arrays, rfl⟩
        rw [← end']
      · rintro ⟨_, _, ⟨⟩, ys, _, gives, rfl, rfl⟩
        rw [(others ys _).2 gives]

theorem parameters_ok_iff (es : List Expected) (bs : List UInt8) (xs : List (NDArray α))
    (rest : List UInt8) : parameters es bs = ⟨xs, .ok rest⟩ ↔
      List.Forall₂ (fun x e => x.shape = e.shape) xs es ∧
        ∃ front, ModelFile.counted ModelFile.parameter xs = .ofBytes front ∧
          bs = front ++ rest := by
  have all := inverts_counted (fun (x : NDArray α) (e : Expected) => x.shape = e.shape)
    (fun p => inverts_parameter p.2 p.1) es bs xs rest
  rw [← all, run_bind_ok, parameters]
  cases number : (count es.length).run bs with
  | error err => simp
  | ok p =>
    obtain ⟨u, mid⟩ := p
    simp [parametersFrom_ok_iff]

end Elements

end Reader

end DerivativeEngine
