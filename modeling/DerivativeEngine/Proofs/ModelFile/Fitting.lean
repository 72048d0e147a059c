import DerivativeEngine.Proofs.Layer.Plan
import DerivativeEngine.Proofs.ModelFile.Format
import Mathlib.Algebra.GroupWithZero.Nat

/-! When all numbers of a file fit, and how many bytes there are then. The dimensions and the rank
of a checked shape are no larger than what is asked of its size, so it is enough that the sizes of
the parameters fit, beside the numbers in front of them. -/

namespace DerivativeEngine

namespace Shape.Checked

theorem rank {s : Shape} (h : Checked s) : s.length ≤ Shape.maxRank := by
  obtain ⟨sizes, check⟩ := h
  obtain ⟨⟨-, most, -⟩, rfl⟩ := Shape.check_eq_ok.1 check
  rwa [List.length_map]

theorem positive {s : Shape} (h : Checked s) : ∀ d ∈ s, 0 < d := by
  obtain ⟨sizes, check⟩ := h
  obtain ⟨⟨-, -, positive⟩, rfl⟩ := Shape.check_eq_ok.1 check
  intro d hd
  obtain ⟨n, hn, rfl⟩ := List.mem_map.1 hd
  have := positive n hn
  omega

theorem le_size {s : Shape} (h : Checked s) : ∀ d ∈ s, d ≤ Shape.size s := by
  have product : ∀ s : Shape, (∀ d ∈ s, 0 < d) → 0 < Shape.size s ∧ ∀ d ∈ s, d ≤ Shape.size s := by
    intro s
    induction s with
    | nil => simp [Shape.size]
    | cons n s ih =>
      intro positive
      obtain ⟨first, others⟩ := List.forall_mem_cons.1 positive
      obtain ⟨rest, below⟩ := ih others
      have whole : Shape.size (n :: s) = n * Shape.size s := rfl
      rw [whole]
      refine ⟨Nat.mul_pos first rest, List.forall_mem_cons.2 ⟨?_, fun d hd => ?_⟩⟩
      · exact Nat.le_mul_of_pos_right n rest
      · exact Nat.le_trans (below d hd) (Nat.le_mul_of_pos_left _ first)
  exact (product s h.positive).2

end Shape.Checked

namespace ModelFile

open LittleEndian (fitsInt32)

variable {α : Type} [WordCoded α] {bs : List UInt8}

theorem exists_ofInts {ns : List Int} (fits : ∀ n ∈ ns, fitsInt32 n = true) :
    ∃ bs, Written.ofInts ns = .ofBytes bs :=
  ⟨_, Written.ofInts_eq_ofBytes.2 ⟨fits, rfl⟩⟩

theorem exists_append {a b : Written} (ha : ∃ bs, a = .ofBytes bs) (hb : ∃ bs, b = .ofBytes bs) :
    ∃ bs, a ++ b = .ofBytes bs := by
  obtain ⟨f, rfl⟩ := ha
  obtain ⟨g, rfl⟩ := hb
  exact ⟨f ++ g, rfl⟩

theorem exists_concat {β : Type} {write : β → Written} : ∀ {xs : List β},
    (∀ x ∈ xs, ∃ bs, write x = .ofBytes bs) → ∃ bs, Written.concat (xs.map write) = .ofBytes bs
  | [], _ => ⟨[], rfl⟩
  | _ :: _, each =>
    exists_append (each _ (List.mem_cons_self ..))
      (exists_concat fun x hx => each x (List.mem_cons_of_mem _ hx))

theorem exists_parameter {x : NDArray α} (checked : x.shape.Checked)
    (fits : fitsInt32 x.size = true) : ∃ bs, parameter x = .ofBytes bs := by
  have below := LittleEndian.fitsInt32_iff.1 fits
  have rank := checked.rank
  refine exists_append (exists_append (exists_append ?_ ?_) ?_) ⟨_, rfl⟩
  · refine exists_ofInts (List.forall_mem_singleton.2 ?_)
    rw [LittleEndian.fitsInt32_iff]
    have small : Shape.maxRank = 8 := rfl
    omega
  · refine exists_ofInts fun n hn => ?_
    obtain ⟨d, hd, rfl⟩ := List.mem_map.1 hn
    have bound : d ≤ x.size := checked.le_size d hd
    rw [LittleEndian.fitsInt32_iff]
    simp only [Int.ofNat_eq_natCast]
    omega
  · exact exists_ofInts (List.forall_mem_singleton.2 fits)

theorem exists_counted {β : Type} {write : β → Written} {xs : List β}
    (count : fitsInt32 xs.length = true) (each : ∀ x ∈ xs, ∃ bs, write x = .ofBytes bs) :
    ∃ bs, counted write xs = .ofBytes bs :=
  exists_append (exists_ofInts (List.forall_mem_singleton.2 count)) (exists_concat each)

theorem exists_config {c : TransformerConfig} (fits : ∀ f ∈ c.fields, fitsInt32 f.2 = true) :
    ∃ bs, config c = .ofBytes bs := by
  refine exists_ofInts fun n hn => ?_
  obtain ⟨f, hf, rfl⟩ := List.mem_map.1 hn
  exact fits f hf

theorem exists_model {c : TransformerConfig} {xs : List (NDArray α)}
    (fields : ∀ f ∈ c.fields, fitsInt32 f.2 = true) (count : fitsInt32 xs.length = true)
    (each : ∀ x ∈ xs, x.shape.Checked ∧ fitsInt32 x.size = true) :
    ∃ bs, model c xs = .ofBytes bs :=
  exists_append (exists_append ⟨_, rfl⟩ (exists_config fields))
    (exists_counted count fun x hx => exists_parameter (each x hx).1 (each x hx).2)

theorem exists_checkpoint {s : TrainingState α} {c : TransformerConfig} {xs : List (Adapted α)}
    (iteration : fitsInt32 s.iteration = true) (fields : ∀ f ∈ c.fields, fitsInt32 f.2 = true)
    (count : fitsInt32 xs.length = true)
    (each : ∀ x ∈ xs, x.data.shape.Checked ∧ fitsInt32 x.data.size = true) :
    ∃ bs, checkpoint s c xs = .ofBytes bs := by
  have state : ∃ bs, training s = .ofBytes bs :=
    exists_append (exists_ofInts (List.forall_mem_singleton.2 iteration)) ⟨_, rfl⟩
  refine exists_append (exists_append (exists_append ⟨_, rfl⟩ state) (exists_config fields))
    (exists_counted count fun x hx => ?_)
  have data := exists_parameter (each x hx).1 (each x hx).2
  exact exists_append (exists_append data ⟨_, rfl⟩) ⟨_, rfl⟩

end ModelFile

namespace Written

structure Sized (a : Written) (n : Nat) : Prop where
  whole : a.complete = true → a.bytes.length = n
  short : a.complete = false → a.bytes.length < n

variable {a b : Written} {m n : Nat}

theorem Sized.length {bs : List UInt8} (h : a.Sized n) (whole : a = ofBytes bs) :
    bs.length = n := by
  subst whole
  exact h.whole rfl

theorem Sized.le (h : a.Sized n) : a.bytes.length ≤ n := by
  cases complete : a.complete with
  | true => exact Nat.le_of_eq (h.whole complete)
  | false => exact Nat.le_of_lt (h.short complete)

theorem Sized.ofBytes (bs : List UInt8) : (Written.ofBytes bs).Sized bs.length :=
  ⟨fun _ => rfl, nofun⟩

theorem append_of_incomplete (incomplete : a.complete = false) (b : Written) : a ++ b = a := by
  change append a b = a
  rw [append, incomplete, if_neg Bool.false_ne_true]

theorem append_of_complete (complete : a.complete = true) (b : Written) :
    a ++ b = ⟨a.bytes ++ b.bytes, b.complete⟩ := by
  change append a b = _
  rw [append, if_pos complete]

theorem Sized.append (ha : a.Sized m) (hb : b.Sized n) : (a ++ b).Sized (m + n) := by
  cases complete : a.complete with
  | false =>
    rw [append_of_incomplete complete]
    refine ⟨fun whole => absurd (complete.symm.trans whole) Bool.false_ne_true, fun short => ?_⟩
    exact Nat.lt_of_lt_of_le (ha.short short) (Nat.le_add_right m n)
  | true =>
    rw [append_of_complete complete]
    refine ⟨fun whole => ?_, fun short => ?_⟩
    · rw [List.length_append, ha.whole complete, hb.whole whole]
    · rw [List.length_append, ha.whole complete]
      exact Nat.add_lt_add_left (hb.short short) m

theorem length_flatMap {β γ : Type} {f : β → List γ} {width : Nat}
    (each : ∀ x, (f x).length = width) (xs : List β) :
    (xs.flatMap f).length = width * xs.length := by
  induction xs with
  | nil => rfl
  | cons x xs ih =>
    rw [List.flatMap_cons, List.length_append, each, ih, List.length_cons, Nat.mul_succ,
      Nat.add_comm]

theorem Sized.ofInts (ns : List Int) : (Written.ofInts ns).Sized (4 * ns.length) := by
  unfold Written.ofInts
  split
  · rw [← length_flatMap (fun n => LittleEndian.length_bytes 4 _) ns]
    exact Sized.ofBytes _
  · next unfit =>
    refine ⟨nofun, fun _ => ?_⟩
    cases ns with
    | nil => exact absurd rfl unfit
    | cons n ns => exact Nat.mul_pos (by decide) (Nat.succ_pos _)

theorem Sized.concat {β : Type} {write : β → Written} {size : β → Nat}
    (each : ∀ x, (write x).Sized (size x)) : ∀ xs : List β,
      (Written.concat (xs.map write)).Sized (xs.map size).sum
  | [] => Sized.ofBytes []
  | x :: xs => (each x).append (Sized.concat each xs)

end Written

namespace ModelFile

variable {α : Type} [WordCoded α] {bs : List UInt8}

theorem sized_header : header.Sized 8 := Written.Sized.ofBytes _

theorem sized_config (c : TransformerConfig) : (config c).Sized 24 := Written.Sized.ofInts _

theorem sized_training (s : TrainingState α) : (training s).Sized 20 :=
  (Written.Sized.ofInts [s.iteration]).append (.ofBytes _)

theorem sized_elements (x : NDArray α) : (elements x).Sized (8 * x.size) := by
  have size : x.toList.length = x.size := x.size_data
  rw [← size, ← Written.length_flatMap (fun a => LittleEndian.length_bytes 8 _) x.toList]
  exact Written.Sized.ofBytes _

def parameterSize (s : Shape) : Nat := 4 + 4 * s.length + 4 + 8 * s.size

theorem sized_parameter (x : NDArray α) : (parameter x).Sized (parameterSize x.shape) := by
  have dims := Written.Sized.ofInts (x.shape.map Int.ofNat)
  rw [List.length_map] at dims
  exact (((Written.Sized.ofInts [_]).append dims).append (.ofInts [_])).append
    (sized_elements x)

theorem sized_adapted (x : Adapted α) : (adapted x).Sized
    (parameterSize x.data.shape + 8 * x.first.size + 8 * x.second.size) :=
  ((sized_parameter x.data).append (sized_elements x.first)).append (sized_elements x.second)

/-- The bytes of a model file: header, sizes and count, and the parameters of these shapes. -/
def modelSize (shapes : List Shape) : Nat := 8 + 24 + 4 + (shapes.map parameterSize).sum

theorem sized_model (c : TransformerConfig) (xs : List (NDArray α)) :
    (model c xs).Sized (modelSize (xs.map NDArray.shape)) := by
  have all := Written.Sized.concat sized_parameter xs
  rw [modelSize, List.map_map, Nat.add_assoc]
  exact (sized_header.append (sized_config c)).append ((Written.Sized.ofInts [_]).append all)

/-- The bytes of a checkpoint, which holds the state of training and the moments as well. -/
def checkpointSize (shapes : List Shape) : Nat :=
  8 + 20 + 24 + 4 + (shapes.map fun s => parameterSize s + 8 * s.size + 8 * s.size).sum

theorem sized_checkpoint (s : TrainingState α) (c : TransformerConfig) {xs : List (Adapted α)}
    {shapes : List Shape} (shaped : List.Forall₂ Adapted.Shaped xs shapes) :
    (checkpoint s c xs).Sized (checkpointSize shapes) := by
  have all := Written.Sized.concat sized_adapted xs
  have same := Reader.forall₂_eq_iff.1 (shaped.imp fun x shape each =>
    show parameterSize x.data.shape + 8 * x.first.size + 8 * x.second.size =
      parameterSize shape + 8 * shape.size + 8 * shape.size by
    rw [NDArray.size, NDArray.size, each.1, each.2.1, each.2.2])
  rw [same] at all
  rw [checkpointSize, Nat.add_assoc]
  exact ((sized_header.append (sized_training s)).append (sized_config c)).append
    ((Written.Sized.ofInts [_]).append all)

end ModelFile

end DerivativeEngine
