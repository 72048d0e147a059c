import DerivativeEngine.Proofs.ModelFile.Checkpoint

/-! Files that fail while a model is filled. Each parameter is filled as soon as it was read, so the
model keeps the records at the front of the file, as many as are whole, and what it held before in
the parameters behind them. Nothing else changes, and no file is read so far that does not begin as
one of this model. -/

namespace DerivativeEngine

variable {α : Type}

namespace Written

theorem concat_append_eq_ofBytes {as bs : List Written} : ∀ {bytes : List UInt8},
    concat (as ++ bs) = .ofBytes bytes ↔
      ∃ f g, concat as = .ofBytes f ∧ concat bs = .ofBytes g ∧ bytes = f ++ g := by
  induction as with
  | nil =>
    intro bytes
    constructor
    · exact fun h => ⟨[], bytes, rfl, h, rfl⟩
    · rintro ⟨f, g, nothing, written, rfl⟩
      obtain rfl : [] = f := ofBytes_inj.1 nothing
      exact written
  | cons a as ih =>
    intro bytes
    simp only [List.cons_append, concat_cons, append_eq_ofBytes, ih]
    constructor
    · rintro ⟨f, _, first, ⟨g, h, written, others, rfl⟩, rfl⟩
      exact ⟨f ++ g, h, ⟨f, g, first, written, rfl⟩, others, (List.append_assoc f g h).symm⟩
    · rintro ⟨_, h, ⟨f, g, first, written, rfl⟩, others, rfl⟩
      exact ⟨f, g ++ h, first, ⟨g, h, written, others, rfl⟩, List.append_assoc f g h⟩

end Written

namespace ModelFile

variable [WordCoded α]

def Records (xs : List (NDArray α)) (bytes rest : List UInt8) : Prop :=
  ∃ front, Written.concat (xs.map parameter) = .ofBytes front ∧ bytes = front ++ rest

/-- The bytes of a file of a model of these sizes with so many parameters, as far as these
parameters, and the rest. -/
def Opens (c : TransformerConfig) (count : Nat) (xs : List (NDArray α)) (bytes rest : List UInt8) :
    Prop :=
  ∃ front, header ++ config c ++ .ofInts [count] ++ Written.concat (xs.map parameter) =
    .ofBytes front ∧ bytes = front ++ rest

variable {xs ys : List (NDArray α)} {bytes rest : List UInt8}

theorem Records.nil (bytes : List UInt8) : Records ([] : List (NDArray α)) bytes bytes :=
  ⟨[], rfl, rfl⟩

theorem records_append : Records (xs ++ ys) bytes rest ↔
    ∃ mid, Records xs bytes mid ∧ Records ys mid rest := by
  simp only [Records, List.map_append, Written.concat_append_eq_ofBytes]
  constructor
  · rintro ⟨_, ⟨f, g, first, second, rfl⟩, rfl⟩
    exact ⟨g ++ rest, ⟨f, first, List.append_assoc f g rest⟩, g, second, rfl⟩
  · rintro ⟨_, ⟨f, first, rfl⟩, g, second, rfl⟩
    exact ⟨f ++ g, ⟨f, g, first, second, rfl⟩, (List.append_assoc f g rest).symm⟩

theorem Records.cons {x : NDArray α} {mid : List UInt8} (first : Records [x] bytes mid)
    (others : Records xs mid rest) : Records (x :: xs) bytes rest := by
  rw [← List.singleton_append, records_append]
  exact ⟨mid, first, others⟩

theorem Records.unique {rest' : List UInt8} (h : Records xs bytes rest)
    (h' : Records xs bytes rest') : rest = rest' := by
  obtain ⟨f, first, rfl⟩ := h
  obtain ⟨g, second, same⟩ := h'
  obtain rfl := Written.ofBytes_inj.1 (first.symm.trans second)
  exact List.append_cancel_left same

variable [Zero α]

theorem records_singleton {x : NDArray α} {i : Nat} {e : Expected} (shape : x.shape = e.shape) :
    Records [x] bytes rest ↔ (Reader.parameter i e).run bytes = .ok (x, rest) := by
  have last (f : List UInt8) : Written.concat ([x].map parameter) = .ofBytes f ↔
      parameter x = .ofBytes f := by
    have nothing : Written.concat [] = .ofBytes [] := rfl
    rw [List.map_cons, List.map_nil, Written.concat_cons, nothing, Written.append_eq_ofBytes]
    simp [Written.ofBytes_inj]
  rw [Reader.inverts_parameter i e bytes x rest]
  simp only [Records, last, shape, true_and]

omit [Zero α] in
theorem opens_iff {c : TransformerConfig} {n : Nat} : Opens c n xs bytes rest ↔
    ∃ r₁ r₂, (Reader.header *> Reader.config).run bytes = .ok (c, r₁) ∧
      (Reader.count n).run r₁ = .ok ((), r₂) ∧ Records xs r₂ rest := by
  constructor
  · rintro ⟨_, written, rfl⟩
    obtain ⟨_, h, opening, records, rfl⟩ := Written.append_eq_ofBytes.1 written
    obtain ⟨f, g, fields, number, rfl⟩ := Written.append_eq_ofBytes.1 opening
    have front := (Reader.inverts_front (f ++ g ++ h ++ rest) c (g ++ (h ++ rest))).2
      ⟨trivial, f, fields, by simp only [List.append_assoc]⟩
    have counted := (Reader.inverts_count n (g ++ (h ++ rest)) () (h ++ rest)).2
      ⟨trivial, g, number, rfl⟩
    exact ⟨_, _, front, counted, h, records, rfl⟩
  · rintro ⟨r₁, r₂, front, counted, h, records, rfl⟩
    obtain ⟨-, f, fields, rfl⟩ := (Reader.inverts_front _ _ _).1 front
    obtain ⟨-, g, number, rfl⟩ := (Reader.inverts_count _ _ _ _).1 counted
    refine ⟨f ++ g ++ h, ?_, by simp only [List.append_assoc]⟩
    exact Written.append_eq_ofBytes.2
      ⟨f ++ g, h, Written.append_eq_ofBytes.2 ⟨f, g, fields, number, rfl⟩, records, rfl⟩

end ModelFile

namespace Reader

variable [Zero α] [WordCoded α]

structure Progress.Ends (p : Progress α) (es : List Expected) (bytes rest : List UInt8) :
    Prop where
  records : ModelFile.Records p.arrays bytes rest
  shapes : p.arrays.map NDArray.shape = (es.take p.arrays.length).map Expected.shape
  stops : p.rest = .ok rest ∨ ∃ e es', es.drop p.arrays.length = e :: es' ∧
    ∀ (x : NDArray α) rest', x.shape = e.shape → ¬ ModelFile.Records [x] rest rest'

theorem parametersFrom_ends : ∀ (es : List Expected) (i : Nat) (bytes : List UInt8),
    ∃ rest, (parametersFrom (α := α) i es bytes).Ends es bytes rest
  | [], i, bytes => ⟨bytes, .nil bytes, rfl, .inl rfl⟩
  | e :: es, i, bytes => by
    rw [parametersFrom]
    cases first : (parameter (α := α) i e).run bytes with
    | error err =>
      refine ⟨bytes, .nil bytes, rfl, .inr ⟨e, es, rfl, fun x rest' shape record => ?_⟩⟩
      rw [(ModelFile.records_singleton shape).1 record] at first
      cases first
    | ok r =>
      obtain ⟨x, mid⟩ := r
      have shape : x.shape = e.shape := ((inverts_parameter i e _ _ _).1 first).1
      obtain ⟨rest, ends⟩ := parametersFrom_ends es (i + 1) mid
      refine ⟨rest, ?_, ?_, ends.stops⟩
      · exact ((ModelFile.records_singleton shape).2 first).cons ends.records
      · simp only [List.map_cons, List.length_cons, List.take_succ_cons, shape, ends.shapes]

end Reader

theorem Transformer.parameters_ne_nil (t : Transformer α VariableId) : t.parameters ≠ [] := by
  simp [parameters, Embedding.parameters]

namespace Workspace

variable [Scalar α] {w : Workspace α} {t : Transformer α VariableId} {xs : List (NDArray α)}

omit [Scalar α] in
theorem map_fst_zip : ∀ (vs : List VariableId) (xs : List (NDArray α)),
    (vs.zip xs).map Prod.fst = vs.take xs.length
  | [], xs => by simp
  | v :: vs, [] => by simp
  | v :: vs, x :: xs => by
    rw [List.zip_cons_cons, List.map_cons, map_fst_zip vs xs, List.length_cons, List.take_succ_cons]

omit [Scalar α] in
theorem take_zip : ∀ (n : Nat) (vs : List VariableId) (xs : List (NDArray α)),
    (vs.zip xs).take n = vs.zip (xs.take n)
  | 0, vs, xs => by simp
  | n + 1, [], xs => by simp
  | n + 1, v :: vs, [] => by simp
  | n + 1, v :: vs, x :: xs => by
    rw [List.zip_cons_cons, List.take_succ_cons, take_zip n vs xs, List.take_succ_cons,
      List.zip_cons_cons]

omit [Scalar α] in
theorem filled_zip {vs : List VariableId} (separate : w.Separate vs) (xs : List (NDArray α)) :
    w.Filled (vs.zip xs) (w.fillAll (vs.zip xs)) := by
  refine filled_fillAll ?_
  rw [map_fst_zip]
  have distinct := separate.distinct
  rw [← List.take_append_drop xs.length vs, List.map_append, List.nodup_append] at distinct
  exact ⟨fun v hv => separate.known v (List.mem_of_mem_take hv), distinct.1⟩

theorem arrays_fillAll (separate : w.Separate t.parameters)
    (fewer : xs.length ≤ t.parameters.length) :
    (w.fillAll (t.parameters.zip xs)).arrays t = xs ++ (w.arrays t).drop xs.length := by
  have filled := filled_zip separate xs
  have firsts := map_fst_zip t.parameters xs
  have seconds : (t.parameters.zip xs).map Prod.snd = xs := List.map_snd_zip fewer
  have distinct := separate.distinct
  rw [← List.take_append_drop xs.length t.parameters, List.map_append,
    List.nodup_append] at distinct
  generalize w.fillAll _ = w' at filled ⊢
  rw [Workspace.arrays, Workspace.arrays, ← List.map_drop]
  conv => lhs; rw [← List.take_append_drop xs.length t.parameters, List.map_append]
  congr 1
  · rw [← firsts, List.map_map]
    conv => rhs; rw [← seconds]
    refine List.map_congr_left fun q hq => ?_
    rw [Function.comp_apply, valueOf, filled.var, filled.held q hq]
    rfl
  · refine List.map_congr_left fun v hv => ?_
    have apart : ∀ q ∈ t.parameters.zip xs, (w.var q.1).data ≠ (w.var v).data := by
      intro q hq
      have taken : q.1 ∈ t.parameters.take xs.length := by
        rw [← firsts]
        exact List.mem_map_of_mem hq
      exact distinct.2.2 _ (List.mem_map_of_mem taken) _ (List.mem_map_of_mem hv)
    rw [valueOf, valueOf, filled.var, filled.others _ apart]

end Workspace

namespace Session

variable [Scalar α] [WordCoded α] {w w' : Workspace α} {t : Transformer α VariableId}
  {bytes : List UInt8} {xs : List (NDArray α)}

omit [Scalar α] [WordCoded α] in
theorem outcome_ofFormat_error {β : Type} {x : Except FormatError β} {e : TensorError}
    (h : outcome (ofFormat x) w = (.error e, w')) : (∀ y, x ≠ .ok y) ∧ w = w' := by
  cases x with
  | error err => exact ⟨nofun, (Prod.mk.inj h).2⟩
  | ok y => cases h

/-- How a load leaves the model and its workspace that failed behind these records. -/
structure FailsBehind (w : Workspace α) (bytes : List UInt8) (t : Transformer α VariableId)
    (xs : List (NDArray α)) (w' : Workspace α) : Prop where
  fewer : xs.length < t.parameters.length
  shapes : xs.map NDArray.shape = (t.parameters.take xs.length).map w.shapeOf
  read : xs ≠ [] → ∃ rest, ModelFile.Opens t.config t.parameters.length xs bytes rest
  broken : (∀ v ∈ t.parameters, w.Alive v) → ∀ v ∈ t.parameters[xs.length]?, ∀ x rest,
    x.shape = w.shapeOf v → ¬ ModelFile.Opens t.config t.parameters.length (xs ++ [x]) bytes rest
  filled : w' = w.fillAll (t.parameters.zip xs)
  arrays : w.Separate t.parameters → w'.arrays t = xs ++ (w.arrays t).drop xs.length
  others : ∀ i, (∀ v ∈ t.parameters.take xs.length, (w.var v).data ≠ i) → w'.tensor i = w.tensor i
  rest : w' = { w with tensors := w'.tensors }

theorem FailsBehind.of_fillAll (fewer : xs.length < t.parameters.length)
    (shapes : xs.map NDArray.shape = (t.parameters.take xs.length).map w.shapeOf)
    (read : xs ≠ [] → ∃ rest, ModelFile.Opens t.config t.parameters.length xs bytes rest)
    (broken : (∀ v ∈ t.parameters, w.Alive v) → ∀ v ∈ t.parameters[xs.length]?, ∀ x rest,
      x.shape = w.shapeOf v →
        ¬ ModelFile.Opens t.config t.parameters.length (xs ++ [x]) bytes rest) :
    FailsBehind w bytes t xs (w.fillAll (t.parameters.zip xs)) := by
  refine ⟨fewer, shapes, read, broken, rfl,
    fun separate => Workspace.arrays_fillAll separate (Nat.le_of_lt fewer), fun i apart => ?_,
    Workspace.fillAll_rest _ w⟩
  refine Workspace.tensor_fillAll_of_ne fun q hq => apart q.1 ?_
  rw [← Workspace.map_fst_zip]
  exact List.mem_map_of_mem hq

theorem FailsBehind.nothing (closed : ∀ (x : NDArray α) rest,
      ¬ ModelFile.Opens t.config t.parameters.length [x] bytes rest) :
    FailsBehind w bytes t [] w := by
  have same : w = w.fillAll (t.parameters.zip []) := by
    rw [List.zip_nil_right]
    rfl
  conv => arg 5; rw [same]
  exact .of_fillAll (List.length_pos_of_ne_nil t.parameters_ne_nil) rfl (absurd rfl)
    fun _ v _ x rest _ => closed x rest

omit [WordCoded α] in
theorem outcome_target_some {c : TransformerConfig} :
    outcome (target c (some t)) w = if t.config = c then (.ok t, w)
      else (.error (.format (.architecture c t.config)), w) := by
  by_cases same : t.config = c
  · rw [if_pos same]
    simp only [target, same, bne_self_eq_false, Bool.false_eq_true, if_false]
    rfl
  · rw [if_neg same]
    simp only [target, bne_iff_ne.2 same, if_true]
    rfl

section Filling

variable {front r rest : List UInt8} {p : Reader.Progress α}
  (read : (Reader.header *> Reader.config).run bytes = .ok (t.config, front))
  (counted : (Reader.count t.parameters.length).run front = .ok ((), r))
  (ends : p.Ends (t.parameters.map fun v => ⟨(w.var v).name, w.shapeOf v⟩) r rest)

omit [Scalar α] in
include ends in
theorem shapes_of_ends : p.arrays.length ≤ t.parameters.length ∧
    p.arrays.map NDArray.shape = (t.parameters.take p.arrays.length).map w.shapeOf := by
  have shapes : p.arrays.map NDArray.shape =
      (t.parameters.take p.arrays.length).map w.shapeOf := by
    rw [ends.shapes, ← List.map_take, List.map_map]
    rfl
  have length := congrArg List.length shapes
  rw [List.length_map, List.length_map, List.length_take] at length
  exact ⟨by omega, shapes⟩

omit [Scalar α] in
include ends in
theorem shape_of_ends : ∀ q ∈ t.parameters.zip p.arrays, q.2.shape = w.shapeOf q.1 := by
  obtain ⟨fewer, shapes⟩ := shapes_of_ends ends
  rw [← Workspace.map_fst_zip, List.map_map] at shapes
  conv at shapes => lhs; rw [← List.map_snd_zip fewer, List.map_map]
  exact List.map_inj_left.1 shapes

include read counted ends in
theorem FailsBehind.of_reading (failed : p.rest ≠ .ok rest) :
    FailsBehind w bytes t p.arrays (w.fillAll (t.parameters.zip p.arrays)) := by
  obtain ⟨e, es, next, broken⟩ := ends.stops.resolve_left failed
  rw [← List.map_drop] at next
  obtain ⟨v, vs, behind, rfl, -⟩ := List.map_eq_cons_iff.1 next
  have fewer : p.arrays.length < t.parameters.length := by
    have more := congrArg List.length behind
    rw [List.length_drop, List.length_cons] at more
    omega
  refine .of_fillAll fewer (shapes_of_ends ends).2
    (fun _ => ⟨rest, ModelFile.opens_iff.2 ⟨front, r, read, counted, ends.records⟩⟩) ?_
  intro _ v' hv' x rest' shape opens
  have same : v' = v := by
    have head := congrArg List.head? behind
    rw [List.head?_drop, Option.mem_def.1 hv'] at head
    exact Option.some.inj head
  obtain ⟨r₁, r₂, read', counted', records⟩ := ModelFile.opens_iff.1 opens
  obtain ⟨-, rfl⟩ := Prod.mk.inj (Except.ok.inj (read.symm.trans read'))
  obtain ⟨-, rfl⟩ := Prod.mk.inj (Except.ok.inj (counted.symm.trans counted'))
  obtain ⟨mid, first, record⟩ := ModelFile.records_append.1 records
  obtain rfl := first.unique ends.records
  exact broken x rest' (same ▸ shape) record

include read counted ends in
theorem FailsBehind.of_filling {done later : List (VariableId × NDArray α)}
    {q : VariableId × NDArray α}
    (split : t.parameters.zip p.arrays = done ++ q :: later) (refused : ¬ w.Accepts q.1 q.2) :
    FailsBehind w bytes t (p.arrays.take done.length) (w.fillAll done) := by
  obtain ⟨-, shapes⟩ := shapes_of_ends ends
  have few := congrArg List.length split
  rw [List.length_zip, List.length_append, List.length_cons] at few
  have length : (p.arrays.take done.length).length = done.length :=
    List.length_take_of_le (by omega)
  have filled : done = t.parameters.zip (p.arrays.take done.length) := by
    rw [← Workspace.take_zip, split, List.take_left' rfl]
  have here : q ∈ t.parameters.zip p.arrays := by
    rw [split]
    exact List.mem_append_right _ List.mem_cons_self
  have records := ends.records
  rw [← List.take_append_drop done.length p.arrays] at records
  obtain ⟨mid, first, -⟩ := ModelFile.records_append.1 records
  conv => arg 5; rw [filled]
  refine .of_fillAll (by omega) ?_
    (fun _ => ⟨mid, ModelFile.opens_iff.2 ⟨front, r, read, counted, first⟩⟩) fun alive => ?_
  · rw [List.map_take, shapes, ← List.map_take, List.take_take, length]
    congr 2
    omega
  · exact absurd ⟨shape_of_ends ends q here, alive q.1 (List.of_mem_zip here).1⟩ refused

end Filling

/-- Filling fails at the number of parameters, at a parameter that does not take its array, or at a
record that is not whole. -/
theorem fillParameters_error {front : List UInt8}
    (opened : (Reader.header *> Reader.config).run bytes = .ok (t.config, front)) {e : TensorError}
    (failed : outcome (do
      let p := Reader.parameters (t.parameters.map fun v => ⟨(w.var v).name, w.shapeOf v⟩) front
      (t.parameters.zip p.arrays).forM fun (v, x) => setData v x
      return (t, ← ofFormat p.rest)) w = (.error e, w')) :
    ∃ xs, FailsBehind w bytes t xs w' := by
  dsimp only at failed
  rw [Reader.parameters, List.length_map] at failed
  cases counted : (Reader.count t.parameters.length).run front with
  | error err =>
    have none : outcome (([] : List (VariableId × NDArray α)).forM fun (v, x) => setData v x) w =
        (.ok (), w) := rfl
    rw [counted, List.zip_nil_right, outcome_bind_ok none, outcome_bind_eq_error] at failed
    replace failed := failed.resolve_right (by rintro ⟨x, w₁, -, ⟨⟩⟩)
    obtain ⟨-, rfl⟩ := outcome_ofFormat_error failed
    refine ⟨[], .nothing fun x rest opens => ?_⟩
    obtain ⟨r₁, r₂, opened', counted', -⟩ := ModelFile.opens_iff.1 opens
    obtain ⟨-, rfl⟩ := Prod.mk.inj (Except.ok.inj (opened.symm.trans opened'))
    cases counted.symm.trans counted'
  | ok u =>
    obtain ⟨u, r⟩ := u
    obtain ⟨rest, ends⟩ := Reader.parametersFrom_ends (α := α)
      (t.parameters.map fun v => ⟨(w.var v).name, w.shapeOf v⟩) 0 r
    rw [counted] at failed
    dsimp only at failed
    generalize Reader.parametersFrom (α := α) 0 _ r = p at failed ends
    rcases outcome_setAll_cases (t.parameters.zip p.arrays) w with
      all | ⟨done, q, later, e', split, refused, run⟩
    · rw [outcome_bind_ok all, outcome_bind_eq_error] at failed
      replace failed := failed.resolve_right (by rintro ⟨x, w₁, -, ⟨⟩⟩)
      obtain ⟨broken, rfl⟩ := outcome_ofFormat_error failed
      exact ⟨_, .of_reading opened counted ends (broken rest)⟩
    · rw [outcome_bind_error run] at failed
      obtain ⟨-, rfl⟩ := Prod.mk.inj failed
      exact ⟨_, .of_filling opened counted ends split refused⟩

/-- A load into a model that fails has filled the parameters whose records are whole, up to the
first that is not, and nothing else. -/
theorem loadModel_error {e : TensorError}
    (failed : outcome (loadModel bytes (some t)) w = (.error e, w')) :
    ∃ xs, FailsBehind w bytes t xs w' := by
  rw [loadModel_eq, map_eq_pure_bind, outcome_bind_eq_error] at failed
  replace failed := failed.resolve_right (by rintro ⟨x, w₁, -, ⟨⟩⟩)
  rw [loadModelRest, outcome_bind_eq_error] at failed
  rcases failed with failed | ⟨⟨c, front⟩, w₁, read, failed⟩
  · obtain ⟨broken, rfl⟩ := outcome_ofFormat_error failed
    refine ⟨[], .nothing fun x rest opens => ?_⟩
    obtain ⟨r₁, r₂, opened, -⟩ := ModelFile.opens_iff.1 opens
    exact broken _ opened
  obtain ⟨opened, rfl⟩ := outcome_ofFormat_eq_ok.1 read
  have aimed := outcome_target_some (w := w) (t := t) (c := c)
  dsimp only at failed
  split_ifs at aimed with same
  · rw [outcome_bind_ok aimed, outcome_bind_ok (outcome_expected _)] at failed
    exact fillParameters_error (same ▸ opened) failed
  · rw [outcome_bind_error aimed] at failed
    obtain ⟨-, rfl⟩ := Prod.mk.inj failed
    refine ⟨[], .nothing fun x rest opens => ?_⟩
    obtain ⟨r₁, r₂, opened', -⟩ := ModelFile.opens_iff.1 opens
    obtain ⟨rfl, -⟩ := Prod.mk.inj (Except.ok.inj (opened.symm.trans opened'))
    exact same rfl

def cutFile : List UInt8 :=
  (ModelFile.model leastModel.config (leastArrays fun i => .ofNat i)).bytes.take 60

theorem loadModel_error_cutFile :
    ∃ e w' xs, outcome (loadModel cutFile (some leastModel)) leastWorkspace = (.error e, w') ∧
      FailsBehind leastWorkspace cutFile leastModel xs w' := by
  have fails : (outcome (loadModel cutFile (some leastModel)) leastWorkspace).1.isOk = false := by
    decide +kernel
  rcases run : outcome (loadModel cutFile (some leastModel)) leastWorkspace with ⟨e | t, w'⟩
  · obtain ⟨xs, behind⟩ := loadModel_error run
    exact ⟨e, w', xs, rfl, behind⟩
  · rw [run] at fails
    cases fails

/-- The load fails, and the first parameter is not what it was. -/
theorem loadModel_error_fills :
    (outcome (loadModel cutFile (some leastModel)) leastWorkspace).1.isOk = false ∧
    (leastWorkspace.valueOf ⟨0⟩).toList = [⟨0x7ff0000000000123⟩] ∧
    ((outcome (loadModel cutFile (some leastModel)) leastWorkspace).2.valueOf ⟨0⟩).toList =
      [⟨0⟩] := by
  decide +kernel

end Session

end DerivativeEngine
