import DerivativeEngine.Proofs.Workspace.Sound
import Mathlib.Data.List.Forall2

/-! What is made in a workspace. New tensors, variables and records come after those that are there,
which stay as they are. Blocks come from the arena of the context in use, in the generation of the
moment, so a gradient made after its tensor can be read as long as the tensor can. Making tensors
and variables never fails and keeps a workspace sound. -/

namespace DerivativeEngine

variable {α : Type}

/-- A tensor of these contents, made where it was asked for. -/
structure Workspace.Made (w : Workspace α) (x : NDArray α) (home : Option ContextId)
    (t : Tensor α) : Prop where
  shape : t.shape = x.shape
  value : t.value = some x
  home : t.place.map Place.context = home
  valid : w.Valid t

namespace Workspace

variable {w w' : Workspace α} {c : ContextId} {x : NDArray α} {home : Option ContextId}
  {t : Tensor α}

theorem Made.sound (h : w.Made x home t) (here : home = none ∨ home = some c) : t.Sound w c where
  filled := ⟨x, h.value, h.shape.symm⟩
  placed p hp := by
    have place := h.home
    rw [hp, Option.map_some] at place
    have same : p.context = c := by
      rcases here with rfl | rfl
      · cases place
      · exact Option.some.inj place
    have now : p.block.generation = w.generation c := same ▸ h.valid p hp
    exact ⟨same, Nat.le_of_eq now⟩

theorem Made.extend (h : w.Made x home t) (grown : w.Extends w') : w'.Made x home t :=
  ⟨h.shape, h.value, h.home, grown.valid.2 h.valid⟩

theorem Made.outlasts (h : w.Made x home t) {u : Tensor α} (sound : u.Sound w c)
    (here : home = none ∨ home = some c ∧ u.place.isSome = true) : t.Outlasts u := by
  intro q hq
  have place := h.home
  rw [hq, Option.map_some] at place
  rcases here with rfl | ⟨rfl, placed⟩
  · cases place
  · obtain ⟨p, hp⟩ := Option.isSome_iff_exists.1 placed
    obtain ⟨-, bound⟩ := sound.placed p hp
    have same : q.context = c := Option.some.inj place
    refine ⟨p, hp, ?_⟩
    rw [h.valid q hq, same]
    exact bound

theorem made_values {xs : List (NDArray α)} {ts : List (Tensor α)}
    (h : List.Forall₂ (fun x t => w.Made x home t) xs ts) :
    ts.map Tensor.value = xs.map some := by
  induction h with
  | nil => rfl
  | cons first _ rest => rw [List.map_cons, List.map_cons, first.value, rest]

theorem made_of_mem {xs : List (NDArray α)} {ts : List (Tensor α)}
    (h : List.Forall₂ (fun x t => w.Made x home t) xs ts) :
    ∀ t ∈ ts, ∃ x, w.Made x home t := by
  induction h with
  | nil => simp
  | cons first _ rest => exact List.forall_mem_cons.2 ⟨⟨_, first⟩, rest⟩

/-- The same but for the memory of arenas and for what is new: these tensors, these variables, and
these records on the tape of the context. -/
structure Pushes (w w' : Workspace α) (c : ContextId) (ts : List (Tensor α))
    (ys : List (Variable α)) (rs : List (TapeRecord α)) : Prop where
  tensors : w'.tensors.toList = w.tensors.toList ++ ts
  vars : w'.vars.toList = w.vars.toList ++ ys
  tape : w'.tape c = w.tape c ++ rs
  current : w'.current = w.current
  contexts : w'.contexts.size = w.contexts.size
  generation : ∀ d, w'.generation d = w.generation d
  optimizers : w'.optimizers = w.optimizers

theorem Rearranged.pushes (h : w.Rearranged w') (c : ContextId) : w.Pushes w' c [] [] [] where
  tensors := by rw [h.tensors, List.append_nil]
  vars := by rw [h.vars, List.append_nil]
  tape := by rw [h.tape, List.append_nil]
  current := h.current
  contexts := h.contexts
  generation := h.generation
  optimizers := h.optimizers

theorem pushes_tensor (w : Workspace α) (c : ContextId) (t : Tensor α) :
    w.Pushes { w with tensors := w.tensors.push t } c [t] [] [] where
  tensors := Array.toList_push
  vars := (List.append_nil _).symm
  tape := (List.append_nil _).symm
  current := rfl
  contexts := rfl
  generation _ := rfl
  optimizers := rfl

theorem pushes_variable (w : Workspace α) (c : ContextId) (y : Variable α) :
    w.Pushes { w with vars := w.vars.push y } c [] [y] [] where
  tensors := (List.append_nil _).symm
  vars := Array.toList_push
  tape := (List.append_nil _).symm
  current := rfl
  contexts := rfl
  generation _ := rfl
  optimizers := rfl

theorem pushes_record (w : Workspace α) {c : ContextId} (known : c.index < w.contexts.size)
    (r : TapeRecord α) : w.Pushes (w.modifyContext c fun k => k.record r) c [] [] [r] where
  tensors := (List.append_nil _).symm
  vars := (List.append_nil _).symm
  tape := w.tape_record known r
  current := rfl
  contexts := Array.size_modify
  generation := (w.extends_record c r).generation
  optimizers := rfl

namespace Pushes

variable {w'' : Workspace α} {ts ts' : List (Tensor α)} {ys ys' : List (Variable α)}
  {rs rs' : List (TapeRecord α)} {y : Variable α}

theorem trans (h : w.Pushes w' c ts ys rs) (h' : w'.Pushes w'' c ts' ys' rs') :
    w.Pushes w'' c (ts ++ ts') (ys ++ ys') (rs ++ rs') where
  tensors := by rw [h'.tensors, h.tensors, List.append_assoc]
  vars := by rw [h'.vars, h.vars, List.append_assoc]
  tape := by rw [h'.tape, h.tape, List.append_assoc]
  current := h'.current.trans h.current
  contexts := h'.contexts.trans h.contexts
  generation d := (h'.generation d).trans (h.generation d)
  optimizers := h'.optimizers.trans h.optimizers

theorem size_tensors (h : w.Pushes w' c ts ys rs) :
    w'.tensors.size = w.tensors.size + ts.length := by
  rw [← Array.length_toList, h.tensors, List.length_append, Array.length_toList]

theorem size_vars (h : w.Pushes w' c ts ys rs) : w'.vars.size = w.vars.size + ys.length := by
  rw [← Array.length_toList, h.vars, List.length_append, Array.length_toList]

theorem getElem?_tensors (h : w.Pushes w' c ts ys rs) (i : Nat) :
    w'.tensors[i]? = if i < w.tensors.size then w.tensors[i]? else ts[i - w.tensors.size]? := by
  rw [← Array.getElem?_toList, h.tensors, List.getElem?_append]
  simp

theorem getElem?_vars (h : w.Pushes w' c ts ys rs) (i : Nat) :
    w'.vars[i]? = if i < w.vars.size then w.vars[i]? else ys[i - w.vars.size]? := by
  rw [← Array.getElem?_toList, h.vars, List.getElem?_append]
  simp

theorem tensor_old (h : w.Pushes w' c ts ys rs) {u : TensorId} (old : u.index < w.tensors.size) :
    w'.tensor u = w.tensor u := by
  rw [Workspace.tensor, Workspace.tensor, Array.getD_eq_getD_getElem?,
    Array.getD_eq_getD_getElem?, h.getElem?_tensors, if_pos old]

theorem var_old (h : w.Pushes w' c ts ys rs) {v : VariableId} (old : v.index < w.vars.size) :
    w'.var v = w.var v := by
  rw [Workspace.var, Workspace.var, Array.getD_eq_getD_getElem?, Array.getD_eq_getD_getElem?,
    h.getElem?_vars, if_pos old]

theorem tensor_new (h : w.Pushes w' c (t :: ts) ys rs) : w'.tensor ⟨w.tensors.size⟩ = t := by
  rw [Workspace.tensor, Array.getD_eq_getD_getElem?, h.getElem?_tensors]
  simp

theorem var_new (h : w.Pushes w' c ts (y :: ys) rs) : w'.var ⟨w.vars.size⟩ = y := by
  rw [Workspace.var, Array.getD_eq_getD_getElem?, h.getElem?_vars]
  simp

theorem tensor_cases (h : w.Pushes w' c ts ys rs) {u : TensorId}
    (known : u.index < w'.tensors.size) : u.index < w.tensors.size ∨ w'.tensor u ∈ ts := by
  by_cases old : u.index < w.tensors.size
  · exact .inl old
  · rw [h.size_tensors] at known
    have new : u.index - w.tensors.size < ts.length := by omega
    rw [Workspace.tensor, Array.getD_eq_getD_getElem?, h.getElem?_tensors, if_neg old,
      List.getElem?_eq_getElem new]
    exact .inr (List.getElem_mem new)

theorem var_cases (h : w.Pushes w' c ts ys rs) {v : VariableId}
    (known : v.index < w'.vars.size) : v.index < w.vars.size ∨ w'.var v ∈ ys := by
  by_cases old : v.index < w.vars.size
  · exact .inl old
  · rw [h.size_vars] at known
    have new : v.index - w.vars.size < ys.length := by omega
    rw [Workspace.var, Array.getD_eq_getD_getElem?, h.getElem?_vars, if_neg old,
      List.getElem?_eq_getElem new]
    exact .inr (List.getElem_mem new)

theorem grown (h : w.Pushes w' c ts ys rs) : w.Extends w' where
  generation := h.generation
  tensors := by
    rw [h.size_tensors]
    exact Nat.le_add_right _ _
  vars := by
    rw [h.size_vars]
    exact Nat.le_add_right _ _
  tensor u hu := by
    rw [h.tensor_old hu]
    exact ⟨rfl, rfl⟩
  data v hv := by rw [h.var_old hv]

theorem sound [Scalar α] (h : w.Pushes w' c ts ys rs) (s : w.Sound c)
    (tensors : ∀ t ∈ ts, t.Sound w' c) (vars : ∀ y ∈ ys, y.Sound w' c)
    (records : ∀ r ∈ rs, r.Sound w')
    (ordered : (w.tape c ++ rs).Pairwise fun r q => r.output.index < q.output.index) :
    w'.Sound c where
  current := h.current.trans s.current
  known := h.contexts ▸ s.known
  tensors u hu := by
    rcases h.tensor_cases hu with old | new
    · rw [h.tensor_old old]
      exact h.grown.tensor_sound (s.tensors u old)
    · exact tensors _ new
  vars v hv := by
    rcases h.var_cases hv with old | new
    · rw [h.var_old old]
      exact h.grown.variable_sound (s.vars v old)
    · exact vars _ new
  tape r hr := by
    rw [h.tape] at hr
    rcases List.mem_append.1 hr with old | new
    · exact h.grown.record_sound s (s.tape r old)
    · exact records r new
  ordered := by
    rw [h.tape]
    exact ordered

end Pushes

structure Fresh [Zero α] (w : Workspace α) (v : VariableId) (x : NDArray α)
    (home : Option ContextId) : Prop where
  known : v.index < w.vars.size
  there : (w.var v).data.index < w.tensors.size
  data : w.Made x home (w.tensor (w.var v).data)
  asked : (w.var v).grad.isSome = (w.var v).requiresGrad
  grad : ∀ g ∈ (w.var v).grad, w.Made (.fill x.shape 0) home g

theorem Fresh.extend [Zero α] {v : VariableId} (h : w.Fresh v x home)
    {ys : List (Variable α)} {ts : List (Tensor α)} {rs : List (TapeRecord α)}
    (later : w.Pushes w' c ts ys rs) : w'.Fresh v x home := by
  have same := later.var_old h.known
  have tensor := later.tensor_old h.there
  exact
    { known := Nat.lt_of_lt_of_le h.known later.grown.vars
      there := by
        rw [same]
        exact Nat.lt_of_lt_of_le h.there later.grown.tensors
      data := by
        rw [same, tensor]
        exact h.data.extend later.grown
      asked := by rw [same, h.asked]
      grad := by
        rw [same]
        exact fun g hg => (h.grad g hg).extend later.grown }

theorem Fresh.valueOf [Zero α] {v : VariableId} (h : w.Fresh v x home) : w.valueOf v = x := by
  rw [Workspace.valueOf, h.data.value]
  rfl

theorem Fresh.sound [Zero α] {v : VariableId} (h : w.Fresh v x home)
    (here : home = none ∨ home = some c) : (w.var v).Sound w c := by
  have data := h.data.sound here
  exact
    { known := h.there
      asked := by
        intro unasked
        have none := h.asked
        rw [unasked] at none
        simpa using none
      grad := by
        intro g hg
        have made := h.grad g hg
        refine ⟨made.sound here, made.shape.trans h.data.shape.symm, made.outlasts data ?_⟩
        rcases here with rfl | rfl
        · exact .inl rfl
        · refine .inr ⟨rfl, ?_⟩
          rw [← Option.isSome_map, h.data.home]
          rfl }

end Workspace

namespace Session

variable {w : Workspace α} {c : ContextId}

theorem generation_reserve (a : Arena) (n : Nat) :
    (a.reserve n).2.generation = a.generation ∧ (a.reserve n).1.generation = a.generation := by
  unfold Arena.reserve
  dsimp only
  split <;> exact ⟨rfl, rfl⟩

theorem outcome_reserve (c : ContextId) (n : Nat) (w : Workspace α) :
    ∃ w', outcome (reserve c n) w = (.ok ((w.context c).arena.reserve (8 * n)).1, w') ∧
      w.Rearranged w' := by
  refine ⟨_, rfl, ?_⟩
  have arena : ∀ d, ((w.modifyContext c fun k =>
      { k with arena := ((w.context c).arena.reserve (8 * n)).2 }).context d).tape =
        (w.context d).tape ∧
      ((w.modifyContext c fun k =>
        { k with arena := ((w.context c).arena.reserve (8 * n)).2 }).context d).arena.generation =
        (w.context d).arena.generation := by
    intro d
    rw [Workspace.context_modifyContext]
    split
    · next same =>
      rw [same.1]
      exact ⟨rfl, (generation_reserve _ _).1⟩
    · exact ⟨rfl, rfl⟩
  exact
    { tensors := rfl
      vars := rfl
      current := rfl
      contexts := Array.size_modify
      tape := fun d => congrArg Array.toList (arena d).1
      generation := fun d => (arena d).2
      optimizers := rfl }

theorem outcome_wrap (x : NDArray α) (home : Option ContextId) (w : Workspace α) :
    ∃ t w', outcome (wrap x home) w = (.ok t, w') ∧ w.Rearranged w' ∧ w'.Made x home t := by
  cases home with
  | none =>
    refine ⟨⟨x.shape, some x, none⟩, w, rfl, .refl w, rfl, rfl, rfl, ?_⟩
    intro p hp
    cases hp
  | some c =>
    obtain ⟨w', reserved, rearranged⟩ := outcome_reserve c x.size w
    refine ⟨⟨x.shape, some x, some ⟨c, ((w.context c).arena.reserve (8 * x.size)).1⟩⟩, w',
      outcome_bind_ok reserved _, rearranged, rfl, rfl, rfl, ?_⟩
    rw [rearranged.grown.valid]
    intro p hp
    obtain rfl := Option.mem_some.1 hp
    exact (generation_reserve _ _).2

theorem outcome_mapM_wrap (xs : List (NDArray α)) (c : ContextId) (w : Workspace α) :
    ∃ ts w', outcome (xs.mapM fun x => wrap x (some c)) w = (.ok ts, w') ∧ w.Rearranged w' ∧
      List.Forall₂ (fun x t => w'.Made x (some c) t) xs ts := by
  induction xs generalizing w with
  | nil => exact ⟨[], w, rfl, .refl w, .nil⟩
  | cons x xs ih =>
    obtain ⟨t, w₁, wrapped, first, made⟩ := outcome_wrap x (some c) w
    obtain ⟨ts, w₂, others, rest, all⟩ := ih w₁
    refine ⟨t :: ts, w₂, ?_, first.trans rest, .cons (made.extend rest.grown) all⟩
    rw [List.mapM_cons, outcome_bind_ok wrapped, outcome_bind_ok others]
    rfl

theorem outcome_anyM {p : VariableId → Session α Bool} {q : VariableId → Bool}
    (reads : ∀ v, outcome (p v) w = (.ok (q v), w)) (vs : List VariableId) :
    outcome (vs.anyM p) w = (.ok (vs.any q), w) := by
  induction vs with
  | nil => rfl
  | cons v vs ih =>
    rw [List.anyM, outcome_bind_ok (reads v), List.any_cons]
    cases q v with
    | true => rfl
    | false => exact ih

theorem outcome_make (x : NDArray α) (home : Option ContextId) (c : ContextId)
    (w : Workspace α) :
    ∃ t w', outcome (make x home) w = (.ok ⟨w.tensors.size⟩, w') ∧ w.Pushes w' c [t] [] [] ∧
      w'.Made x home t := by
  obtain ⟨t, w₁, wrapped, rearranged, made⟩ := outcome_wrap x home w
  have pushed : outcome (newTensor t) w₁ =
      (.ok ⟨w₁.tensors.size⟩, { w₁ with tensors := w₁.tensors.push t }) := rfl
  rw [rearranged.tensors] at pushed
  refine ⟨t, _, (outcome_bind_ok wrapped _).trans pushed, ?_, ?_⟩
  · rw [← rearranged.tensors]
    exact (rearranged.pushes c).trans (w₁.pushes_tensor c t)
  · rw [← rearranged.tensors]
    exact made.extend (w₁.pushes_tensor c t).grown

theorem outcome_clone {t : TensorId} {x : NDArray α} (read : w.read (w.tensor t) = .ok x)
    (home : Option ContextId) : outcome (clone t home) w = outcome (make x home) w := by
  have there : outcome (readTensor t) w = (failAs .lifetime (w.read (w.tensor t)), w) := rfl
  rw [read] at there
  exact outcome_bind_ok there _

theorem outcome_clone_error {t : TensorId} {e : LifetimeError}
    (read : w.read (w.tensor t) = .error e) (home : Option ContextId) :
    outcome (clone t home) w = (.error (.lifetime e), w) := by
  have failed : outcome (readTensor t) w = (failAs .lifetime (w.read (w.tensor t)), w) := rfl
  rw [read] at failed
  exact outcome_bind_error failed _

variable [Scalar α]

theorem outcome_variableOn (d : TensorId) (requiresGrad isParameter : Bool) (name : String)
    (home : Option ContextId) (c : ContextId) (w : Workspace α) :
    ∃ grad w', outcome (variableOn d requiresGrad isParameter name home) w =
        (.ok ⟨w.vars.size⟩, w') ∧
      w.Pushes w' c [] [⟨d, grad, requiresGrad, isParameter, name⟩] [] ∧
      grad.isSome = requiresGrad ∧ ∀ g ∈ grad, w'.Made (.fill (w.tensor d).shape 0) home g := by
  have gradient : ∃ grad w₁, outcome (if requiresGrad then
        some <$> wrap (.fill (w.tensor d).shape 0) home else pure none) w = (.ok grad, w₁) ∧
      w.Rearranged w₁ ∧ grad.isSome = requiresGrad ∧
      ∀ g ∈ grad, w₁.Made (.fill (w.tensor d).shape 0) home g := by
    cases requiresGrad with
    | false =>
      refine ⟨none, w, rfl, .refl w, rfl, ?_⟩
      intro g hg
      cases hg
    | true =>
      obtain ⟨t, w₁, wrapped, rearranged, made⟩ :=
        outcome_wrap (.fill (w.tensor d).shape 0) home w
      refine ⟨some t, w₁, outcome_map_ok wrapped some, rearranged, rfl, ?_⟩
      intro g hg
      obtain rfl := Option.mem_some.1 hg
      exact made
  obtain ⟨grad, w₁, asked, rearranged, isSome, made⟩ := gradient
  have run : outcome (variableOn d requiresGrad isParameter name home) w =
      (.ok ⟨w₁.vars.size⟩,
        { w₁ with vars := w₁.vars.push ⟨d, grad, requiresGrad, isParameter, name⟩ }) := by
    unfold variableOn
    rw [outcome_bind_ok (outcome_tensor d)]
    cases requiresGrad with
    | false => exact outcome_bind_ok asked _
    | true => exact outcome_bind_ok asked _
  rw [rearranged.vars] at run
  refine ⟨grad, _, run, ?_, isSome, fun g hg => ?_⟩
  · rw [← rearranged.vars]
    exact (rearranged.pushes c).trans (w₁.pushes_variable c _)
  · rw [← rearranged.vars]
    exact (made g hg).extend (w₁.pushes_variable c _).grown

theorem outcome_variableOn_made {d : TensorId} {x : NDArray α} {home : Option ContextId}
    (there : d.index < w.tensors.size) (made : w.Made x home (w.tensor d))
    (requiresGrad isParameter : Bool) (name : String) (c : ContextId) :
    ∃ y w', outcome (variableOn d requiresGrad isParameter name home) w =
        (.ok ⟨w.vars.size⟩, w') ∧
      w.Pushes w' c [] [y] [] ∧ w'.Fresh ⟨w.vars.size⟩ x home ∧ y.data = d ∧
      y.requiresGrad = requiresGrad ∧ y.isParameter = isParameter := by
  obtain ⟨grad, w', run, pushes, isSome, zeros⟩ :=
    outcome_variableOn d requiresGrad isParameter name home c w
  refine ⟨_, w', run, pushes, ?_, rfl, rfl, rfl⟩
  have newest := pushes.var_new
  have size := pushes.size_vars
  exact
    { known := by
        rw [size]
        exact Nat.lt_succ_self _
      there := by
        rw [newest]
        exact Nat.lt_of_lt_of_le there pushes.grown.tensors
      data := by
        rw [newest, pushes.tensor_old there]
        exact made.extend pushes.grown
      asked := by
        rw [newest]
        exact isSome
      grad := by
        rw [newest]
        intro g hg
        rw [← made.shape]
        exact zeros g hg }

theorem outcome_output (x : NDArray α) (home : Option ContextId) (requiresGrad : Bool)
    (c : ContextId) (w : Workspace α) :
    ∃ t y w', outcome (do variableOn (← make x home) requiresGrad false "" home) w =
        (.ok ⟨w.vars.size⟩, w') ∧
      w.Pushes w' c [t] [y] [] ∧ w'.Fresh ⟨w.vars.size⟩ x home ∧ y.data = ⟨w.tensors.size⟩ ∧
      y.requiresGrad = requiresGrad ∧ y.isParameter = false := by
  obtain ⟨t, w₁, made, pushes₁, held⟩ := outcome_make x home c w
  have there : w.tensors.size < w₁.tensors.size := by
    rw [pushes₁.size_tensors]
    exact Nat.lt_succ_self _
  have newest := pushes₁.tensor_new
  obtain ⟨y, w₂, output, pushes₂, fresh, kind⟩ :=
    outcome_variableOn_made there (newest ▸ held) requiresGrad false "" c
  have same : w₁.vars.size = w.vars.size := pushes₁.size_vars
  rw [same] at output fresh
  exact ⟨t, y, w₂, (outcome_bind_ok made _).trans output, pushes₁.trans pushes₂, fresh, kind⟩

end Session

end DerivativeEngine
