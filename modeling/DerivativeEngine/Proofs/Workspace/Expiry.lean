import DerivativeEngine.Proofs.Workspace.Making
import DerivativeEngine.Scalar.Double

/-! How tensors stop being valid. A tensor in an arena is filled from the moment it is made, and the
generation of its block is never ahead of its arena: a reset leaves the block behind for good. A
persistent tensor is valid while it is filled, and every assignment of the right shape fills it,
also after it was freed. -/

namespace DerivativeEngine

variable {α : Type}

/-- What is done with tensors, and to the arenas that some of them live in. -/
inductive TensorAction (α : Type) where
  | make (x : NDArray α) (home : Option ContextId)
  | read (t : TensorId)
  | assign (t : TensorId) (x : NDArray α)
  | free (t : TensorId)
  | clone (t : TensorId) (home : Option ContextId)
  | reset (c : ContextId)
  | resetAggressive (c : ContextId)
  | destroy (c : ContextId)

namespace Workspace

variable {w w' w'' : Workspace α}

structure Ages (w w' : Workspace α) : Prop where
  generation : ∀ c, w.generation c ≤ w'.generation c
  tensors : w.tensors.size ≤ w'.tensors.size
  tensor : ∀ t : TensorId, t.index < w.tensors.size →
    (w'.tensor t).shape = (w.tensor t).shape ∧ (w'.tensor t).place = (w.tensor t).place

namespace Ages

theorem refl (w : Workspace α) : w.Ages w :=
  ⟨fun _ => Nat.le_refl _, Nat.le_refl _, fun _ _ => ⟨rfl, rfl⟩⟩

theorem trans (h : w.Ages w') (h' : w'.Ages w'') : w.Ages w'' where
  generation c := Nat.le_trans (h.generation c) (h'.generation c)
  tensors := Nat.le_trans h.tensors h'.tensors
  tensor t known := by
    obtain ⟨shape, place⟩ := h.tensor t known
    obtain ⟨shape', place'⟩ := h'.tensor t (Nat.lt_of_lt_of_le known h.tensors)
    exact ⟨shape'.trans shape, place'.trans place⟩

theorem of_extends (h : w.Extends w') : w.Ages w' where
  generation c := Nat.le_of_eq (h.generation c).symm
  tensors := h.tensors
  tensor := h.tensor

theorem of_setTensor (w : Workspace α) (t : TensorId) (value : Option (NDArray α)) :
    w.Ages (w.setTensor t { w.tensor t with value }) where
  generation _ := Nat.le_refl _
  tensors := Nat.le_of_eq Array.size_setIfInBounds.symm
  tensor u _ := by
    rw [tensor_setTensor]
    split
    · next same => rw [same.1]; exact ⟨rfl, rfl⟩
    · exact ⟨rfl, rfl⟩

theorem of_arena (w : Workspace α) (c : ContextId) {f : Arena → Arena} (said : Array String)
    (later : ∀ a : Arena, a.generation ≤ (f a).generation) :
    w.Ages { w.modifyContext c fun k => { k with arena := f (w.context c).arena } with said } where
  generation d := by
    change _ ≤ ((w.modifyContext c _).context d).arena.generation
    rw [context_modifyContext]
    split
    · next same => rw [same.1]; exact later _
    · exact Nat.le_refl _
  tensors := Nat.le_refl _
  tensor _ _ := ⟨rfl, rfl⟩

end Ages

theorem isValid_eq_true {t : Tensor α} :
    w.isValid t = true ↔ t.value.isSome = true ∧ w.Valid t := by
  unfold isValid Valid generation
  cases t.place <;> simp [Arena.isValid]

theorem isValid_of_persistent {t : Tensor α} (persistent : t.place = none) :
    w.isValid t = t.value.isSome := by
  simp [isValid, persistent]

theorem valid_of_persistent {t : Tensor α} (persistent : t.place = none) : w.Valid t := by
  simp [Valid, persistent]

structure Placed (w : Workspace α) (t : Tensor α) (p : Place) : Prop where
  place : t.place = some p
  filled : t.value.isSome = true
  past : p.block.generation ≤ w.generation p.context

theorem Placed.isValid_eq_false {t : Tensor α} {p : Place} (h : w.Placed t p) :
    w.isValid t = false ↔ p.block.generation < w.generation p.context := by
  have past := h.past
  rw [← Bool.not_eq_true, isValid_eq_true]
  simp only [h.filled, Valid, h.place, Option.mem_def, Option.some.injEq, forall_eq', true_and]
  omega

theorem Placed.isValid_later {t t' : Tensor α} {p : Place} (h : w.Placed t p) (h' : w'.Placed t' p)
    (ages : w.Ages w') (invalid : w.isValid t = false) : w'.isValid t' = false := by
  rw [h.isValid_eq_false] at invalid
  exact h'.isValid_eq_false.2 (Nat.lt_of_lt_of_le invalid (ages.generation p.context))

end Workspace

namespace Session

variable {w : Workspace α} {t : TensorId} {x : NDArray α}

theorem outcome_assign_fits (same : x.shape = (w.tensor t).shape) (valid : w.Valid (w.tensor t)) :
    outcome (assign t x) w = (.ok (), w.setTensor t { w.tensor t with value := some x }) := by
  have assigned := Workspace.assigned_eq_ok.2 ⟨same, valid, rfl⟩
  rw [assign, outcome_bind_ok (outcome_tensor t), outcome_bind_ok outcome_get, assigned]
  rfl

theorem outcome_assign_shape (other : x.shape ≠ (w.tensor t).shape) :
    outcome (assign t x) w = (.error (.shape (.assignment x.shape (w.tensor t).shape)), w) := by
  have refused : w.assigned (w.tensor t) x =
      .error (.shape (.assignment x.shape (w.tensor t).shape)) := if_pos (by simpa using other)
  rw [assign, outcome_bind_ok (outcome_tensor t), outcome_bind_ok outcome_get, refused]
  rfl

theorem outcome_assign_stale (same : x.shape = (w.tensor t).shape)
    (stale : ¬ w.Valid (w.tensor t)) :
    ∃ e, outcome (assign t x) w = (.error (.lifetime e), w) := by
  cases check : w.checkPlace (w.tensor t) with
  | ok u => exact absurd (Workspace.checkPlace_eq_ok.1 check) stale
  | error e =>
    have refused : w.assigned (w.tensor t) x = .error (.lifetime e) := by
      rw [Workspace.assigned, if_neg (by simpa using same), check]
      rfl
    refine ⟨e, ?_⟩
    rw [assign, outcome_bind_ok (outcome_tensor t), outcome_bind_ok outcome_get, refused]
    rfl

theorem outcome_readTensor_invalid (invalid : w.isValid (w.tensor t) = false) :
    ∃ e, outcome (readTensor t) w = (.error (.lifetime e), w) := by
  have failed : outcome (readTensor t) w = (failAs .lifetime (w.read (w.tensor t)), w) := rfl
  cases read : w.read (w.tensor t) with
  | ok x =>
    obtain ⟨valid, value⟩ := Workspace.read_eq_ok.1 read
    rw [Workspace.isValid_eq_true.2 ⟨by rw [value]; rfl, valid⟩] at invalid
    cases invalid
  | error e => exact ⟨e, by rw [failed, read]; rfl⟩

end Session

namespace TensorAction

open Session Workspace

def run : TensorAction α → Session α Unit
  | make x home => discard (Session.make x home)
  | read t => discard (Session.readTensor t)
  | assign t x => Session.assign t x
  | free t => Session.free t
  | clone t home => discard (Session.clone t home)
  | reset c => Session.resetArena c
  | resetAggressive c => Session.resetArenaAggressive c
  | destroy c => Session.destroyArena c

/-- The workspace after the action, whether it failed or not. -/
def after (w : Workspace α) (a : TensorAction α) : Workspace α := (outcome a.run w).2

def afterAll (w : Workspace α) (as : List (TensorAction α)) : Workspace α := as.foldl after w

variable {w : Workspace α} {t : TensorId} {p : Place}

theorem after_read (w : Workspace α) (t : TensorId) : after w (read t) = w := by
  rw [after, run, outcome_discard]
  rfl

theorem pushes_make (x : NDArray α) (home : Option ContextId) (w : Workspace α) :
    ∃ s, w.Pushes (after w (make x home)) ⟨0⟩ [s] [] [] := by
  obtain ⟨s, w', made, pushes, -⟩ := outcome_make x home ⟨0⟩ w
  refine ⟨s, ?_⟩
  rw [after, run, outcome_discard, made]
  exact pushes

theorem after_clone (w : Workspace α) (t : TensorId) (home : Option ContextId) :
    (∃ x, after w (clone t home) = after w (make x home)) ∨ after w (clone t home) = w := by
  simp only [after, run, outcome_discard]
  cases read : w.read (w.tensor t) with
  | ok x => exact .inl ⟨x, by rw [outcome_clone read]⟩
  | error e => exact .inr (by rw [outcome_clone_error read])

theorem after_assign (w : Workspace α) (t : TensorId) (x : NDArray α) :
    after w (assign t x) = w.setTensor t { w.tensor t with value := some x } ∨
      after w (assign t x) = w := by
  unfold after run
  by_cases same : x.shape = (w.tensor t).shape
  · by_cases valid : w.Valid (w.tensor t)
    · exact .inl (by rw [outcome_assign_fits same valid])
    · obtain ⟨e, refused⟩ := outcome_assign_stale same valid
      exact .inr (by rw [refused])
  · exact .inr (by rw [outcome_assign_shape same])

theorem after_free (w : Workspace α) (t : TensorId) :
    after w (free t) =
      if (w.tensor t).isPersistent then w.setTensor t { w.tensor t with value := none } else w := by
  unfold after run
  cases persistent : (w.tensor t).isPersistent with
  | true => rw [outcome_free persistent]; rfl
  | false => rw [outcome_free_arena persistent]; rfl

theorem ages_after (w : Workspace α) (a : TensorAction α) : w.Ages (after w a) := by
  have make (x : NDArray α) (home : Option ContextId) : w.Ages (after w (make x home)) := by
    obtain ⟨s, pushes⟩ := pushes_make x home w
    exact .of_extends pushes.grown
  cases a with
  | make x home => exact make x home
  | read t =>
    rw [after_read]
    exact .refl w
  | assign t x =>
    rcases after_assign w t x with filled | refused
    · exact filled ▸ .of_setTensor w t (some x)
    · rw [refused]
      exact .refl w
  | free t =>
    rw [after_free]
    split
    · exact .of_setTensor w t none
    · exact .refl w
  | clone t home =>
    rcases after_clone w t home with ⟨x, made⟩ | failed
    · rw [made]
      exact make x home
    · rw [failed]
      exact .refl w
  | reset c => exact .of_arena w c _ fun a => Nat.le_succ a.generation
  | resetAggressive c => exact .of_arena w c _ fun a => Nat.le_succ a.generation
  | destroy c => exact .of_arena w c _ fun a => Nat.le_succ a.generation

theorem tensor_after (known : t.index < w.tensors.size) {a : TensorAction α}
    (unassigned : ∀ x, a ≠ assign t x) (kept : a ≠ free t) :
    (after w a).tensor t = w.tensor t := by
  have elsewhere {u : TensorId} (value : Option (NDArray α)) (other : u ≠ t) :
      (w.setTensor u { w.tensor u with value }).tensor t = w.tensor t := by
    rw [tensor_setTensor, if_neg fun here => other here.1.symm]
  have make (x : NDArray α) (home : Option ContextId) :
      (after w (make x home)).tensor t = w.tensor t := by
    obtain ⟨s, pushes⟩ := pushes_make x home w
    exact pushes.tensor_old known
  cases a with
  | make x home => exact make x home
  | read u => rw [after_read]
  | assign u x =>
    have other : u ≠ t := fun same => unassigned x (same ▸ rfl)
    rcases after_assign w u x with filled | refused
    · rw [filled, elsewhere _ other]
    · rw [refused]
  | free u =>
    have other : u ≠ t := fun same => kept (same ▸ rfl)
    rw [after_free]
    split
    · exact elsewhere _ other
    · rfl
  | clone u home =>
    rcases after_clone w u home with ⟨x, made⟩ | failed
    · rw [made]
      exact make x home
    · rw [failed]
  | reset c | resetAggressive c | destroy c => rfl

theorem placed_after (known : t.index < w.tensors.size) (placed : w.Placed (w.tensor t) p)
    (a : TensorAction α) : (after w a).Placed ((after w a).tensor t) p where
  place := ((ages_after w a).tensor t known).2.trans placed.place
  past := Nat.le_trans placed.past ((ages_after w a).generation _)
  filled := by
    have owned : (w.tensor t).isPersistent = false := by
      rw [Tensor.isPersistent, placed.place]
      rfl
    by_cases assigned : ∃ x, a = assign t x
    · obtain ⟨x, rfl⟩ := assigned
      rcases after_assign w t x with filled | refused
      · rw [filled, tensor_setTensor, if_pos ⟨rfl, known⟩]
        rfl
      · rw [refused]
        exact placed.filled
    · by_cases freed : a = free t
      · rw [freed, after_free, owned]
        exact placed.filled
      · rw [tensor_after known (fun x h => assigned ⟨x, h⟩) freed]
        exact placed.filled

theorem isValid_after (known : t.index < w.tensors.size) (persistent : (w.tensor t).place = none)
    (a : TensorAction α) : (after w a).isValid ((after w a).tensor t) = true ↔
      (∃ x, a = assign t x ∧ x.shape = (w.tensor t).shape) ∨
        w.isValid (w.tensor t) = true ∧ a ≠ free t := by
  have later := ((ages_after w a).tensor t known).2.trans persistent
  rw [isValid_of_persistent later, isValid_of_persistent persistent]
  by_cases assigned : ∃ x, a = assign t x
  · obtain ⟨x, rfl⟩ := assigned
    by_cases same : x.shape = (w.tensor t).shape
    · have fits := outcome_assign_fits same (valid_of_persistent persistent)
      simp [after, run, fits, tensor_setTensor, known, same]
    · simp [after, run, outcome_assign_shape same, same]
  · by_cases freed : a = free t
    · subst freed
      rw [after_free, Tensor.isPersistent, persistent]
      simp [tensor_setTensor, known]
    · rw [tensor_after known (fun x h => assigned ⟨x, h⟩) freed]
      have unassigned : ¬ ∃ x, a = assign t x ∧ x.shape = (w.tensor t).shape := fun ⟨x, h, _⟩ =>
        assigned ⟨x, h⟩
      simp [unassigned, freed]

theorem ages_afterAll (w : Workspace α) (as : List (TensorAction α)) : w.Ages (afterAll w as) := by
  induction as generalizing w with
  | nil => exact .refl w
  | cons a as ih => exact (ages_after w a).trans (ih (after w a))

theorem placed_afterAll (known : t.index < w.tensors.size) (placed : w.Placed (w.tensor t) p)
    (as : List (TensorAction α)) : (afterAll w as).Placed ((afterAll w as).tensor t) p := by
  induction as generalizing w with
  | nil => exact placed
  | cons a as ih =>
    exact ih (Nat.lt_of_lt_of_le known (ages_after w a).tensors) (placed_after known placed a)

/-- A persistent tensor is valid after a run if the run filled it and did not free it afterwards, or
if it was valid and never freed. -/
theorem isValid_afterAll (known : t.index < w.tensors.size)
    (persistent : (w.tensor t).place = none) (as : List (TensorAction α)) :
    (afterAll w as).isValid ((afterAll w as).tensor t) = true ↔
      (∃ bs y cs, as = bs ++ assign t y :: cs ∧ y.shape = (w.tensor t).shape ∧ free t ∉ cs) ∨
        w.isValid (w.tensor t) = true ∧ free t ∉ as := by
  induction as generalizing w with
  | nil => simp [afterAll]
  | cons a as ih =>
    have ages := ages_after w a
    obtain ⟨shape, place⟩ := ages.tensor t known
    change (afterAll (after w a) as).isValid ((afterAll (after w a) as).tensor t) = true ↔ _
    rw [ih (Nat.lt_of_lt_of_le known ages.tensors) (place.trans persistent), shape,
      isValid_after known persistent]
    constructor
    · rintro (⟨bs, y, cs, rfl, same, kept⟩ | ⟨⟨y, rfl, same⟩ | ⟨valid, other⟩, kept⟩)
      · exact .inl ⟨a :: bs, y, cs, rfl, same, kept⟩
      · exact .inl ⟨[], y, as, rfl, same, kept⟩
      · exact .inr ⟨valid, by simp [kept, Ne.symm other]⟩
    · rintro (⟨bs, y, cs, split, same, kept⟩ | ⟨valid, kept⟩)
      · rcases List.cons_eq_append_iff.1 split with ⟨-, first⟩ | ⟨bs, -, rest⟩
        · obtain ⟨rfl, rfl⟩ := List.cons.inj first
          exact .inr ⟨.inl ⟨y, rfl, same⟩, kept⟩
        · exact .inl ⟨bs, y, cs, rest, same, kept⟩
      · obtain ⟨other, kept⟩ : free t ≠ a ∧ free t ∉ as := by simpa using kept
        exact .inr ⟨.inr ⟨valid, other.symm⟩, kept⟩

/-- A tensor that was made and is not valid any more after some actions, and what becomes of it in
the actions after those. In an arena it is never valid again, and an assignment that would fit is
refused. A persistent one takes every assignment that fits, and is valid again exactly if one came
and the tensor was not freed after it. As long as it is not valid, reading fails; what fails, an
assignment of another shape among it, changes nothing. -/
theorem expired {w w₁ : Workspace α} {x : NDArray α} {home : Option ContextId} {t : TensorId}
    (made : outcome (Session.make x home) w = (.ok t, w₁)) (before later : List (TensorAction α))
    (invalid : (afterAll w₁ before).isValid ((afterAll w₁ before).tensor t) = false) :
    let w₂ := afterAll (afterAll w₁ before) later
    (home.isSome = true → w₂.isValid (w₂.tensor t) = false ∧
      ∀ y, y.shape = x.shape →
        ∃ e, outcome (Session.assign t y) w₂ = (.error (.lifetime e), w₂)) ∧
    (home = none →
      (w₂.isValid (w₂.tensor t) = true ↔
        ∃ bs y cs, later = bs ++ assign t y :: cs ∧ y.shape = x.shape ∧ free t ∉ cs) ∧
      ∀ y, y.shape = x.shape → outcome (Session.assign t y) w₂ =
        (.ok (), w₂.setTensor t { w₂.tensor t with value := some y })) ∧
    (w₂.isValid (w₂.tensor t) = false →
      ∃ e, outcome (Session.readTensor t) w₂ = (.error (.lifetime e), w₂)) ∧
    ∀ y, y.shape ≠ x.shape → outcome (Session.assign t y) w₂ =
      (.error (.shape (.assignment y.shape x.shape)), w₂) := by
  intro w₂
  obtain ⟨s, w₁', run, pushes, new⟩ := outcome_make x home ⟨0⟩ w
  rw [run] at made
  obtain ⟨rfl, rfl⟩ : (⟨w.tensors.size⟩ : TensorId) = t ∧ w₁' = w₁ := by simpa using made
  have known : w.tensors.size < w₁'.tensors.size := by
    rw [pushes.size_tensors]
    exact Nat.lt_succ_self _
  have holds : w₁'.tensor ⟨w.tensors.size⟩ = s := pushes.tensor_new
  generalize w.tensors.size = i at *
  have first := ages_afterAll w₁' before
  have known' := Nat.lt_of_lt_of_le known first.tensors
  have second := ages_afterAll (afterAll w₁' before) later
  obtain ⟨shape₁, place₁⟩ := first.tensor ⟨i⟩ known
  obtain ⟨shape₂, place₂⟩ := second.tensor ⟨i⟩ known'
  rw [holds] at shape₁ place₁
  have shape : (w₂.tensor ⟨i⟩).shape = x.shape := shape₂.trans (shape₁.trans new.shape)
  have place : (w₂.tensor ⟨i⟩).place = s.place := place₂.trans place₁
  refine ⟨fun arena => ?_, fun persistent => ?_, outcome_readTensor_invalid, fun y other => ?_⟩
  · obtain ⟨p, hp⟩ : ∃ p, s.place = some p := by
      rw [← Option.isSome_iff_exists, ← Option.isSome_map (f := Place.context), new.home, arena]
    have start : w₁'.Placed (w₁'.tensor ⟨i⟩) p := by
      rw [holds]
      exact ⟨hp, by rw [new.value]; rfl, Nat.le_of_eq (new.valid p hp)⟩
    have then₁ := placed_afterAll known start before
    have then₂ := placed_afterAll known' then₁ later
    have gone := then₁.isValid_later then₂ second invalid
    refine ⟨gone, fun y same => outcome_assign_stale (same.trans shape.symm) fun valid => ?_⟩
    rw [isValid_eq_true.2 ⟨then₂.filled, valid⟩] at gone
    cases gone
  · have none₁ : ((afterAll w₁' before).tensor ⟨i⟩).place = none :=
      place₁.trans (Option.map_eq_none_iff.1 (new.home.trans persistent))
    have none₂ : (w₂.tensor ⟨i⟩).place = none := place₂.trans none₁
    constructor
    · rw [isValid_afterAll known' none₁, shape₁, new.shape]
      simp [invalid]
    · exact fun y same =>
        outcome_assign_fits (same.trans shape.symm) (valid_of_persistent none₂)
  · rw [← shape] at other ⊢
    exact outcome_assign_shape other

def ones : Workspace Float :=
  (outcome (Session.make (.fill [2] 1) (some ⟨0⟩))
    (ofContext (.ofArena (.ofChunkSize 64) 10) fun _ => 0)).2

theorem expired_ones :
    let w₁ := afterAll ones [assign ⟨0⟩ (.fill [2] 3), reset ⟨0⟩]
    let w₂ := afterAll w₁ [clone ⟨0⟩ none, assign ⟨0⟩ (.fill [2] 3), resetAggressive ⟨0⟩]
    outcome (Session.make (.fill [2] 1) (some ⟨0⟩))
        (ofContext (.ofArena (.ofChunkSize 64) 10) fun _ => 0) = (.ok ⟨0⟩, ones) ∧
      w₁.isValid (w₁.tensor ⟨0⟩) = false ∧ w₂.isValid (w₂.tensor ⟨0⟩) = false ∧
      (∃ e, outcome (Session.readTensor ⟨0⟩) w₂ = (.error (.lifetime e), w₂)) ∧
      outcome (Session.assign ⟨0⟩ (.fill [3] 3)) w₂ =
        (.error (.shape (.assignment [3] [2])), w₂) := by
  intro w₁ w₂
  have made : outcome (Session.make (.fill [2] 1) (some ⟨0⟩))
      (ofContext (.ofArena (.ofChunkSize 64) 10) fun _ => 0) = (.ok ⟨0⟩, ones) := rfl
  have invalid : w₁.isValid (w₁.tensor ⟨0⟩) = false := rfl
  obtain ⟨arena, -, reading, shapes⟩ := expired made
    [assign ⟨0⟩ (.fill [2] 3), reset ⟨0⟩]
    [clone ⟨0⟩ none, assign ⟨0⟩ (.fill [2] 3), resetAggressive ⟨0⟩] invalid
  have gone := (arena rfl).1
  exact ⟨made, invalid, gone, reading gone, shapes (.fill [3] 3) (by decide)⟩

/-- An assignment to a tensor that was freed goes through, and the tensor is valid again. -/
theorem valid_of_assign_freed :
    let w := afterAll (outcome (Session.make (.fill [1] (1 : Float)) none)
      (empty fun _ => 0)).2 [free ⟨0⟩]
    let w' := after w (assign ⟨0⟩ (.fill [1] 2))
    w.isValid (w.tensor ⟨0⟩) = false ∧
      (outcome (Session.assign ⟨0⟩ (.fill [1] 2)) w).1 = .ok () ∧
      w'.isValid (w'.tensor ⟨0⟩) = true :=
  ⟨rfl, rfl, rfl⟩

end TensorAction

end DerivativeEngine
