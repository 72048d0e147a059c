import DerivativeEngine.Proofs.Workspace.Expiry
import DerivativeEngine.Proofs.Workspace.Ownership

/-! The count of a handle and the tensor it owns. Retaining and copying trees raise the count,
releasing lowers it by one, and the release that takes it to zero frees the tensor. Nothing that is
done to a handle fills its tensor again: one that is retained at zero is held, but what it is on is
gone. -/

namespace DerivativeEngine

variable {α : Type}

/-- What is done with a handle. -/
inductive HandleAction (α : Type) where
  | retain
  | release
  /-- A copy of a tree that may stand on the handle any number of times. -/
  | clone (e : Expr α)

namespace Workspace

def owned (w : Workspace α) (h : HandleId) : Tensor α := w.tensor (w.handle h).tensor

structure Bears (w : Workspace α) (h : HandleId) : Prop where
  known : h.index < w.handles.size
  there : (w.handle h).tensor.index < w.tensors.size
  persistent : (w.owned h).place = none

variable {w w' : Workspace α} {h : HandleId}

theorem Bears.isPersistent (b : w.Bears h) : (w.tensor (w.handle h).tensor).isPersistent = true :=
  congrArg Option.isNone b.persistent

theorem handle_lower (known : h.index < w.handles.size) :
    (w.lower h).handle h = { w.handle h with refcount := (w.handle h).refcount - 1 } := by
  rw [lower, handle_setHandle, if_pos ⟨rfl, known⟩]

structure Counts (w : Workspace α) (h : HandleId) (count : Nat) (t : Tensor α) : Prop where
  bears : w.Bears h
  count : (w.handle h).refcount = count
  owned : w.owned h = t

theorem Raised.counts {times : Nat → Nat} (r : w.Raised w' times) (b : w.Bears h) :
    w'.Counts h ((w.handle h).refcount + times h.index) (w.owned h) := by
  have handle := r.handle h b.known
  have owned : w'.owned h = w.owned h := by
    rw [Workspace.owned, handle, r.tensor]
    rfl
  have tensors : w'.tensors = w.tensors := congrArg (fun u => u.tensors) r.rest
  refine ⟨⟨r.size ▸ b.known, ?_, owned ▸ b.persistent⟩, by rw [handle], owned⟩
  rw [handle, tensors]
  exact b.there

theorem counts_lower (b : w.Bears h) :
    (w.lower h).Counts h ((w.handle h).refcount - 1) (w.owned h) := by
  have handle := handle_lower b.known
  have owned : (w.lower h).owned h = w.owned h := by
    rw [Workspace.owned, handle]
    rfl
  refine ⟨⟨?_, ?_, owned ▸ b.persistent⟩, by rw [handle], owned⟩
  · exact Array.size_setIfInBounds.symm ▸ b.known
  · rw [handle]
    exact b.there

theorem Counts.setTensor {n : Nat} {t : Tensor α} (c : w.Counts h n t)
    (value : Option (NDArray α)) :
    (w.setTensor (w.handle h).tensor { t with value }).Counts h n { t with value } := by
  obtain ⟨b, count, owned⟩ := c
  have there := b.there
  have now : (w.setTensor (w.handle h).tensor { t with value }).owned h = { t with value } := by
    rw [Workspace.owned, tensor_setTensor]
    exact if_pos ⟨rfl, there⟩
  refine ⟨⟨b.known, ?_, ?_⟩, count, now⟩
  · exact Array.size_setIfInBounds.symm ▸ there
  · rw [now]
    exact owned ▸ b.persistent

end Workspace

namespace HandleAction

open Session Workspace

/-- How often an action takes the handle. -/
def takes (h : HandleId) : HandleAction α → Nat
  | retain => 1
  | release => 0
  | clone e => e.occurrences h.index

def next (h : HandleId) (count : Nat) : HandleAction α → Nat
  | release => count - 1
  | a => count + a.takes h

def run (h : HandleId) : HandleAction α → Session α Unit
  | retain => Session.retain h
  | release => Session.release h
  | clone e => discard (Session.retainAll e.clone)

/-- The workspace after the action, whether it failed or not. -/
def after (h : HandleId) (w : Workspace α) (a : HandleAction α) : Workspace α :=
  (outcome (a.run h) w).2

def afterAll (h : HandleId) (w : Workspace α) (as : List (HandleAction α)) : Workspace α :=
  as.foldl (after h) w

variable {w : Workspace α} {h : HandleId}

def frees (count : Nat) : HandleAction α → Bool
  | release => count == 1
  | _ => false

theorem counts_after (b : w.Bears h) (a : HandleAction α) :
    (after h w a).Counts h (a.next h (w.handle h).refcount)
      (if a.frees (w.handle h).refcount then { w.owned h with value := none } else w.owned h) := by
  cases a with
  | retain =>
    obtain ⟨w', run, raised⟩ := raised_retain h w
    have last : after h w retain = w' := congrArg Prod.snd run
    have counts := raised.counts b
    rw [if_pos rfl] at counts
    exact last ▸ counts
  | clone e =>
    obtain ⟨w', run, raised⟩ := raised_retainAll e.clone w
    have last : after h w (clone e) = w' := by
      rw [after, HandleAction.run, outcome_discard, run]
    have counts := raised.counts b
    rw [Expr.count_clone] at counts
    exact last ▸ counts
  | release =>
    rcases Nat.eq_zero_or_pos (w.handle h).refcount with spent | held
    · have last : after h w release = w := congrArg Prod.snd (outcome_release_spent spent)
      rw [last, spent]
      exact ⟨b, spent, rfl⟩
    · have last := congrArg Prod.snd (outcome_release held b.isPersistent)
      have lowered := counts_lower b
      have same : ((w.lower h).handle h).tensor = (w.handle h).tensor := by
        rw [handle_lower b.known]
      rw [after, HandleAction.run, last]
      by_cases one : (w.handle h).refcount = 1
      · have emptied := lowered.setTensor none
        rw [same] at emptied
        rw [if_pos one, if_pos (by simp [frees, one])]
        exact emptied
      · rw [if_neg one, if_neg (by simp [frees, one])]
        exact lowered

theorem isValid_after (b : w.Bears h) (a : HandleAction α) :
    (after h w a).isValid ((after h w a).owned h) =
      (w.isValid (w.owned h) && !a.frees (w.handle h).refcount) := by
  obtain ⟨bears, -, owned⟩ := counts_after b a
  rw [isValid_of_persistent bears.persistent, isValid_of_persistent b.persistent, owned]
  cases a.frees (w.handle h).refcount <;> simp

theorem bears_afterAll (b : w.Bears h) (as : List (HandleAction α)) :
    (afterAll h w as).Bears h := by
  induction as generalizing w with
  | nil => exact b
  | cons a as ih => exact ih (counts_after b a).bears

theorem refcount_afterAll (b : w.Bears h) (as : List (HandleAction α)) :
    ((afterAll h w as).handle h).refcount =
      as.foldl (fun n a => a.next h n) (w.handle h).refcount := by
  induction as generalizing w with
  | nil => rfl
  | cons a as ih =>
    obtain ⟨bears, count, -⟩ := counts_after b a
    rw [List.foldl_cons, ← count]
    exact ih bears

theorem invalid_afterAll (b : w.Bears h) (invalid : w.isValid (w.owned h) = false)
    (as : List (HandleAction α)) :
    (afterAll h w as).isValid ((afterAll h w as).owned h) = false := by
  induction as generalizing w with
  | nil => exact invalid
  | cons a as ih =>
    refine ih (counts_after b a).bears ?_
    rw [isValid_after b, invalid, Bool.false_and]

theorem frees_eq_true_iff {count : Nat} (held : 0 < count) (a : HandleAction α) :
    a.frees count = true ↔ a.next h count = 0 := by
  cases a with
  | retain | clone e => simp [frees, next, takes, Nat.ne_of_gt held]
  | release =>
    simp only [frees, next, beq_iff_eq]
    omega

theorem isValid_afterAll (b : w.Bears h) (valid : w.isValid (w.owned h) = true)
    (held : 0 < (w.handle h).refcount) (as : List (HandleAction α)) :
    (afterAll h w as).isValid ((afterAll h w as).owned h) = true ↔
      ∀ bs, bs <+: as → 0 < ((afterAll h w bs).handle h).refcount := by
  induction as generalizing w with
  | nil =>
    simp only [List.prefix_nil, forall_eq]
    exact iff_of_true valid held
  | cons a as ih =>
    obtain ⟨bears, count, -⟩ := counts_after b a
    have kept := isValid_after b a
    rw [valid, Bool.true_and] at kept
    rcases Nat.eq_zero_or_pos (a.next h (w.handle h).refcount) with zero | positive
    · -- The tensor is freed here, and this prefix shows it.
      rw [(frees_eq_true_iff held a).2 zero] at kept
      have gone := invalid_afterAll bears kept as
      refine iff_of_false (Bool.eq_false_iff.1 gone) fun all => ?_
      have here := all [a] (by simp)
      change 0 < ((after h w a).handle h).refcount at here
      omega
    · have unfreed : a.frees (w.handle h).refcount = false := by
        rw [← Bool.not_eq_true, frees_eq_true_iff held (h := h)]
        omega
      rw [unfreed] at kept
      rw [afterAll, List.foldl_cons, ← afterAll, ih bears kept (count ▸ positive)]
      refine ⟨fun all bs before => ?_, fun all bs before => ?_⟩
      · rcases List.prefix_cons_iff.1 before with rfl | ⟨cs, rfl, inner⟩
        · exact held
        · exact all cs inner
      · exact all (a :: bs) (List.prefix_cons_iff.2 (.inr ⟨bs, rfl, before⟩))

theorem refcount_eq_zero {as : List (HandleAction α)} (b : w.Bears h)
    (untaken : ∀ bs a cs, as = bs ++ a :: cs →
      ((afterAll h w bs).handle h).refcount = 0 → a.takes h = 0)
    {bs cs : List (HandleAction α)} (split : as = bs ++ cs)
    (zero : ((afterAll h w bs).handle h).refcount = 0) :
    ((afterAll h w as).handle h).refcount = 0 := by
  induction cs generalizing bs with
  | nil => rwa [split, List.append_nil]
  | cons a cs ih =>
    have further : as = (bs ++ [a]) ++ cs := by rw [split, List.append_assoc]; rfl
    refine ih further ?_
    have next := (counts_after (bears_afterAll b bs) a).count
    have none := untaken bs a cs split zero
    rw [zero] at next
    rw [afterAll, List.foldl_append]
    refine next.trans ?_
    cases a <;> simp_all [HandleAction.next]

theorem outcome_persistent {t : TensorId} (valid : w.isValid (w.tensor t) = true) :
    ∃ u w₁, outcome (Session.persistent t) w = (.ok u, w₁) ∧ u.index < w₁.tensors.size ∧
      (w₁.tensor u).place = none ∧ w₁.isValid (w₁.tensor u) = true := by
  cases place : (w.tensor t).place with
  | none =>
    refine ⟨t, w, ?_, Decidable.byContradiction fun missing => ?_, place, valid⟩
    · rw [persistent, outcome_bind_ok (outcome_tensor t), Tensor.isPersistent, place]
      rfl
    · have absent : w.tensor t = .missing := by
        simp [Workspace.tensor, Array.getD_eq_getD_getElem?, Nat.le_of_not_lt missing]
      rw [absent] at valid
      cases valid
  | some p =>
    obtain ⟨filled, alive⟩ := isValid_eq_true.1 valid
    obtain ⟨x, value⟩ := Option.isSome_iff_exists.1 filled
    obtain ⟨s, w₁, made, pushes, new⟩ := outcome_make x none ⟨0⟩ w
    have here : w₁.tensor ⟨w.tensors.size⟩ = s := pushes.tensor_new
    refine ⟨⟨w.tensors.size⟩, w₁, ?_, ?_, ?_, ?_⟩
    · rw [persistent, outcome_bind_ok (outcome_tensor t), Tensor.isPersistent, place,
        ← made, ← outcome_clone (read_eq_ok.2 ⟨alive, value⟩)]
      rfl
    · rw [pushes.size_tensors]
      exact Nat.lt_succ_self _
    · rw [here]
      exact Option.map_eq_none_iff.1 new.home
    · rw [here]
      exact isValid_eq_true.2 ⟨by rw [new.value]; rfl, new.valid⟩

theorem outcome_newHandle {t : TensorId} (valid : w.isValid (w.tensor t) = true) :
    ∃ h w₁, outcome (newHandle t) w = (.ok h, w₁) ∧ w₁.Bears h ∧ (w₁.handle h).refcount = 1 ∧
      w₁.isValid (w₁.owned h) = true := by
  obtain ⟨u, w₁, run, there, place, filled⟩ := outcome_persistent valid
  have new : ({ w₁ with handles := w₁.handles.push ⟨u, 1⟩ } : Workspace α).handle
      ⟨w₁.handles.size⟩ = ⟨u, 1⟩ := by
    simp [Workspace.handle]
  refine ⟨⟨w₁.handles.size⟩, { w₁ with handles := w₁.handles.push ⟨u, 1⟩ }, ?_, ⟨?_, ?_, ?_⟩,
    ?_, ?_⟩
  · rw [newHandle, outcome_bind_ok run]
    rfl
  · simp
  · rw [new]
    exact there
  · rw [owned, new]
    exact place
  · rw [new]
  · rw [owned, new]
    exact filled

/-- A new handle on a valid tensor has the count one. After any actions the count is what they make
of it, and the tensor is valid if the count was positive all along. So it is valid exactly at a
positive count, unless something took the handle at zero. A release at zero fails and changes
nothing, and any other lowers the count by one. -/
theorem valid_while_held {w : Workspace α} {t : TensorId}
    (valid : w.isValid (w.tensor t) = true) :
    ∃ h w₁, outcome (newHandle t) w = (.ok h, w₁) ∧ (w₁.handle h).refcount = 1 ∧
      ∀ as : List (HandleAction α),
        let w₂ := afterAll h w₁ as
        (w₂.handle h).refcount = as.foldl (fun n a => a.next h n) 1 ∧
        (w₂.isValid (w₂.owned h) = true ↔
          ∀ bs, bs <+: as → 0 < ((afterAll h w₁ bs).handle h).refcount) ∧
        ((∀ bs a cs, as = bs ++ a :: cs →
            ((afterAll h w₁ bs).handle h).refcount = 0 → a.takes h = 0) →
          (w₂.isValid (w₂.owned h) = true ↔ 0 < (w₂.handle h).refcount)) ∧
        ((w₂.handle h).refcount = 0 →
          outcome (Session.release h) w₂ = (.error (.lifetime .overReleased), w₂)) ∧
        (0 < (w₂.handle h).refcount → ∃ w₃, outcome (Session.release h) w₂ = (.ok (), w₃) ∧
          (w₃.handle h).refcount + 1 = (w₂.handle h).refcount) := by
  obtain ⟨h, w₁, run, b, one, filled⟩ := outcome_newHandle valid
  refine ⟨h, w₁, run, one, fun as => ?_⟩
  intro w₂
  have held : 0 < (w₁.handle h).refcount := one ▸ Nat.one_pos
  have along := isValid_afterAll b filled held as
  have b₂ := bears_afterAll b as
  refine ⟨one ▸ refcount_afterAll b as, along, fun untaken => ?_, outcome_release_spent,
    fun positive => ?_⟩
  · refine along.trans ⟨fun all => all as List.prefix_rfl, fun positive bs before => ?_⟩
    obtain ⟨cs, split⟩ := before
    refine Nat.pos_of_ne_zero fun zero => ?_
    exact absurd (refcount_eq_zero b untaken split.symm zero) (Nat.ne_of_gt positive)
  · refine ⟨_, outcome_release positive b₂.isPersistent, ?_⟩
    have count := (counts_after b₂ release).count
    have last : after h w₂ release = _ :=
      congrArg Prod.snd (outcome_release positive b₂.isPersistent)
    rw [last] at count
    rw [count]
    exact Nat.sub_add_cancel positive

def unheld : Workspace Float :=
  { empty (fun _ => 0) with tensors := #[⟨[1], some (.fill [1] 3), none⟩] }

def twice : Expr Float := .bin .add (.tensor ⟨0, [1], 3⟩) (.tensor ⟨0, [1], 3⟩)

theorem valid_while_held_twice :
    unheld.isValid (unheld.tensor ⟨0⟩) = true ∧
      ∃ h w₁, outcome (newHandle ⟨0⟩) unheld = (.ok h, w₁) ∧
        let w₂ := afterAll h w₁ [clone twice, release, release]
        let w₃ := afterAll h w₁ [clone twice, release, release, release]
        (w₂.handle h).refcount = 1 ∧ (w₃.handle h).refcount = 0 ∧
          ¬ w₃.isValid (w₃.owned h) = true ∧
          outcome (Session.release h) w₃ = (.error (.lifetime .overReleased), w₃) := by
  have valid : unheld.isValid (unheld.tensor ⟨0⟩) = true := rfl
  obtain ⟨h, w₁, run, -, runs⟩ := valid_while_held valid
  obtain rfl : (⟨0⟩ : HandleId) = h := Except.ok.inj (congrArg Prod.fst run)
  have two := (runs [clone twice, release, release]).1
  obtain ⟨three, along, -, refused, -⟩ := runs [clone twice, release, release, release]
  exact ⟨valid, ⟨0⟩, w₁, run, two, three,
    fun alive => Nat.ne_of_gt (along.1 alive _ List.prefix_rfl) three, refused three⟩

/-- Retained at zero, a handle is held again, and its tensor is gone. -/
theorem not_valid_of_retain_spent :
    let w₁ := (outcome (newHandle ⟨0⟩) unheld).2
    let w₂ := afterAll ⟨0⟩ w₁ [release, retain]
    unheld.isValid (unheld.tensor ⟨0⟩) = true ∧
      (outcome (newHandle ⟨0⟩) unheld).1 = .ok ⟨0⟩ ∧ (w₁.handle ⟨0⟩).refcount = 1 ∧
      (w₂.handle ⟨0⟩).refcount = 1 ∧ w₂.isValid (w₂.owned ⟨0⟩) = false :=
  ⟨rfl, rfl, rfl, rfl, rfl⟩

end HandleAction

end DerivativeEngine
