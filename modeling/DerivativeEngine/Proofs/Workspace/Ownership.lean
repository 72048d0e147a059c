import DerivativeEngine.Proofs.Rewrite.Holding
import DerivativeEngine.Proofs.Workspace.Session
import DerivativeEngine.Scalar.Double
import DerivativeEngine.Workspace.Handles

/-! Who owns the tensors in trees. A workspace owns the nodes of some trees when every handle is
held as often as it stands in them. What a rewriter takes for its result is enough for the workspace
to own the nodes of the result beside those of the arguments; then the nodes can be let go of one
after the other, in any order, and a tensor is freed with the last node on a handle of it, not
before. -/

namespace DerivativeEngine

/-- A rewriter, with what it is given beside the tree. -/
inductive Rewriter (α : Type) where
  | clone
  | substitute (name : String) (replacement : Expr α)
  | simplify
  | differentiate (name : String)
  | partialDerivative (name : String)
  | integrate (name : String)
  | factor (name : String)
  | taylor (name : String) (center : α) (order : Int)

namespace Rewriter

variable {α : Type}

def arguments (f : Rewriter α) (e : Expr α) : List (Expr α) :=
  match f with
  | substitute _ replacement => [e, replacement]
  | _ => [e]

def copies : Rewriter α → Bool
  | clone | substitute .. => true
  | _ => false

variable [Scalar α] [NumberText α]

/-- The tree that is returned, if one is. -/
def run (f : Rewriter α) (e : Expr α) : Run (Option (Retaining (Expr α))) := do
  match f with
  | clone => return some e.clone
  | substitute name replacement => return some (e.substitute name replacement)
  | simplify => return some e.simplify
  | differentiate name => return some (e.differentiate name)
  | partialDerivative name => return some (e.partialDerivative name)
  | integrate name => return some (e.integrate name)
  | factor name => return (← e.factor name).toOption
  | taylor name center order => return (← e.taylor? name center order).toOption

variable {f : Rewriter α} {e : Expr α} {engine : Engine} {x : Retaining (Expr α)}

theorem suffices_run (returned : (f.run e engine).1 = some x) : x.Suffices := by
  cases f with
  | clone =>
    obtain rfl := Option.some.inj returned
    exact (Expr.exact_clone e).suffices
  | substitute name r =>
    obtain rfl := Option.some.inj returned
    exact (Expr.exact_substitute e name r).suffices
  | simplify =>
    obtain rfl := Option.some.inj returned
    exact Expr.suffices_simplify e
  | differentiate name =>
    obtain rfl := Option.some.inj returned
    exact Expr.suffices_derivative _ e
  | partialDerivative name =>
    obtain rfl := Option.some.inj returned
    exact Expr.suffices_partialDerivative e name
  | integrate name =>
    obtain rfl := Option.some.inj returned
    exact Expr.suffices_antiderivative _ e
  | factor name => exact Expr.suffices_factor (Session.eq_ok_of_toOption returned)
  | taylor name center order => exact Expr.suffices_taylor (Session.eq_ok_of_toOption returned)

theorem exact_run (copies : f.copies = true) (returned : (f.run e engine).1 = some x) :
    x.Exact := by
  cases f with
  | clone =>
    obtain rfl := Option.some.inj returned
    exact Expr.exact_clone e
  | substitute name r =>
    obtain rfl := Option.some.inj returned
    exact Expr.exact_substitute e name r
  | _ => cases copies

theorem count_run (returned : (f.run e engine).1 = some x) {i : Nat}
    (absent : (Expr.handlesAll (f.arguments e)).count i = 0) : x.count i = 0 := by
  have tree : e.occurrences i = 0 := by
    cases f <;> simp_all [arguments, Expr.handlesAll, Expr.occurrences]
  cases f with
  | clone =>
    obtain rfl := Option.some.inj returned
    rwa [Expr.count_clone]
  | substitute name r =>
    obtain rfl := Option.some.inj returned
    have replacement : r.occurrences i = 0 := by
      simp_all [arguments, Expr.handlesAll, Expr.occurrences]
    exact Expr.count_replace replacement tree
  | simplify =>
    obtain rfl := Option.some.inj returned
    exact Expr.count_simplify tree
  | differentiate name =>
    obtain rfl := Option.some.inj returned
    exact Expr.count_derivative tree
  | partialDerivative name =>
    obtain rfl := Option.some.inj returned
    exact Expr.count_partialDerivative tree name
  | integrate name =>
    obtain rfl := Option.some.inj returned
    exact Expr.count_antiderivative tree
  | factor name => exact Expr.count_factor (Session.eq_ok_of_toOption returned) tree
  | taylor name center order => exact Expr.count_taylor (Session.eq_ok_of_toOption returned) tree

end Rewriter

namespace Workspace

variable {α : Type} {w w' : Workspace α}

theorem handle_setHandle (w : Workspace α) (h : HandleId) (x : TensorHandle) (g : HandleId) :
    (w.setHandle h x).handle g = if g = h ∧ h.index < w.handles.size then x else w.handle g := by
  obtain ⟨i⟩ := h
  obtain ⟨j⟩ := g
  simp only [handle, setHandle, Array.getD_eq_getD_getElem?, Array.getElem?_setIfInBounds,
    HandleId.mk.injEq]
  grind

def lower (w : Workspace α) (h : HandleId) : Workspace α :=
  w.setHandle h { w.handle h with refcount := (w.handle h).refcount - 1 }

structure Raised (w w' : Workspace α) (times : Nat → Nat) : Prop where
  rest : { w' with handles := w.handles } = w
  size : w'.handles.size = w.handles.size
  handle : ∀ h : HandleId, h.index < w.handles.size →
    w'.handle h = { w.handle h with refcount := (w.handle h).refcount + times h.index }

structure Lowered (w w' : Workspace α) (h : HandleId) : Prop where
  size : w'.handles.size = w.handles.size
  handle : ∀ g, w'.handle g =
    if g = h then { w.handle h with refcount := (w.handle h).refcount - 1 } else w.handle g
  persistent : ∀ t, (w'.tensor t).isPersistent = (w.tensor t).isPersistent
  tensor : ∀ t, ((w.handle h).tensor = t → (w.handle h).refcount ≠ 1) → w'.tensor t = w.tensor t

/-- Each node is on a handle of a persistent tensor, and the handles are held as often as there are
nodes on them, or more often. -/
structure Owns (w : Workspace α) (nodes : List Nat) : Prop where
  known : ∀ i ∈ nodes, i < w.handles.size
  held : ∀ i ∈ nodes, nodes.count i ≤ (w.handle ⟨i⟩).refcount
  persistent : ∀ i ∈ nodes, (w.tensor (w.handle ⟨i⟩).tensor).isPersistent = true

theorem Owns.perm {nodes nodes' : List Nat} (o : w.Owns nodes) (same : nodes.Perm nodes') :
    w.Owns nodes' where
  known i there := o.known i (same.mem_iff.2 there)
  held i there := same.count_eq i ▸ o.held i (same.mem_iff.2 there)
  persistent i there := o.persistent i (same.mem_iff.2 there)

theorem Raised.tensor {times : Nat → Nat} (r : w.Raised w' times) (t : TensorId) :
    w'.tensor t = w.tensor t := congrArg (fun u => u.tensor t) r.rest

theorem Raised.owns {times : Nat → Nat} (r : w.Raised w' times) {nodes more : List Nat}
    (o : w.Owns nodes) (among : ∀ i ∈ more, i ∈ nodes) (enough : ∀ i, more.count i ≤ times i) :
    w'.Owns (nodes ++ more) where
  known i there := by
    rw [r.size]
    exact o.known i ((List.mem_append.1 there).elim id (among i))
  held i there := by
    have there := (List.mem_append.1 there).elim id (among i)
    rw [List.count_append, r.handle ⟨i⟩ (o.known i there)]
    exact Nat.add_le_add (o.held i there) (enough i)
  persistent i there := by
    have there := (List.mem_append.1 there).elim id (among i)
    rw [r.handle ⟨i⟩ (o.known i there), r.tensor]
    exact o.persistent i there

theorem Lowered.owner {h : HandleId} (l : w.Lowered w' h) (g : HandleId) :
    (w'.handle g).tensor = (w.handle g).tensor := by
  rw [l.handle]
  split
  · rename_i same
    rw [same]
  · rfl

theorem Lowered.owns {i : Nat} {left : List Nat} (l : w.Lowered w' ⟨i⟩) (o : w.Owns (i :: left)) :
    w'.Owns left where
  known j there := l.size ▸ o.known j (List.mem_cons_of_mem i there)
  held j there := by
    have held := o.held j (List.mem_cons_of_mem i there)
    rw [l.handle]
    by_cases same : j = i
    · subst same
      rw [List.count_cons_self] at held
      rw [if_pos rfl]
      exact Nat.le_sub_one_of_lt held
    · rw [List.count_cons_of_ne (Ne.symm same)] at held
      rwa [if_neg fun c => same (HandleId.mk.inj c)]
  persistent j there := by
    rw [l.owner, l.persistent]
    exact o.persistent j (List.mem_cons_of_mem i there)

end Workspace

namespace Session

variable {α : Type} {w : Workspace α}

theorem raised_retain (h : HandleId) (w : Workspace α) :
    ∃ w', outcome (retain h) w = (.ok (), w') ∧
      w.Raised w' fun i => if i = h.index then 1 else 0 := by
  refine ⟨w.setHandle h { w.handle h with refcount := (w.handle h).refcount + 1 }, rfl, rfl,
    Array.size_setIfInBounds, fun g known => ?_⟩
  rw [Workspace.handle_setHandle]
  by_cases same : g = h
  · subst same
    rw [if_pos ⟨rfl, known⟩, if_pos rfl]
  · rw [if_neg fun c => same c.1, if_neg fun c => same (congrArg HandleId.mk c)]
    rfl

theorem raised_retains (taken : List Nat) (w : Workspace α) :
    ∃ w', outcome (taken.forM fun i => retain ⟨i⟩) w = (.ok (), w') ∧
      w.Raised w' fun i => taken.count i := by
  induction taken generalizing w with
  | nil => exact ⟨w, rfl, rfl, rfl, fun _ _ => rfl⟩
  | cons i taken ih =>
    obtain ⟨w₁, first, one⟩ := raised_retain ⟨i⟩ w
    obtain ⟨w₂, others, more⟩ := ih w₁
    refine ⟨w₂, ?_, ?_, more.size.trans one.size, fun h known => ?_⟩
    · exact (outcome_bind_ok first _).trans others
    · rw [← one.rest, ← more.rest]
    · rw [more.handle h (one.size.symm ▸ known), one.handle h known]
      grind

theorem raised_retainAll {β : Type} (x : Retaining β) (w : Workspace α) :
    ∃ w', outcome (retainAll x) w = (.ok x.value, w') ∧ w.Raised w' x.count := by
  obtain ⟨w', run, raised⟩ := raised_retains x.retained w
  refine ⟨w', ?_, raised⟩
  rw [retainAll, outcome_bind_ok run]
  rfl

theorem outcome_release_spent {h : HandleId} (spent : (w.handle h).refcount = 0) :
    outcome (release h) w = (.error (.lifetime .overReleased), w) := by
  have read : outcome (handle h) w = (.ok (w.handle h), w) := rfl
  rw [release, outcome_bind_ok read, spent]
  rfl

theorem outcome_release {h : HandleId} (held : 0 < (w.handle h).refcount)
    (persistent : (w.tensor (w.handle h).tensor).isPersistent = true) :
    outcome (release h) w = (.ok (), if (w.handle h).refcount = 1 then
      (w.lower h).setTensor (w.handle h).tensor
        { w.tensor (w.handle h).tensor with value := none }
      else w.lower h) := by
  have read : outcome (handle h) w = (.ok (w.handle h), w) := rfl
  have positive : ((w.handle h).refcount == 0) = false := by simpa using Nat.ne_of_gt held
  rw [release, outcome_bind_ok read, positive]
  simp only [Bool.false_eq_true, if_false]
  rw [outcome_bind_ok (outcome_modify _)]
  by_cases last : (w.handle h).refcount = 1
  · rw [if_pos (by simpa using last), if_pos last]
    exact outcome_free persistent
  · rw [if_neg (by simpa using last), if_neg last]
    rfl

theorem lowered_release {h : HandleId} (known : h.index < w.handles.size)
    (held : 0 < (w.handle h).refcount)
    (persistent : (w.tensor (w.handle h).tensor).isPersistent = true) :
    ∃ w', outcome (release h) w = (.ok (), w') ∧ w.Lowered w' h := by
  refine ⟨_, outcome_release held persistent, ?_⟩
  have lowered (g : HandleId) :=
    w.handle_setHandle h { w.handle h with refcount := (w.handle h).refcount - 1 } g
  simp only [known, and_true] at lowered
  by_cases last : (w.handle h).refcount = 1
  · rw [if_pos last]
    refine ⟨Array.size_setIfInBounds, lowered, fun t => ?_, fun t kept => ?_⟩
    · rw [Workspace.tensor_setTensor]
      split
      · rename_i same
        rw [same.1]
        rfl
      · rfl
    · rw [Workspace.tensor_setTensor, if_neg fun c => kept c.1.symm last]
      rfl
  · rw [if_neg last]
    exact ⟨Array.size_setIfInBounds, lowered, fun _ => rfl, fun _ _ => rfl⟩

/-- Lets go of the nodes, one after the other. -/
def releaseAll (nodes : List Nat) : Session α Unit := nodes.forM fun i => release ⟨i⟩

theorem owns_release {i : Nat} {left : List Nat} (o : w.Owns (i :: left)) :
    ∃ w', outcome (release ⟨i⟩) w = (.ok (), w') ∧ w'.Owns left ∧
      (∀ h, (w'.handle h).tensor = (w.handle h).tensor) ∧
      ∀ t, ((w.handle ⟨i⟩).tensor = t → i ∈ left) → w'.tensor t = w.tensor t := by
  have enough : left.count i < (w.handle ⟨i⟩).refcount := by
    have held := o.held i (by simp)
    rwa [List.count_cons_self] at held
  obtain ⟨w', run, lowered⟩ := lowered_release (h := ⟨i⟩) (o.known i (by simp))
    (Nat.zero_lt_of_lt enough) (o.persistent i (by simp))
  refine ⟨w', run, lowered.owns o, lowered.owner, fun t remains => lowered.tensor t fun owner => ?_⟩
  have node := List.count_pos_iff.2 (remains owner)
  omega

/-- The nodes that are left stay owned, and a tensor is as it was when all the handles of it that
were let go of have nodes left. -/
theorem owns_releaseAll {done left : List Nat} (o : w.Owns (done ++ left)) :
    ∃ w', outcome (releaseAll done) w = (.ok (), w') ∧ w'.Owns left ∧
      (∀ h, (w'.handle h).tensor = (w.handle h).tensor) ∧
      ∀ t, (∀ i ∈ done, (w.handle ⟨i⟩).tensor = t → i ∈ left) → w'.tensor t = w.tensor t := by
  induction done generalizing w with
  | nil => exact ⟨w, rfl, o, fun _ => rfl, fun _ _ => rfl⟩
  | cons i done ih =>
    obtain ⟨w₁, first, owned, same, kept⟩ := owns_release o
    obtain ⟨w₂, others, owned', same', kept'⟩ := ih owned
    refine ⟨w₂, (outcome_bind_ok first _).trans others, owned',
      fun h => (same' h).trans (same h), fun t remain => ?_⟩
    rw [kept' t, kept t]
    · exact fun owner => List.mem_append_right done (remain i (by simp) owner)
    · intro j there owner
      exact remain j (by simp [there]) (same ⟨j⟩ ▸ owner)

end Session

namespace Rewriter

open Session

variable {α : Type} [Scalar α] [NumberText α]

/-- A rewriter that returns a tree has taken each of the tensors in it at least as often as it
stands there, exactly as often if the rewriter copies, and changed nothing else. Where the arguments
were owned, their nodes and those of the result can be let go of in any order: a tensor stays as it
is while the handles of it that were let go of have nodes left. -/
theorem retains_result {f : Rewriter α} {e : Expr α} {engine : Engine} {x : Retaining (Expr α)}
    (returned : (f.run e engine).1 = some x) (w : Workspace α) :
    ∃ w', outcome (retainAll x) w = (.ok x.value, w') ∧ { w' with handles := w.handles } = w ∧
      (∀ h : HandleId, h.index < w.handles.size →
        (w'.handle h).tensor = (w.handle h).tensor ∧
        (w.handle h).refcount + x.value.occurrences h.index ≤ (w'.handle h).refcount ∧
        (f.copies = true →
          (w'.handle h).refcount = (w.handle h).refcount + x.value.occurrences h.index)) ∧
      (w.Owns (Expr.handlesAll (f.arguments e)) → ∀ done left,
        (Expr.handlesAll (f.arguments e) ++ x.value.handles).Perm (done ++ left) →
        ∃ w'', outcome (releaseAll done) w' = (.ok (), w'') ∧ w''.Owns left ∧
          ∀ t, (∀ i ∈ done, (w.handle ⟨i⟩).tensor = t → i ∈ left) →
            w''.tensor t = w.tensor t) := by
  have enough := suffices_run returned
  obtain ⟨w', run, raised⟩ := raised_retainAll x w
  refine ⟨w', run, raised.rest, fun h known => ?_, fun owned done left split => ?_⟩
  · rw [raised.handle h known]
    exact ⟨rfl, Nat.add_le_add_left (enough h.index) _, fun copies =>
      congrArg _ (exact_run copies returned h.index)⟩
  · have among : ∀ i ∈ x.value.handles, i ∈ Expr.handlesAll (f.arguments e) := by
      intro i there
      refine Decidable.byContradiction fun absent => ?_
      have untaken := count_run returned (List.count_eq_zero.2 absent)
      exact List.count_eq_zero.1 (enough.absent untaken) there
    have both := (raised.owns owned among enough).perm split
    obtain ⟨w'', released, left, owners, kept⟩ := owns_releaseAll both
    refine ⟨w'', released, left, fun t remain => ?_⟩
    rw [kept t, raised.tensor]
    intro i there owner
    have given := (List.mem_append.1 (split.mem_iff.2 (List.mem_append_left _ there))).elim id
      (among i)
    rw [raised.handle ⟨i⟩ (owned.known i given)] at owner
    exact remain i there owner

def shared : Workspace Float :=
  { Workspace.empty (fun _ => 0) with
    tensors := #[⟨[1], some (.fill [1] 3), none⟩]
    handles := #[⟨⟨0⟩, 2⟩] }

def doubled : Expr Float := .bin .add (.tensor ⟨0, [1], 3⟩) (.tensor ⟨0, [1], 3⟩)

theorem owns_shared : shared.Owns [0, 0] where
  known := by decide
  held := by decide
  persistent := by decide

theorem retains_result_doubled :
    (simplify.run doubled .start).1 = some doubled.simplify ∧ shared.Owns [0, 0] ∧
      ∃ w' w'', outcome (retainAll doubled.simplify) shared = (.ok doubled.simplify.value, w') ∧
        outcome (releaseAll [0, 0]) w' = (.ok (), w'') ∧
        w''.Owns [0] ∧ w''.tensor ⟨0⟩ = shared.tensor ⟨0⟩ := by
  have returned : (simplify.run doubled .start).1 = some doubled.simplify := rfl
  obtain ⟨w', run, -, -, releases⟩ := retains_result returned shared
  obtain ⟨w'', released, left, kept⟩ :=
    releases owns_shared [0, 0] [0] (.of_eq (by decide +kernel))
  exact ⟨returned, owns_shared, w', w'', run, released, left, kept ⟨0⟩ (by decide)⟩

end Rewriter

end DerivativeEngine
