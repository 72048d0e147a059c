import DerivativeEngine.Proofs.Expr.Bindings
import DerivativeEngine.Proofs.Expr.Draws
import DerivativeEngine.Proofs.Rewrite.Differentiation

/-! Substitution and evaluation. A tree with a replacement put in for a variable has, under given
bindings, the value that the tree itself has where the variable stands for the value of the
replacement, and it draws the same numbers. The replacement may hold the variable: its copies are
not substituted in again. It may not draw, since there is a copy of it for every occurrence. -/

namespace DerivativeEngine

namespace Bindings

variable {α : Type} {b : Bindings α} {names : List (String × Int)}

/-- Each name of the map has a position in the row, and has it for itself. -/
structure Separate (b : Bindings α) (names : List (String × Int)) : Prop where
  named : b.names = some names
  inside : ∀ x i, names.lookup x = some i → 0 ≤ i ∧ i < b.values.length
  own : ∀ x y i, names.lookup x = some i → names.lookup y = some i → x = y

theorem Separate.position?_eq (h : b.Separate names) (x : String) :
    b.position? x = (names.lookup x).map Int.toNat := by
  unfold position?
  rw [h.named]
  cases there : names.lookup x with
  | none => simp [there]
  | some i => simp [there, h.inside x i there]

theorem Separate.insert (h : b.Separate names) (p : String × α) :
    ∃ names', (b.insert p).Separate names' := by
  have position := h.position?_eq (canonicalName p.1)
  cases known : names.lookup (canonicalName p.1) with
  | some i =>
    have written : b.insert p = { b with values := b.values.set i.toNat p.2 } := by
      simp [Bindings.insert, position, known]
    rw [written]
    exact ⟨names, h.named, by simpa using h.inside, h.own⟩
  | none =>
    have added : b.insert p =
        ⟨b.values ++ [p.2], some (assign (canonicalName p.1) (b.values.length : Int) names)⟩ := by
      simp [Bindings.insert, position, known, h.named]
    rw [added]
    refine ⟨_, rfl, fun x i there => ?_, fun x y i hx hy => ?_⟩
    · rw [lookup_assign] at there
      rw [List.length_append, List.length_singleton]
      split at there
      · obtain rfl := Option.some.inj there
        omega
      · have old := h.inside x i there
        omega
    · rw [lookup_assign] at hx hy
      split at hx <;> split at hy
      · next new new' => rw [beq_iff_eq.1 new, beq_iff_eq.1 new']
      · obtain rfl := Option.some.inj hx
        exact absurd (h.inside y _ hy).2 (lt_irrefl _)
      · obtain rfl := Option.some.inj hy
        exact absurd (h.inside x _ hx).2 (lt_irrefl _)
      · exact h.own x y i hx hy

theorem separate_ofPairs (pairs : List (String × α)) : ∃ names, (ofPairs pairs).Separate names := by
  induction pairs using List.reverseRecOn with
  | nil => exact ⟨[], rfl, nofun, nofun⟩
  | append_singleton pairs p ih =>
    obtain ⟨names, h⟩ := ih
    rw [ofPairs, List.foldl_append]
    exact h.insert p

theorem set_eq_insert (named : b.names = some names) (name : String) (v : α) :
    b.set name v = .ok (b.insert (name, v)) := by
  unfold set Bindings.insert index?
  cases position : b.position? (canonicalName name) with
  | some i => simp [position]
  | none => simp [position, named]

variable [Scalar α]

theorem Separate.rebinds (h : b.Separate names) (name : String) (v : α) :
    Rebinds (some b) (canonicalName name) v (some (b.insert (name, v))) := by
  refine rebinds_set (set_eq_insert h.named name v) (fun y i here there => ?_) ?_
  · rw [h.position?_eq, Option.map_eq_some_iff] at here there
    obtain ⟨j, hj, rfl⟩ := here
    obtain ⟨k, hk, same⟩ := there
    have := h.inside _ _ hj
    have := h.inside _ _ hk
    obtain rfl : k = j := by omega
    exact h.own _ _ _ hj hk
  · intro names' named' y i there
    obtain rfl := Option.some.inj (h.named.symm.trans named')
    exact (h.inside y i there).2

omit [Scalar α] in
theorem lookup_map_snd (f : Int → Int) (x : String) : ∀ names : List (String × Int),
    (names.map fun p => (p.1, f p.2)).lookup x = (names.lookup x).map f
  | [] => rfl
  | (y, i) :: names => by
    rw [List.map_cons, List.lookup_cons, List.lookup_cons, lookup_map_snd f x names]
    cases x == y <;> rfl

def kept (b : Bindings α) (i : Int) : Int := if i < b.values.length then i else -1

def bind (b : Bindings α) (names : List (String × Int)) (x : String) (v : α) : Bindings α where
  values := b.values ++ [v]
  names := some (assign x (b.values.length : Int) (names.map fun p => (p.1, b.kept p.2)))

theorem rebinds_bind (named : b.names = some names) (x : String) (v : α) :
    Rebinds (some b) x v (some (b.bind names x v)) := by
  let clipped : Bindings α := ⟨b.values, some (names.map fun p => (p.1, b.kept p.2))⟩
  have same (y : String) : clipped.position? y = b.position? y := by
    unfold position?
    rw [named]
    simp only [clipped, lookup_map_snd]
    cases names.lookup y with
    | none => rfl
    | some i => by_cases below : i < b.values.length <;> simp [kept, below]
  have added : Rebinds (some clipped) x v (some (b.bind names x v)) := by
    refine rebinds_added rfl fun y i there => ?_
    rw [lookup_map_snd, Option.map_eq_some_iff] at there
    obtain ⟨j, -, rfl⟩ := there
    unfold kept
    split
    · assumption
    · exact lt_of_lt_of_le (by decide) (Int.natCast_nonneg _)
  refine ⟨added.same, fun y canonical other => ?_⟩
  rw [added.others y canonical other, valueOf_eq _ canonical, valueOf_eq _ canonical, same]

end Bindings

namespace Expr

variable {α : Type}

section Occurrences

theorem mentions_var (y z : String) : (var z : Expr α).mentions y = true ↔ z = y := beq_iff_eq

variable (x y : String) (r : Expr α)

mutual
theorem mentions_replace : ∀ e : Expr α, (replace x r e).value.mentions y = true ↔
    e.mentions y = true ∧ y ≠ x ∨ r.mentions y = true ∧ e.mentions x = true
  | num _ => by simp [replace, mentions]
  | var z => by
    by_cases own : z = x
    · subst own
      have copied : (replace z r (var z)).value = r := by simp [replace]
      rw [copied, mentions_var, mentions_var]
      tauto
    · have left : (replace x r (var z)).value = var z := by simp [replace, own]
      rw [left, mentions_var, mentions_var]
      constructor
      · rintro rfl
        exact .inl ⟨rfl, own⟩
      · rintro (⟨same, -⟩ | ⟨-, same⟩)
        · exact same
        · exact absurd same own
  | bin op l r' => by
    simp only [replace, Retaining.bind_value, Retaining.pure_value, mentions, Bool.or_eq_true,
      mentions_replace l, mentions_replace r']
    tauto
  | un op e => by
    simpa only [replace, Retaining.bind_value, Retaining.pure_value, mentions]
      using mentions_replace e
  | call f args => by
    simpa only [replace, Retaining.bind_value, Retaining.pure_value, mentions]
      using mentionsAny_replaceAll args
  | tensor _ => by simp [replace, mentions]
theorem mentionsAny_replaceAll : ∀ es : List (Expr α),
    mentionsAny y (replaceAll x r es).value = true ↔
      mentionsAny y es = true ∧ y ≠ x ∨ r.mentions y = true ∧ mentionsAny x es = true
  | [] => by simp [replaceAll, mentionsAny]
  | e :: es => by
    simp only [replaceAll, Retaining.bind_value, Retaining.pure_value, mentionsAny,
      Bool.or_eq_true, mentions_replace e, mentionsAny_replaceAll es]
    tauto
end

end Occurrences

variable [Scalar α]

section Evaluation

variable {b b' : Option (Bindings α)} {x : String} {r : Expr α}

mutual
theorem evaluate_replace (copies : ∀ s, r.evaluate b s = (valueOf b' x, s))
    (others : ∀ y, canonicalName y = y → y ≠ x → valueOf b' y = valueOf b y) :
    ∀ e : Expr α, e.EveryNode NameCanonical → ∀ s,
      (replace x r e).value.evaluate b s = e.evaluate b' s
  -- Every copy of the replacement has the value that the variable stands for, and leaves the stream
  -- where it is.
  | num _, _, _ => rfl
  | var y, canonical, s => by
    by_cases same : y = x
    · subst same
      have copied : (replace y r (var y)).value = r := by simp [replace]
      rw [copied, copies, evaluate]
    · have left : (replace x r (var y)).value = var y := by simp [replace, same]
      rw [left, evaluate, evaluate, others y canonical same]
  | bin op l r', canonical, s => by
    have parts : (replace x r (bin op l r')).value =
        bin op (replace x r l).value (replace x r r').value := rfl
    rw [parts, evaluate_bin, evaluate_bin, evaluate_replace copies others l canonical.2.1,
      evaluate_replace copies others r' canonical.2.2]
  | un op e, canonical, s => by
    have part : (replace x r (un op e)).value = un op (replace x r e).value := rfl
    simp only [part, evaluate, evaluate_replace copies others e canonical.2]
  | call f args, canonical, s => by
    have parts : (replace x r (call f args)).value = call f (replaceAll x r args).value := rfl
    simp only [parts, evaluate, evaluateAll_replaceAll copies others args canonical.2]
  | tensor _, _, _ => rfl
theorem evaluateAll_replaceAll (copies : ∀ s, r.evaluate b s = (valueOf b' x, s))
    (others : ∀ y, canonicalName y = y → y ≠ x → valueOf b' y = valueOf b y) :
    ∀ es : List (Expr α), EveryNodes NameCanonical es → ∀ s,
      evaluateAll b (replaceAll x r es).value s = evaluateAll b' es s
  | [], _, _ => rfl
  | e :: es, canonical, s => by
    have parts : (replaceAll x r (e :: es)).value =
        (replace x r e).value :: (replaceAll x r es).value := rfl
    simp only [parts, evaluateAll, evaluate_replace copies others e canonical.1,
      evaluateAll_replaceAll copies others es canonical.2]
end

theorem evaluate_replace_of_rebinds (drawless : r.EveryNode DrawsNothing)
    (own : canonicalName x = x) (rebinds : Bindings.Rebinds b x (r.value b) b') {e : Expr α}
    (canonical : e.EveryNode NameCanonical) (s : RandomStream) :
    (replace x r e).value.evaluate b s = e.evaluate b' s := by
  refine evaluate_replace (fun s => ?_) rebinds.others e canonical s
  rw [evaluate_eq_value b r drawless, rebinds.same own]

end Evaluation

/-- With `name` bound to the value of the replacement, in whatever way, the tree evaluates as the
substituted tree does without. It can be bound so in every context with a map of names, and writing
to the name does it where no other name has its position. -/
theorem evaluate_substitute (e r : Expr α) (name : String) {b : Bindings α}
    {names : List (String × Int)} (named : b.names = some names) (s : RandomStream)
    (canonical : e.EveryNode NameCanonical) (drawless : r.EveryNode DrawsNothing) :
    let x := canonicalName name
    let v := (r.evaluate (some b) s).1
    let result := (e.substitute name r).value
    (∃ b', Bindings.Rebinds (some b) x v (some b')) ∧
      (∀ b', Bindings.Rebinds (some b) x v b' →
        result.evaluate (some b) s = e.evaluate b' s) ∧
      (b.Separate names → ∃ b', b.set name v = .ok b' ∧
        result.evaluate (some b) s = e.evaluate (some b') s) ∧
      ∀ y, result.mentions y = true ↔
        e.mentions y = true ∧ y ≠ x ∨ r.mentions y = true ∧ e.mentions x = true := by
  intro x v result
  have value : v = r.value (some b) := by simp only [v, evaluate_eq_value _ r drawless]
  have agree (b' : Option (Bindings α)) (rebinds : Bindings.Rebinds (some b) x v b') :
      result.evaluate (some b) s = e.evaluate b' s := by
    rw [value] at rebinds
    exact evaluate_replace_of_rebinds drawless (canonicalName_canonicalName name) rebinds canonical
      s
  refine ⟨⟨_, Bindings.rebinds_bind named x v⟩, agree, fun separate => ?_, fun y => ?_⟩
  · exact ⟨_, Bindings.set_eq_insert named name v, agree _ (separate.rebinds name v)⟩
  · exact mentions_replace x y r e

theorem evaluate_substitute_own :
    let e : Expr ℝ := bin .add (bin .mul (call "RND" []) (var "X")) (var "Y")
    let r : Expr ℝ := bin .add (var "X") (var "Y")
    let b : Bindings ℝ := .ofPairs [("x", 2), ("y", 3)]
    e.EveryNode NameCanonical ∧ r.EveryNode DrawsNothing ∧
      (∃ names, b.names = some names ∧ b.Separate names) ∧
      (∀ s, (e.substitute "x" r).value.evaluate (some b) s =
        e.evaluate (some (.ofPairs [("x", 5), ("y", 3)])) s) ∧
      (e.substitute "x" r).value.mentions "X" = true := by
  intro e r b
  have first : canonicalName "x" = "X" := by decide +kernel
  have second : canonicalName "y" = "Y" := by decide +kernel
  have other : canonicalName "Y" = "Y" := by decide +kernel
  have row (u v : ℝ) : Bindings.ofPairs [("x", u), ("y", v)] =
      ⟨[u, v], some [("X", 0), ("Y", 1)]⟩ := by
    simp [Bindings.ofPairs, Bindings.insert, Bindings.empty, Bindings.position?, assign, first,
      second, List.lookup]
  have canonical : e.EveryNode NameCanonical := by
    simp [e, EveryNode, EveryNodes, NameCanonical, canonicalName_x, other]
  have drawless : r.EveryNode DrawsNothing := by
    simp [r, EveryNode, DrawsNothing]
  obtain ⟨names, separate⟩ := Bindings.separate_ofPairs [("x", (2 : ℝ)), ("y", 3)]
  have results (s : RandomStream) :=
    evaluate_substitute e r "x" separate.named s canonical drawless
  have sum (s : RandomStream) : (r.evaluate (some b) s).1 = 5 := by
    have two : valueOf (some b) "X" = 2 := by
      rw [Bindings.valueOf_eq b canonicalName_x]
      simp [b, row, Bindings.position?, List.lookup]
    have three : valueOf (some b) "Y" = 3 := by
      rw [Bindings.valueOf_eq b other]
      simp [b, row, Bindings.position?, List.lookup]
    change valueOf (some b) "X" + valueOf (some b) "Y" = 5
    rw [two, three]
    norm_num
  refine ⟨canonical, drawless, ⟨names, separate.named, separate⟩, fun s => ?_, ?_⟩
  · obtain ⟨b', set, same⟩ := (results s).2.2.1 separate
    have written : b.insert ("x", 5) = .ofPairs [("x", 5), ("y", 3)] := by
      simp [b, row, Bindings.insert, Bindings.position?, first, List.lookup]
    rw [sum, Bindings.set_eq_insert separate.named, written] at set
    obtain rfl := Except.ok.inj set
    exact same
  · refine ((results ⟨#[], 0⟩).2.2.2 "X").2 (.inr ⟨?_, ?_⟩)
    · simp [r, mentions]
    · simp [e, mentions, first]

end Expr

end DerivativeEngine
