import DerivativeEngine.Proofs.Program.Compilation
import DerivativeEngine.Proofs.Source.Names

/-! The two addresses of a variable. Evaluation looks a name up in its canonical form, and so does
the machine where the bindings have a map of names. Where they have none the machine goes to the
slot that was compiled in, and that was found for the name as it stands. So the two agree on
canonical names, which are the names that reading gives, and on all names if there is a map; a
letter that is not canonical loads zero, whatever its slot holds. -/

namespace DerivativeEngine.Expr

theorem canonical_of_letterIndex? {name : String} {i : Nat}
    (h : Bindings.letterIndex? name = some i) : canonicalName name = name := by
  unfold Bindings.letterIndex? at h
  split at h
  · next c letter =>
    simp only [Option.ite_none_right_eq_some, Bool.and_eq_true, decide_eq_true_eq] at h
    obtain ⟨⟨first, last⟩, -⟩ := h
    have start : Token.isIdentStart c = true := by simp [Token.isIdentStart, first, last]
    have capital : isSmall c = false := by
      have small : ¬ 'a' ≤ c := fun h => absurd (Char.le_trans h last) (by decide)
      simp [isSmall, small]
    have identifier : IsIdentifier name.toList := by
      rw [letter]
      exact ⟨⟨c, [], rfl, start, by simp⟩, by simp [maxNameLength]⟩
    have part := identifier.part c (by simp [letter])
    apply String.toList_injective
    rw [canonicalName, String.toList_ofList, toList_upper identifier, letter, List.map_cons,
      (toUpper_part part).2.2.2 capital]
    rfl
  · cases h

variable {α : Type} [Scalar α]

def Named (b : Option (Bindings α)) : Prop := (b.bind Bindings.names).isSome = true

instance (b : Option (Bindings α)) : Decidable (Named b) := inferInstanceAs (Decidable (_ = true))

theorem load_eq (b : Option (Bindings α)) (name : String) :
    Machine.load b (letterSlot name) name =
      if Named b ∨ canonicalName name = name then valueOf b name else 0 := by
  by_cases canonical : canonicalName name = name
  · rw [load_letterSlot b canonical, if_pos (.inr canonical)]
  · rcases b with _ | ⟨values, _ | names⟩
    · split <;> rfl
    · have slot : letterSlot name = -1 := by
        unfold letterSlot
        split
        · next i found => exact absurd (canonical_of_letterIndex? found) canonical
        · rfl
      have unnamed : ¬ (Named (some (⟨values, none⟩ : Bindings α)) ∨ canonicalName name = name) :=
        fun h => h.elim nofun canonical
      rw [slot, if_neg unnamed]
      rfl
    · exact (if_pos (.inl rfl)).symm

/-- A variable alone runs to its value where the bindings have a map of names, and where its name is
canonical. Otherwise it runs to zero, which may not be its value. -/
theorem execute_compile_var (name : String) (b : Option (Bindings α)) (s : RandomStream) :
    ∃ p, (var name : Expr α).compile = .ok p ∧
      p.execute b s =
        (if Named b ∨ canonicalName name = name then valueOf b name else 0, s) ∧
      (p.execute b s = (var name).evaluate b s ↔
        Named b ∨ canonicalName name = name ∨ valueOf b name = 0) := by
  have loaded : Program.execute [.load (letterSlot name) name, .halt] b s =
      (if Named b ∨ canonicalName name = name then valueOf b name else 0, s) :=
    congrArg (·, s) (load_eq b name)
  refine ⟨[.load (letterSlot name) name, .halt], rfl, loaded, ?_⟩
  rw [loaded, evaluate, Prod.mk.injEq, ← or_assoc]
  by_cases agreed : Named b ∨ canonicalName name = name
  · rw [if_pos agreed]
    exact ⟨fun _ => .inl agreed, fun _ => ⟨rfl, rfl⟩⟩
  · rw [if_neg agreed]
    exact ⟨fun h => .inr h.1.symm, fun h => ⟨(h.resolve_left agreed).symm, rfl⟩⟩

/-- The small letter is in the slot of the capital one for evaluation, and in none for the
machine. -/
theorem not_execute_compile_small :
    ¬ ∀ (name : String) (b : Option (Bindings Float)) (s : RandomStream) (p : Program Float),
      (var name : Expr Float).compile = .ok p → p.execute b s = (var name).evaluate b s := by
  intro h
  have upper : canonicalName "a" = "A" := by decide +kernel
  have same := congrArg Prod.fst
    (h "a" (some ⟨[2.0], none⟩) (.ofSeed 0) [.load (-1) "a", .halt] rfl)
  have loaded : Program.execute [.load (-1) "a", .halt] (some (⟨[2.0], none⟩ : Bindings Float))
      (.ofSeed 0) = (0, .ofSeed 0) := rfl
  have value : valueOf (some (⟨[2.0], none⟩ : Bindings Float)) "a" = 2.0 := by
    rw [valueOf, Option.bind_some, Bindings.lookup?, Bindings.index?, upper]
    rfl
  rw [loaded, evaluate, value] at same
  have bits : (0 : Float).toBits = (2.0 : Float).toBits := congrArg Float.toBits same
  exact absurd bits (by decide)

end DerivativeEngine.Expr
