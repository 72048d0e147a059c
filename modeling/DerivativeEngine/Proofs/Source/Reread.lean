import DerivativeEngine.Proofs.Source.Folding
import DerivativeEngine.Proofs.Source.RoundTrip

/-! What the source of a tree is worth. The tree that is read from it has the values of the tree
that was written, and makes the same draws, but for undefined numbers: they are written as a
quotient of zeros, and the value of a quotient by zero is zero. -/

namespace DerivativeEngine.Expr

section

variable {α : Type} [Scalar α]

mutual
/-- The tree with zeros for its undefined numbers. -/
def defined : Expr α → Expr α
  | num x => if Scalar.isNaN x then num 0 else num x
  | var name => var name
  | bin op l r => bin op (defined l) (defined r)
  | un op e => un op (defined e)
  | call name args => call name (definedAll args)
  | tensor t => tensor t
def definedAll : List (Expr α) → List (Expr α)
  | [] => []
  | e :: es => defined e :: definedAll es
end

mutual
theorem defined_of_notNaN : ∀ e : Expr α, e.EveryNode NotNaN → e.defined = e
  | num x, number => by rw [defined, show Scalar.isNaN x = false from number]; rfl
  | var name, _ => rfl
  | bin op l r, h => by rw [defined, defined_of_notNaN l h.2.1, defined_of_notNaN r h.2.2]
  | un op e, h => by rw [defined, defined_of_notNaN e h.2]
  | call name args, h => by rw [defined, definedAll_of_notNaN args h.2]
  | tensor t, _ => rfl
theorem definedAll_of_notNaN : ∀ es : List (Expr α), EveryNodes NotNaN es → definedAll es = es
  | [], _ => rfl
  | e :: es, h => by rw [definedAll, defined_of_notNaN e h.1, definedAll_of_notNaN es h.2]
end

end

variable {b : Option (Bindings Float)}

theorem evaluate_quotient (s : RandomStream) :
    (bin .div (num 0) (num 0)).evaluate b s = ((num 0 : Expr Float)).evaluate b s := by
  have zero : BinaryOp.div.apply (0 : Float) 0 = 0 := by decide +kernel
  simp only [evaluate, zero]

mutual
theorem evaluate_reread : ∀ (e : Expr Float) (s : RandomStream),
    e.reread.evaluate b s = e.defined.evaluate b s
  | num x, s => by
    rw [reread, defined]
    cases Scalar.isNaN x with
    | true => exact evaluate_quotient s
    | false => rfl
  | var name, _ => rfl
  | bin op l r, s => by
    simp only [reread, defined, evaluate, evaluate_reread l, evaluate_reread r]
  | un op e, s => by simp only [reread, defined, evaluate, evaluate_reread e]
  | call name args, s => by
    rw [reread, defined, evaluate_callTree, evaluate, evaluate, evaluateAll_rereadAll args]
  | tensor t, _ => rfl
theorem evaluateAll_rereadAll : ∀ (es : List (Expr Float)) (s : RandomStream),
    evaluateAll b (rereadAll es) s = evaluateAll b (definedAll es) s
  | [], _ => rfl
  | e :: es, s => by
    simp only [rereadAll, definedAll, evaluateAll, evaluate_reread e, evaluateAll_rereadAll es]
end

/-- Within the limits of its text, the source of any tree is read, and what is read has the values
of the tree with its undefined numbers taken for zero. -/
theorem evaluate_toSource {e : Expr Float} (numbers : e.EveryNode MagnitudeReadsBack)
    (spelled : e.EveryNode NodeSpelled) {config : TimedConfig} (live : config.InTime)
    (short : (e.toSource.utf8ByteSize : Int) ≤ config.maxLength)
    (shallow : (e.sourceDepth : Int) ≤ config.maxDepth) (few : 10 ≤ config.maxArgs) (s : Engine) :
    ∃ t, (Source.parse e.toSource none config s).1 = .ok t ∧
      (∀ (b : Option (Bindings Float)) (stream : RandomStream),
        t.evaluate b stream = e.defined.evaluate b stream) ∧
      (e.EveryNode NotNaN → ∀ (b : Option (Bindings Float)) (stream : RandomStream),
        t.evaluate b stream = e.evaluate b stream) := by
  refine ⟨e.reread, parse_of_spelled numbers spelled s live short shallow few,
    fun b stream => evaluate_reread e stream, fun numeric b stream => ?_⟩
  rw [evaluate_reread, defined_of_notNaN e numeric]

theorem evaluate_toSource_infinity :
    let e : Expr Float := bin .sub (num (1.0 / 0.0)) (call "SQRT" [num (-2.5)])
    e.EveryNode MagnitudeReadsBack ∧ e.EveryNode NodeSpelled ∧ e.EveryNode NotNaN ∧
      ∃ t, (Source.parse "(1e999 - SQRT(-2.5))" none {} .start).1 = .ok t ∧
        ∀ (b : Option (Bindings Float)) (stream : RandomStream),
          t.evaluate b stream = e.evaluate b stream := by
  intro e
  have numbers : e.EveryNode MagnitudeReadsBack := by
    refine ⟨trivial, fun finite => absurd finite (by decide), trivial, fun _ => ?_, trivial⟩
    refine ⟨⟨false, ['2'], ['5'], 0⟩, ?_, ?_⟩
    · decide +kernel
    · decide +kernel
  have letters : "SQRT".toList = ['S', 'Q', 'R', 'T'] := by decide
  have part : ∀ c ∈ ['Q', 'R', 'T'], Token.isIdentPart c = true :=
    List.all_eq_true.1 (by decide)
  have capital : ∀ c ∈ "SQRT".toList, isSmall c = false := by
    rw [letters]
    simp [isSmall]
  have valid : IsName "SQRT" :=
    ⟨⟨⟨'S', ['Q', 'R', 'T'], letters, rfl, part⟩, by decide⟩, capital, by decide⟩
  have spelled : e.EveryNode NodeSpelled :=
    ⟨show BinaryOp.sub ∈ BinaryOp.known by decide, trivial, ⟨valid, by decide⟩, trivial, trivial⟩
  have numeric : e.EveryNode NotNaN :=
    ⟨trivial, show (1.0 / 0.0 : Float).isNaN = false by decide, trivial,
      show (-2.5 : Float).isNaN = false by decide, trivial⟩
  have infinite : numberSource (1.0 / 0.0 : Float) = "1e999" := by decide +kernel
  have negative : numberSource (-2.5 : Float) = "-2.5" := by decide +kernel
  have text : e.toSource = "(1e999 - SQRT(-2.5))" := by
    simp [e, toSource, toSources, infinite, negative, BinaryOp.text]
  have live : ({} : TimedConfig).InTime := TimedConfig.inTime_of_untimed (by decide)
  obtain ⟨t, read, -, same⟩ := evaluate_toSource numbers spelled live
    (by rw [text]; decide +kernel) (by decide) (by decide) .start
  rw [text] at read
  exact ⟨numbers, spelled, numeric, t, read, same numeric⟩

/-- The source of an undefined number is read as a tree whose value is zero. -/
theorem evaluate_toSource_undefined :
    let e : Expr Float := num (0.0 / 0.0)
    (e.evaluate none (.ofSeed 0)).1.isNaN = true ∧
      ∃ t : Expr Float, (Source.parse e.toSource none Source.unlimited .start).1 = .ok t ∧
        (t.evaluate none (.ofSeed 0)).1 = 0 := by
  intro e
  have numbers : e.EveryNode MagnitudeReadsBack := fun finite => absurd finite (by decide)
  have live : Source.unlimited.InTime := TimedConfig.inTime_of_untimed (by decide)
  have read := parse_of_spelled numbers trivial .start live (by decide +kernel) (by decide)
    (by decide)
  exact ⟨by decide, e.reread, read, by decide +kernel⟩

end DerivativeEngine.Expr
