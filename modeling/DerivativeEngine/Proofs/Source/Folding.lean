import DerivativeEngine.Expr.Evaluation
import DerivativeEngine.Proofs.Scalar.Fields
import DerivativeEngine.Proofs.Source.Grammar

/-! Calls on literals outside their domain. They are read as zero, and zero is their value too, so
it cannot be told from the value of a tree which of its calls were taken away. -/

namespace DerivativeEngine

open Grammar

theorem evaluate_outOfDomain {name : String} {x : Float} (h : OutOfDomain name x)
    (b : Option (Bindings Float)) (s : RandomStream) :
    (Expr.call name [.num x]).evaluate b s = (0, s) := by
  obtain ⟨rfl, less⟩ | ⟨mem, le⟩ := h
  · have root : Builtin.ofName? (Text.upper "SQRT") = some (.unary .sqrt) := by decide +kernel
    have zero : UnaryFunction.sqrt.apply x = 0 := if_neg (Double.not_le_of_lt less)
    simp only [Expr.evaluate, Expr.evaluateAll, callFunction, root, zero]
  · have log : UnaryFunction.log.apply x = 0 := if_neg fun less => Double.not_le_of_lt less le
    have log10 : UnaryFunction.log10.apply x = 0 := if_neg fun less => Double.not_le_of_lt less le
    have logarithm : Builtin.ofName? (Text.upper name) = some (.unary .log) ∨
        Builtin.ofName? (Text.upper name) = some (.unary .log10) := by
      simp only [List.mem_cons, List.not_mem_nil, or_false] at mem
      rcases mem with rfl | rfl | rfl
      · exact .inl (by decide +kernel)
      · exact .inl (by decide +kernel)
      · exact .inr (by decide +kernel)
    rcases logarithm with builtin | builtin <;>
      simp only [Expr.evaluate, Expr.evaluateAll, callFunction, builtin, log, log10]

theorem evaluate_callTree (b : Option (Bindings Float)) (name : String) (args : List (Expr Float))
    (s : RandomStream) :
    (callTree name args).evaluate b s = (Expr.call name args).evaluate b s := by
  unfold callTree
  split
  · next x =>
    split
    · next out =>
      rw [evaluate_outOfDomain out]
      rfl
    · rfl
  · rfl

end DerivativeEngine
