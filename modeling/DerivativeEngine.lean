import DerivativeEngine.Arena.Told
import DerivativeEngine.Equation.Newton
import DerivativeEngine.Equation.Quadrature
import DerivativeEngine.Layer.Kind
import DerivativeEngine.ModelFile.Transfer
import DerivativeEngine.Optimize.Descent
import DerivativeEngine.Program.Compiled
import DerivativeEngine.Rewrite.Source
import DerivativeEngine.Workspace.Functions
import DerivativeEngine.Workspace.Handles
import DerivativeEngine.Proofs.Expr.Nodes
import DerivativeEngine.Proofs.Program.Compilation
import DerivativeEngine.Proofs.Source.Grammar
import DerivativeEngine.Proofs.Source.Steps
import DerivativeEngine.Proofs.Source.Powers
import DerivativeEngine.Proofs.Source.Soundness
import DerivativeEngine.Proofs.Source.Parallel
import DerivativeEngine.Proofs.Source.Recovery
import DerivativeEngine.Proofs.Source.Completeness
import DerivativeEngine.Proofs.Source.Acceptance
import DerivativeEngine.Proofs.Source.Lexing
import DerivativeEngine.Proofs.Scalar.Fields
import DerivativeEngine.Proofs.Source.Names
import DerivativeEngine.Proofs.Source.Spelling
import DerivativeEngine.Proofs.Source.RoundTrip
import DerivativeEngine.Proofs.Source.Folding
import DerivativeEngine.Proofs.Source.Reread
import DerivativeEngine.Proofs.Tape.Contributions
import DerivativeEngine.Proofs.Tape.Operands
import DerivativeEngine.Proofs.Tensor.Arrays
import DerivativeEngine.Proofs.Workspace.Session
import DerivativeEngine.Proofs.Workspace.Sound
import DerivativeEngine.Proofs.Workspace.Actions
import DerivativeEngine.Proofs.Workspace.Backward
import DerivativeEngine.Proofs.Expr.Draws
import DerivativeEngine.Proofs.Expr.Bindings
import DerivativeEngine.Proofs.Scalar.Exact
import DerivativeEngine.Proofs.Arena.Blocks
import DerivativeEngine.Proofs.Rewrite.Simplification
import DerivativeEngine.Proofs.Rewrite.Differentiation
import DerivativeEngine.Proofs.Bytes.Words
import DerivativeEngine.Proofs.ModelFile.Format
import DerivativeEngine.Proofs.Layer.Plan
import DerivativeEngine.Proofs.ModelFile.Fitting
import DerivativeEngine.Proofs.Workspace.Allocation
import DerivativeEngine.Proofs.Workspace.Filling
import DerivativeEngine.Proofs.ModelFile.Transfer
import DerivativeEngine.Proofs.ModelFile.Checkpoint
import DerivativeEngine.Proofs.Numeral.Range
import DerivativeEngine.Proofs.Source.Literals
import DerivativeEngine.Proofs.Source.Totality
import DerivativeEngine.Proofs.Source.Dialects
import DerivativeEngine.Proofs.ModelFile.Failure
import DerivativeEngine.Proofs.Workspace.Reassignment
import DerivativeEngine.Proofs.Rewrite.Factoring
import DerivativeEngine.Proofs.Equation.Roots
import DerivativeEngine.Proofs.Layer.Frame
import DerivativeEngine.Proofs.Layer.Shapes
import DerivativeEngine.Proofs.Tensor.Prefix
import DerivativeEngine.Proofs.Layer.Causality
import DerivativeEngine.Proofs.Layer.Buildable
import DerivativeEngine.Proofs.Workspace.Recorded
import DerivativeEngine.Proofs.Workspace.Reading
import DerivativeEngine.Proofs.Training.Logits
import DerivativeEngine.Proofs.ModelFile.Inference
import DerivativeEngine.Proofs.Training.Lockstep
import DerivativeEngine.Proofs.ModelFile.Resumption
import DerivativeEngine.Proofs.Program.Recency
import DerivativeEngine.Proofs.ModelFile.Refusal
import DerivativeEngine.Proofs.Workspace.Lifetimes
import DerivativeEngine.Proofs.Training.Independence
import DerivativeEngine.Proofs.Engine.Discretion
import DerivativeEngine.Proofs.Optimize.Discretion
import DerivativeEngine.Proofs.Rewrite.NormalForm
import DerivativeEngine.Proofs.Arena.Repetition
import DerivativeEngine.Proofs.Program.Addresses
import DerivativeEngine.Proofs.Text.Uppercase
import DerivativeEngine.Proofs.Engine.Results
import DerivativeEngine.Proofs.Optimize.Positions
import DerivativeEngine.Proofs.Rewrite.Antiderivation
import DerivativeEngine.Proofs.Rewrite.LinearFactors
import DerivativeEngine.Proofs.Rewrite.TaylorPolynomial
import DerivativeEngine.Proofs.Rewrite.ConstantSlope
import DerivativeEngine.Proofs.Rewrite.Substitution
import DerivativeEngine.Proofs.Rewrite.Holding
import DerivativeEngine.Proofs.Workspace.Ownership
import DerivativeEngine.Proofs.Equation.Completeness
import DerivativeEngine.Proofs.Scalar.Magnitude
import DerivativeEngine.Proofs.Equation.Guards
import DerivativeEngine.Proofs.Equation.Iterates
import DerivativeEngine.Proofs.Equation.Range
import DerivativeEngine.Proofs.Equation.Agreement
import DerivativeEngine.Proofs.Equation.Panels
import DerivativeEngine.Proofs.Optimize.Pursuit
import DerivativeEngine.Proofs.Optimize.Iteration
import DerivativeEngine.Proofs.Optimize.Decrease
import DerivativeEngine.Proofs.Optimize.Convergence
import DerivativeEngine.Proofs.Optimize.Resumption
import DerivativeEngine.Proofs.Tensor.Rows
import DerivativeEngine.Proofs.Tensor.Sums
import DerivativeEngine.Proofs.Tape.Checks
import DerivativeEngine.Proofs.Tape.FirstOrder
import DerivativeEngine.Proofs.Tape.Adjoint
import DerivativeEngine.Proofs.Tape.Jacobian
import DerivativeEngine.Proofs.Tape.Derivatives
import DerivativeEngine.Proofs.Tape.Normalisation
import DerivativeEngine.Proofs.Optimize.Averages
import DerivativeEngine.Proofs.Training.Adaptive
import DerivativeEngine.Proofs.Workspace.Accounting
import DerivativeEngine.Proofs.ModelFile.Truncation
import DerivativeEngine.Proofs.Scalar.Reals
import DerivativeEngine.Proofs.Tensor.RealArrays
import DerivativeEngine.Proofs.Layer.Attention
import DerivativeEngine.Proofs.Workspace.Attention
import DerivativeEngine.Proofs.Tensor.Balance
import DerivativeEngine.Proofs.Tape.Reals
import DerivativeEngine.Proofs.Workspace.Passing
import DerivativeEngine.Proofs.Workspace.Cancelling
import DerivativeEngine.Proofs.Layer.KeyBias
import DerivativeEngine.Proofs.Training.Initial
import DerivativeEngine.Proofs.Training.KeyBias
import DerivativeEngine.Proofs.Workspace.Expiry
import DerivativeEngine.Proofs.Workspace.Counting
import DerivativeEngine.Proofs.Expr.Writes
import DerivativeEngine.Proofs.Source.Spans
import DerivativeEngine.Proofs.Source.Depth
import DerivativeEngine.Proofs.Source.Reports
import DerivativeEngine.Proofs.Source.Casing
import DerivativeEngine.Proofs.Source.CallStack
import DerivativeEngine.Proofs.Rewrite.Equality
