import DerivativeEngine.Engine
import DerivativeEngine.Rewrite.Equality

/-!
Reading source: into a tree, which fails with the first error; into a value, with every error
recorded; and into a bare value, which is zero after any error.
-/

namespace DerivativeEngine

/-- Why a source has no tree. A hexadecimal literal beyond the doubles is no parse error. -/
inductive ReadFailure where
  | parse (e : ParseError)
  | numberTooLarge
  deriving DecidableEq, Repr

structure ParseResult (α : Type) where
  value : α
  tree : Option (Expr α)
  hasError : Bool
  error : ErrorInfo
  errors : List ErrorInfo
  errorCount : Nat

namespace ParseResult

variable {α : Type}

def success (value : α) (tree : Expr α) : ParseResult α :=
  ⟨value, some tree, false, .none, [], 0⟩

def failure [Zero α] (tree : Option (Expr α)) (first : ErrorInfo) (others : List ErrorInfo) :
    ParseResult α :=
  ⟨0, tree, true, first, first :: others, others.length + 1⟩

def report (r : ParseResult α) (source : Option String) : String :=
  if r.hasError then r.error.report source else ""

end ParseResult

namespace Source

variable {α : Type} [Scalar α] [NumberText α]

/-- What refuses a source before it is read. Length is counted in bytes. -/
def refusal? (source : Option String) (config : TimedConfig) : Option ErrorInfo :=
  match source with
  | none => some ⟨.emptyExpr, 0, "Expression is NULL", none⟩
  | some s =>
    if s.toList.all Text.isBlank then some ⟨.emptyExpr, 0, "Expression is empty", none⟩
    else if config.maxLength < s.utf8ByteSize then
      some ⟨.tooLong, 0,
        s!"Expression too long ({s.utf8ByteSize} chars, max {config.maxLength})", none⟩
    else none

/-- Says what a parser noticed. -/
def tell (source : String) (threadSafe : Bool) : Parser.Event α → Run Unit
  | .error e => Run.reportError e.info source
  | .bound name x =>
    Run.debug .vars (fun _ => name ++ " = " ++ NumberText.general 6 x) threadSafe
  | .called name argc => Run.debug .funcs (fun _ => s!"{name}({argc} args)") threadSafe
  | .outOfDomain message position =>
    Run.record .parser .warning s!"{message} at index {position}; using 0"

def noTree (source : String) : ParseError :=
  ⟨"Expression could not be parsed", 0, source.length, [], none, .syntaxError⟩

/-- The parse of a source, told to the engine; the time it took shows as `T`. The stack is taken to
hold all calls of the parser. One that does not, under a depth limit too large for it, would end
the parse with one more `TOO_DEEP`, which names the limit of the stack; that has no place here. -/
def readTree (source : String) (bindings : Option (Bindings α)) (config : TimedConfig)
    (strict : Bool) : Run (ParseRun α) := do
  let tokens := Token.lexemes source
  let final := Token.endAt source.length
  for tok in tokens ++ [final] do
    Run.debug .tokens (fun _ => tok.kind.name ++ " " ++ Text.quoted tok.text) config.threadSafe
  let r := ParseRun.ofTokens config bindings strict tokens final
  for e in r.trace do tell source config.threadSafe e
  match r.tree with
  | .error .numberTooLarge => return r
  | .error _ => pure ()
  | .ok e => Run.debug .ast (fun _ => "\n" ++ e.outline (fun _ => 0) 0) config.threadSafe
  Run.debug .timing
    (fun _ => s!"parsed {source.length} chars in T us (max depth {r.deepest})") config.threadSafe
  return r

/-- The tree of a source. Bound names are replaced by their values and others stay. -/
def parse (source : String) (bindings : Option (Bindings α)) (config : TimedConfig) :
    Run (Except ReadFailure (Expr α)) := do
  match refusal? (some source) config with
  | some e =>
    Run.reportError e source
    return .error (.parse (.ofInfo e))
  | none =>
    let r ← readTree source bindings config false
    match r.tree, r.errors with
    | .error .numberTooLarge, _ => return .error .numberTooLarge
    | _, e :: _ => return .error (.parse e)
    | .ok tree, [] => return .ok tree
    | .error _, [] => return .error (.parse (noTree source))

/-- No length and no depth is too large. -/
def unlimited : TimedConfig := { maxLength := 1000000000, maxDepth := 1000000000 }

/-- Does the text of a tree read back as an equal tree? It fails to read at all where a call has
more arguments than are allowed by default. -/
def readsBack (e : Expr α) : Run (Except ReadFailure Bool) := do
  match ← parse e.toSource none unlimited with
  | .ok e' => return .ok (e'.equal e)
  | .error failure => return .error failure

/-- The value of a source. With `free`, unknown names stay in the tree as zeros; without, they
are errors. -/
def parseValue (source : Option String) (bindings : Option (Bindings α)) (config : TimedConfig)
    (free : Bool) : Run (Except ReadFailure (ParseResult α)) := do
  match refusal? source config with
  | some e =>
    Run.reportError e (source.getD "")
    return .ok (.failure none e [])
  | none =>
    let text := source.getD ""
    let r ← readTree text bindings config (!free)
    match r.tree, r.errors with
    | .error .numberTooLarge, _ => return .error .numberTooLarge
    | tree, e :: es => return .ok (.failure tree.toOption e.info (es.map ParseError.info))
    | .ok tree, [] => return .ok (.success (← tree.run bindings) tree)
    | .error _, [] =>
      return .ok (.failure none ⟨.syntaxError, 0, (noTree text).message, none⟩ [])

/-- The value of a source, or zero with its errors in the log. -/
def parseAndEvaluate (source : Option String) (bindings : Option (Bindings α)) :
    Run (Except ReadFailure α) := do
  match ← parseValue source bindings {} false with
  | .error e => return .error e
  | .ok r =>
    if r.hasError then
      for e in r.errors do
        Run.record .parser .error s!"{e.message} (at index {e.position})"
    return .ok r.value

end Source

end DerivativeEngine
