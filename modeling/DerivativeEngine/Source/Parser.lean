import DerivativeEngine.Expr.Bindings
import DerivativeEngine.Expr.Builtin
import DerivativeEngine.Source.ParseError
import DerivativeEngine.Source.Token

/-!
Tokens as expression trees. Operators bind by a pair of powers, from `||` at the loosest to the
right-associative `^`; comparisons do not associate. Brackets, calls, exponents and operands of
a sign count as nesting.

The parser is a function on a state: the tokens to come, the nesting depth, a trace of what it
noticed on the way, and how often it has checked its deadline. It reads no clock: what the checks
find comes with the configuration, and may be anything. It stops at the first error, or, when told
to continue, skips the token at fault, stands in a zero and goes on; errors of depth and time
always stop it. Every recursion but the one into an operand follows a token that was taken, so a
multiple of the number of tokens is fuel enough.
-/

namespace DerivativeEngine

structure ParseConfig where
  timeoutMs : Float := 0.0
  continueOnError : Bool := false
  threadSafe : Bool := false
  maxLength : Int := 10000
  maxDepth : Int := 100
  maxArgs : Int := 10

/-- A configuration, and what the clock says during one parse: whether the deadline has passed at
the first check of it, at the second, and so on. -/
structure TimedConfig extends ParseConfig where
  clock : Nat → Bool := fun _ => false

/-- Is the check too late? Without a timeout there is no deadline. -/
def TimedConfig.late (c : TimedConfig) (check : Nat) : Bool := 0.0 < c.timeoutMs && c.clock check

namespace Parser

/-- What the parser noticed, in order. -/
inductive Event (α : Type) where
  | error (e : ParseError)
  | bound (name : String) (value : α)
  | called (name : String) (argc : Nat)
  | outOfDomain (message : String) (position : Nat)

structure State (α : Type) where
  rest : List Token
  depth : Nat
  deepest : Nat
  trace : Array (Event α)
  /-- How often the deadline was checked. -/
  checks : Nat

/-- Why the parser stopped before it had a tree: an error that ends the parse, a number too
large to hold, or no fuel. -/
inductive Stop where
  | failed
  | numberTooLarge
  | exhausted
  deriving DecidableEq, Repr

structure Setting (α : Type) where
  config : TimedConfig
  bindings : Option (Bindings α)
  /-- Names have to be bound or built in. -/
  strict : Bool
  /-- The end token. -/
  final : Token

end Parser

abbrev Parser (α β : Type) := ExceptT Parser.Stop (StateM (Parser.State α)) β

namespace Parser

variable {α : Type}

def peek (env : Setting α) : Parser α Token := do
  return (← get).rest.headD env.final

def advance (env : Setting α) : Parser α Token := do
  let tok ← peek env
  modify fun s => { s with rest := s.rest.tail }
  return tok

def accept (env : Setting α) (kind : TokenKind) : Parser α Bool := do
  if (← peek env).kind == kind then
    let _ ← advance env
    return true
  else return false

def note (e : Event α) : Parser α Unit :=
  modify fun s => { s with trace := s.trace.push e }

def foundText (tok : Token) : String :=
  if tok.kind == .eof then "EOF"
  else if tok.text.isEmpty then tok.kind.name
  else tok.kind.name ++ "(" ++ tok.text ++ ")"

def errorAt (tok : Token) (code : ErrorCode) (message : String) (expected : List String) :
    ParseError :=
  ⟨message, tok.start, tok.stop, expected, some (foundText tok), code⟩

/-- An error that ends the parse in every mode. -/
def abort (tok : Token) (code : ErrorCode) (message : String) : Parser α Unit := do
  note (.error (errorAt tok code message []))
  throw .failed

def fail (env : Setting α) (tok : Token) (code : ErrorCode) (message : String)
    (expected : List String) : Parser α Unit := do
  note (.error (errorAt tok code message expected))
  unless env.config.continueOnError do throw .failed

/-- Has the deadline passed at this check? -/
def isLate (env : Setting α) : Parser α Bool :=
  modifyGet fun s => (env.config.late s.checks, { s with checks := s.checks + 1 })

def checkTime (env : Setting α) : Parser α Unit := do
  if ← isLate env then abort (← peek env) .syntaxError "Parsing timeout exceeded"

def enter (env : Setting α) : Parser α Unit := do
  modify fun s => { s with depth := s.depth + 1 }
  if env.config.maxDepth < (← get).depth then
    abort (← peek env) .tooDeep
      s!"Expression too deeply nested (max depth: {env.config.maxDepth})"
  modify fun s => { s with deepest := max s.deepest s.depth }

def leave : Parser α Unit := modify fun s => { s with depth := s.depth - 1 }

def nested {β : Type} (env : Setting α) (p : Parser α β) : Parser α β := do
  enter env
  let x ← p
  leave
  return x

/-- The operator of a token between two operands, with its powers to the left and right. -/
def infix? : TokenKind → Option (BinaryOp × Nat × Nat)
  | .or => some (.or, 1, 2)
  | .and => some (.and, 3, 4)
  | .gt => some (.gt, 5, 6)
  | .lt => some (.lt, 5, 6)
  | .ge => some (.ge, 5, 6)
  | .le => some (.le, 5, 6)
  | .eq => some (.eq, 5, 6)
  | .ne => some (.ne, 5, 6)
  | .plus => some (.add, 7, 8)
  | .minus => some (.sub, 7, 8)
  | .star => some (.mul, 9, 10)
  | .slash => some (.div, 9, 10)
  | .caret => some (.pow, 11, 11)
  | _ => none

def primaryStart : List String := ["NUMBER", "IDENT", "LPAREN"]

variable [Scalar α]

def constant? (name : String) : Option α :=
  if name == "PI" then some Scalar.pi else if name == "E" then some Scalar.e else none

def numberOf (tok : Token) : Parser α α :=
  match (tok.numberValue? : Option α) with
  | some x => return x
  | none => throw .numberTooLarge

/-- A call on one literal outside its domain is replaced by zero. -/
def domainWarning? (name : String) (args : List (Expr α)) : Option String :=
  match args with
  | [.num x] =>
    if name == "SQRT" then if x < 0 then some "SQRT of negative number" else none
    else if name == "LOG" || name == "LN" then
      if x ≤ 0 then some "LOG of non-positive number" else none
    else if name == "LOG10" then if x ≤ 0 then some "LOG10 of non-positive number" else none
    else none
  | _ => none

def arityMessage (name : String) (arity given : Nat) : String :=
  s!"{name} expects {arity} argument" ++ (if arity == 1 then "" else "s") ++ s!", got {given}"

/-- What is wrong with a call of a known or unknown function, under strict names. -/
def callFault? (name : String) (given : Nat) : Option (ErrorCode × String) :=
  match Builtin.ofName? name with
  | none => some (.unknownFunc, s!"Unknown function '{name}'")
  | some f =>
    if f.arity == given then none else some (.wrongArgs, arityMessage name f.arity given)

def finishCall (env : Setting α) (nameTok : Token) (name : String) (args : List (Expr α)) :
    Parser α (Expr α) := do
  note (.called name args.length)
  let fault := if env.strict then callFault? name args.length else none
  match fault with
  | some (code, message) =>
    fail env nameTok code message []
    return .num 0
  | none =>
    match domainWarning? name args with
    | some message =>
      note (.outOfDomain message nameTok.start)
      return .num 0
    | none => return .call name args

/-- Recovery skips the token at fault. -/
def unexpected (env : Setting α) (tok : Token) : Parser α (Expr α) := do
  match tok.kind with
  | .error => fail env tok .syntaxError tok.text []
  | .rightParen => fail env tok .unmatchedParen "Unexpected closing parenthesis" primaryStart
  | .eof => fail env tok .syntaxError "Unexpected end of expression" primaryStart
  | _ => fail env tok .syntaxError "Expected number, function, or '('" primaryStart
  let _ ← advance env
  return .num 0

mutual
/-- An expression of operators that bind to the left at least as tightly as `power`. -/
def binary (env : Setting α) : Nat → Nat → Parser α (Expr α)
  | 0, _ => throw .exhausted
  | fuel + 1, power => do
    checkTime env
    let left ← unary env fuel
    operators env fuel power left false false

/-- The operators that follow `left`. A comparison after a comparison or a logical operator of
the same chain is left to the caller. -/
def operators (env : Setting α) : Nat → Nat → Expr α → Bool → Bool → Parser α (Expr α)
  | 0, _, _, _, _ => throw .exhausted
  | fuel + 1, power, left, compared, combined => do
    match infix? (← peek env).kind with
    | none => return left
    | some (op, toLeft, toRight) =>
      if toLeft < power || (op.isComparison && (compared || combined)) then return left
      else
        checkTime env
        let _ ← advance env
        let right ← if op == .pow then nested env (binary env fuel toRight)
          else binary env fuel toRight
        operators env fuel power (.bin op left right)
          (compared || op.isComparison) (combined || op.isLogical)

/-- A minus right before a number is part of the number. -/
def unary (env : Setting α) : Nat → Parser α (Expr α)
  | 0 => throw .exhausted
  | fuel + 1 => do
    match (← peek env).kind with
    | .minus =>
      let _ ← advance env
      if (← peek env).kind == .number then
        return .num (-(← numberOf (← advance env)))
      else return .un .neg (← nested env (unary env fuel))
    | .bang =>
      let _ ← advance env
      return .un .not (← nested env (unary env fuel))
    | _ => primary env fuel

def primary (env : Setting α) : Nat → Parser α (Expr α)
  | 0 => throw .exhausted
  | fuel + 1 => do
    let tok ← peek env
    match tok.kind with
    | .number => return .num (← numberOf (← advance env))
    | .ident => identifier env fuel
    | .leftParen =>
      let _ ← advance env
      let inner ← nested env (binary env fuel 0)
      unless ← accept env .rightParen do
        fail env (← peek env) .unmatchedParen "Expected closing parenthesis" ["RPAREN"]
      return inner
    | _ => unexpected env tok

/-- Constants come before bound variables, and both before functions. -/
def identifier (env : Setting α) : Nat → Parser α (Expr α)
  | 0 => throw .exhausted
  | fuel + 1 => do
    let tok ← advance env
    let name := Text.upper tok.text
    match constant? name with
    | some x => return .num x
    | none =>
      match env.bindings.bind fun b => b.lookup? name with
      | some x =>
        note (.bound name x)
        return .num x
      | none =>
        if ← accept env .leftParen then
          let args ← nested env do
            if ← accept env .rightParen then return []
            else arguments env fuel 0
          finishCall env tok name args
        else if env.strict then
          fail env tok .unknownVar s!"Unknown variable '{name}'" []
          return .num 0
        else return .var name

/-- The arguments of a call that has `count` of them so far, and the closing bracket. -/
def arguments (env : Setting α) : Nat → Nat → Parser α (List (Expr α))
  | 0, _ => throw .exhausted
  | fuel + 1, count => do
    if env.config.maxArgs ≤ count then
      fail env (← peek env) .wrongArgs
        s!"Too many function arguments (max {env.config.maxArgs})" []
      return []
    else
      let arg ← binary env fuel 0
      if ← accept env .comma then return arg :: (← arguments env fuel (count + 1))
      else if ← accept env .rightParen then return [arg]
      else
        fail env (← peek env) .syntaxError "Expected ',' or ')' in function call"
          ["COMMA", "RPAREN"]
        return [arg]
end

/-- A whole source is one expression. -/
def whole (env : Setting α) (fuel : Nat) : Parser α (Expr α) := do
  let e ← binary env fuel 0
  let tok ← peek env
  if tok.kind == .error then fail env tok .syntaxError tok.text []
  else if tok.kind != .eof then
    fail env tok .unexpectedToken "Unexpected tokens at end of expression" ["EOF"]
  return e

end Parser

/-- The end of a parse: a tree or a reason, the deepest nesting, and the trace. -/
structure ParseRun (α : Type) where
  tree : Except Parser.Stop (Expr α)
  deepest : Nat
  trace : Array (Parser.Event α)

namespace ParseRun

variable {α : Type}

def errors (r : ParseRun α) : List ParseError :=
  r.trace.toList.filterMap fun
    | .error e => some e
    | _ => none

def ofTokens [Scalar α] (config : TimedConfig) (bindings : Option (Bindings α)) (strict : Bool)
    (tokens : List Token) (final : Token) : ParseRun α :=
  let (tree, s) := Parser.whole ⟨config, bindings, strict, final⟩ (8 * (tokens.length + 2))
    ⟨tokens, 0, 0, #[], 0⟩
  ⟨tree, s.deepest, s.trace⟩

end ParseRun

end DerivativeEngine
