import DerivativeEngine.Proofs.Source.Totality

/-! The parser with its calls on a stack. The parser is written once more here, as it reads a row of
tokens by their places, with the calls that have not come to an end at hand. It can read past the
end of the row, and it keeps a record of every stack of calls. On a row with one end token it does
what the parser does and never reads past its end. The record is small: a call is of higher rank
than its caller, or one level down, so the limit of depth bounds every stack, however long the row
is. -/

namespace DerivativeEngine

namespace Parser

open Grammar

variable {α β γ : Type}

/-- The functions of the parser that call one another. -/
inductive Routine where
  | binary (power : Nat)
  | unary
  | primary
  | identifier
  | call
  deriving DecidableEq

/-- A call that has not come to its end, with the depth it was made at. -/
structure Frame where
  routine : Routine
  depth : Nat
  deriving DecidableEq

namespace Watched

/-- The parser's state, with a place in the row instead of the tokens to come. -/
structure State (α : Type) where
  index : Nat
  depth : Nat
  deepest : Nat
  trace : Array (Event α)
  checks : Nat
  /-- Every stack of calls there was. -/
  history : List (List Frame)

def State.start : State α := ⟨0, 0, 0, #[], 0, []⟩

/-- Why the watched parser stopped: as the parser does, or by reading past the end of the row. -/
inductive Stop where
  | stopped (why : Parser.Stop)
  | pastEnd
  deriving DecidableEq

end Watched

/-- The parser as it reads a row of tokens by their places and keeps a record of its calls. -/
abbrev Watched (α β : Type) := ExceptT Watched.Stop (StateM (Watched.State α)) β

namespace Watched

def silently (p : Parser α β) : Watched α β := fun s =>
  let (r, t) := p ⟨[], s.depth, s.deepest, s.trace, s.checks⟩
  (r.mapError .stopped,
    { s with depth := t.depth, deepest := t.deepest, trace := t.trace, checks := t.checks })

def peek (row : List Token) : Watched α Token := do
  match row[(← get).index]? with
  | some tok => return tok
  | none => throw .pastEnd

def advance (row : List Token) : Watched α Token := do
  let tok ← peek row
  unless tok.kind == .eof do modify fun s => { s with index := s.index + 1 }
  return tok

def accept (row : List Token) (kind : TokenKind) : Watched α Bool := do
  if (← peek row).kind == kind then
    let _ ← advance row
    return true
  else return false

def checkTime (env : Setting α) (row : List Token) : Watched α Unit := do
  if ← silently (isLate env) then
    silently (abort (← peek row) .syntaxError "Parsing timeout exceeded")

def enter (env : Setting α) (row : List Token) : Watched α Unit := do
  modify fun s => { s with depth := s.depth + 1 }
  if env.config.maxDepth < (← get).depth then
    silently (abort (← peek row) .tooDeep
      s!"Expression too deeply nested (max depth: {env.config.maxDepth})")
  modify fun s => { s with deepest := max s.deepest s.depth }

def nested (env : Setting α) (row : List Token) (p : Watched α β) : Watched α β := do
  enter env row
  let x ← p
  silently leave
  return x

def calling (routine : Routine) (stack : List Frame) (body : List Frame → Watched α β) :
    Watched α β := do
  let grown := ⟨routine, (← get).depth⟩ :: stack
  modify fun s => { s with history := grown :: s.history }
  body grown

variable [Scalar α]

def unexpected (env : Setting α) (row : List Token) (tok : Token) : Watched α (Expr α) := do
  match tok.kind with
  | .error => silently (fail env tok .syntaxError tok.text [])
  | .rightParen =>
    silently (fail env tok .unmatchedParen "Unexpected closing parenthesis" primaryStart)
  | .eof => silently (fail env tok .syntaxError "Unexpected end of expression" primaryStart)
  | _ => silently (fail env tok .syntaxError "Expected number, function, or '('" primaryStart)
  let _ ← advance row
  return .num 0

mutual
def binary (env : Setting α) (row : List Token) :
    Nat → List Frame → Nat → Watched α (Expr α)
  | 0, _, _ => throw (.stopped .exhausted)
  | fuel + 1, stack, power => calling (.binary power) stack fun stack => do
    checkTime env row
    let left ← unary env row fuel stack
    operators env row fuel stack power left false false

def operators (env : Setting α) (row : List Token) :
    Nat → List Frame → Nat → Expr α → Bool → Bool → Watched α (Expr α)
  | 0, _, _, _, _, _ => throw (.stopped .exhausted)
  | fuel + 1, stack, power, left, compared, combined => do
    match infix? (← peek row).kind with
    | none => return left
    | some (op, toLeft, toRight) =>
      if toLeft < power || (op.isComparison && (compared || combined)) then return left
      else
        checkTime env row
        let _ ← advance row
        let right ← if op == .pow then nested env row (binary env row fuel stack toRight)
          else binary env row fuel stack toRight
        operators env row fuel stack power (.bin op left right)
          (compared || op.isComparison) (combined || op.isLogical)

def unary (env : Setting α) (row : List Token) : Nat → List Frame → Watched α (Expr α)
  | 0, _ => throw (.stopped .exhausted)
  | fuel + 1, stack => calling .unary stack fun stack => do
    match (← peek row).kind with
    | .minus =>
      let _ ← advance row
      if (← peek row).kind == .number then
        return .num (-(← silently (numberOf (← advance row))))
      else return .un .neg (← nested env row (unary env row fuel stack))
    | .bang =>
      let _ ← advance row
      return .un .not (← nested env row (unary env row fuel stack))
    | _ => primary env row fuel stack

def primary (env : Setting α) (row : List Token) : Nat → List Frame → Watched α (Expr α)
  | 0, _ => throw (.stopped .exhausted)
  | fuel + 1, stack => calling .primary stack fun stack => do
    let tok ← peek row
    match tok.kind with
    | .number => return .num (← silently (numberOf (← advance row)))
    | .ident => identifier env row fuel stack
    | .leftParen =>
      let _ ← advance row
      let inner ← nested env row (binary env row fuel stack 0)
      unless ← accept row .rightParen do
        silently (fail env (← peek row) .unmatchedParen "Expected closing parenthesis" ["RPAREN"])
      return inner
    | _ => unexpected env row tok

def identifier (env : Setting α) (row : List Token) : Nat → List Frame → Watched α (Expr α)
  | 0, _ => throw (.stopped .exhausted)
  | fuel + 1, stack => calling .identifier stack fun stack => do
    let tok ← advance row
    let name := Text.upper tok.text
    match constant? name with
    | some x => return .num x
    | none =>
      match env.bindings.bind fun b => b.lookup? name with
      | some x =>
        silently (note (.bound name x))
        return .num x
      | none =>
        if ← accept row .leftParen then
          calling .call stack fun stack => do
            let args ← nested env row do
              if ← accept row .rightParen then return []
              else arguments env row fuel stack 0
            silently (finishCall env tok name args)
        else if env.strict then
          silently (fail env tok .unknownVar s!"Unknown variable '{name}'" [])
          return .num 0
        else return .var name

def arguments (env : Setting α) (row : List Token) :
    Nat → List Frame → Nat → Watched α (List (Expr α))
  | 0, _, _ => throw (.stopped .exhausted)
  | fuel + 1, stack, count => do
    if env.config.maxArgs ≤ count then
      silently (fail env (← peek row) .wrongArgs
        s!"Too many function arguments (max {env.config.maxArgs})" [])
      return []
    else
      let arg ← binary env row fuel stack 0
      if ← accept row .comma then return arg :: (← arguments env row fuel stack (count + 1))
      else if ← accept row .rightParen then return [arg]
      else
        silently (fail env (← peek row) .syntaxError "Expected ',' or ')' in function call"
          ["COMMA", "RPAREN"])
        return [arg]
end

def whole (env : Setting α) (row : List Token) (fuel : Nat) : Watched α (Expr α) := do
  let e ← binary env row fuel [] 0
  let tok ← peek row
  if tok.kind == .error then silently (fail env tok .syntaxError tok.text [])
  else if tok.kind != .eof then
    silently (fail env tok .unexpectedToken "Unexpected tokens at end of expression" ["EOF"])
  return e

/-- The parse of these tokens, on the row that the end token closes. -/
def ofTokens (config : TimedConfig) (bindings : Option (Bindings α)) (strict : Bool)
    (tokens : List Token) (final : Token) : Except Stop (Expr α) × State α :=
  whole ⟨config, bindings, strict, final⟩ (tokens ++ [final]) (8 * (tokens.length + 2)) .start

end Watched

/-- Among calls at one depth the rank grows from caller to callee. -/
def Routine.rank : Routine → Nat
  | .binary power => (Level.ofPower power).rank + 1
  | .unary => 7
  | .primary => 8
  | .identifier => 9
  | .call => 10

theorem Routine.rank_binary_le (power : Nat) : (Routine.binary power).rank ≤ 6 :=
  Nat.succ_le_succ (Level.rank_ofPower_le_pow power)

theorem Routine.rank_le (routine : Routine) : routine.rank ≤ 10 := by
  cases routine with
  | binary power => exact Nat.le_trans (rank_binary_le power) (by decide)
  | _ => decide

theorem Routine.rank_pos (routine : Routine) : 0 < routine.rank := by
  cases routine with
  | binary power => exact Nat.succ_pos _
  | _ => decide

/-- The right operand of an operator binds more tightly than what the operator stands in, but for
the exponent, which is read one level down. -/
theorem rank_right_operand {k : TokenKind} {op : BinaryOp} {toLeft toRight power : Nat}
    (operator : infix? k = some (op, toLeft, toRight)) (other : op ≠ .pow)
    (binds : power ≤ toLeft) :
    (Routine.binary power).rank < (Routine.binary toRight).rank := by
  rw [infix?_eq, Option.map_eq_some_iff] at operator
  obtain ⟨r, rule, powers⟩ := operator
  obtain ⟨rfl, rfl, rfl⟩ :
      r.op = op ∧ r.level.leftPower = toLeft ∧ r.level.rightPower = toRight := by
    simpa using powers
  have small : r.level.leftPower ≤ 11 :=
    (by decide : ∀ r ∈ rules, r.level.leftPower ≤ 11) r (mem_rules rule)
  have loose := (Level.rank_ofPower_le_iff (level_rank_le rule)
    (Nat.le_trans binds small)).2 binds
  have tight : r.level.rank < r.right.rank :=
    (by decide : ∀ r ∈ rules, r.op ≠ .pow → r.level.rank < r.right.rank) r (mem_rules rule) other
  rw [Routine.rank, Routine.rank, ofPower_rightPower rule]
  omega

inductive Callable (limit : Int) : Routine → Nat → List Frame → Prop
  | first : Callable limit (.binary 0) 0 []
  | further {caller callee : Routine} {depth : Nat} {stack : List Frame} :
      Callable limit caller depth stack → caller.rank < callee.rank →
        Callable limit callee depth (⟨caller, depth⟩ :: stack)
  | deeper {caller : Routine} (callee : Routine) {depth : Nat} {stack : List Frame} :
      Callable limit caller depth stack → ((depth + 1 : Nat) : Int) ≤ limit →
        Callable limit callee (depth + 1) (⟨caller, depth⟩ :: stack)

def Frame.isBinaryAt (depth : Nat) (frame : Frame) : Bool :=
  frame.depth == depth && match frame.routine with
    | .binary _ => true
    | _ => false

theorem Frame.of_isBinaryAt {depth : Nat} {frame : Frame} (h : frame.isBinaryAt depth = true) :
    frame.depth = depth ∧ frame.routine.rank ≤ 6 := by
  obtain ⟨routine, at_depth⟩ := frame
  obtain ⟨here, binary⟩ := Bool.and_eq_true_iff.1 h
  refine ⟨beq_iff_eq.1 here, ?_⟩
  cases routine with
  | binary power => exact Routine.rank_binary_le power
  | _ => simp at binary

structure Small (limit : Int) (calls : List Frame) : Prop where
  length : calls.length ≤ 10 * (limit.toNat + 1)
  binaries : ∀ depth, calls.countP (·.isBinaryAt depth) ≤ 6

namespace Callable

variable {limit : Int} {routine : Routine} {depth : Nat} {stack : List Frame}

theorem depth_le (h : Callable limit routine depth stack) : depth ≤ limit.toNat := by
  induction h with
  | first => exact Nat.zero_le _
  | further _ _ ih => exact ih
  | deeper _ _ fits _ => omega

theorem length_lt (h : Callable limit routine depth stack) :
    stack.length < 10 * depth + routine.rank := by
  induction h with
  | first => decide
  | further _ further ih =>
    rw [List.length_cons]
    omega
  | @deeper caller callee depth stack _ _ ih =>
    have low := callee.rank_pos
    have high := caller.rank_le
    rw [List.length_cons]
    omega

/-- The binary calls at one depth are of growing rank, and there are six ranks for them. -/
theorem countP_isBinaryAt (h : Callable limit routine depth stack) (d : Nat) :
    (depth < d → (⟨routine, depth⟩ :: stack).countP (·.isBinaryAt d) = 0) ∧
      (depth = d → (⟨routine, depth⟩ :: stack).countP (·.isBinaryAt d) ≤ routine.rank) ∧
      (⟨routine, depth⟩ :: stack).countP (·.isBinaryAt d) ≤ 6 := by
  induction h with
  | first =>
    rw [List.countP_cons, List.countP_nil]
    split
    · next top =>
      obtain ⟨here, -⟩ := Frame.of_isBinaryAt top
      exact ⟨fun above => absurd here (Nat.ne_of_lt above), fun _ => Routine.rank_pos _, by decide⟩
    · exact ⟨fun _ => rfl, fun _ => Nat.zero_le _, by decide⟩
  | @further caller callee depth stack _ further ih =>
    rw [List.countP_cons]
    split
    · next top =>
      obtain ⟨here, rank⟩ := Frame.of_isBinaryAt top
      dsimp only at here rank
      omega
    · omega
  | @deeper caller callee depth stack _ _ ih =>
    have low := callee.rank_pos
    rw [List.countP_cons]
    split
    · next top =>
      obtain ⟨here, -⟩ := Frame.of_isBinaryAt top
      dsimp only at here
      omega
    · omega

theorem small (h : Callable limit routine depth stack) :
    Small limit (⟨routine, depth⟩ :: stack) where
  length := by
    have deep := h.depth_le
    have long := h.length_lt
    have rank := routine.rank_le
    rw [List.length_cons]
    omega
  binaries d := (h.countP_isBinaryAt d).2.2

end Callable

namespace Watched

def outcome (w : Watched α β) (s : State α) : Except Stop β × State α := w s

theorem outcome_bind (w : Watched α β) (f : β → Watched α γ) (s : State α) :
    outcome (w >>= f) s = match outcome w s with
      | (.ok x, s₁) => outcome (f x) s₁
      | (.error e, s₁) => (.error e, s₁) := by
  change outcome (ExceptT.bind w f) s = _
  simp only [outcome, ExceptT.bind, ExceptT.mk, bind, StateT.bind]
  rcases w s with ⟨_ | x, s₁⟩ <;> rfl

@[simp] theorem outcome_get (s : State α) : outcome get s = (.ok s, s) := rfl

@[simp] theorem outcome_modify (f : State α → State α) (s : State α) :
    outcome (modify f) s = (.ok (), f s) := rfl

def State.plain (tokens : List Token) (s : State α) : Parser.State α :=
  ⟨tokens.drop s.index, s.depth, s.deepest, s.trace, s.checks⟩

structure State.Sound (limit : Int) (tokens : List Token) (s : State α) : Prop where
  index : s.index ≤ tokens.length
  history : ∀ calls ∈ s.history, Small limit calls

structure Agrees (limit : Int) (tokens : List Token) (depth : Nat)
    (r : Except Stop β × State α) (r' : Except Parser.Stop β × Parser.State α) : Prop where
  result : r.1 = r'.1.mapError .stopped
  state : r.2.plain tokens = r'.2
  sound : r.2.Sound limit tokens
  depth : ∀ x, r.1 = .ok x → r.2.depth = depth

theorem Agrees.bind {limit : Int} {tokens : List Token} {depth depth' : Nat} {w : Watched α β}
    {p : Parser α β} {f : β → Watched α γ} {g : β → Parser α γ} {s : State α}
    {s' : Parser.State α} (h : Agrees limit tokens depth (outcome w s) (Parser.outcome p s'))
    (next : ∀ x s₁, s₁.Sound limit tokens → s₁.depth = depth →
      Agrees limit tokens depth' (outcome (f x) s₁) (Parser.outcome (g x) (s₁.plain tokens))) :
    Agrees limit tokens depth' (outcome (w >>= f) s) (Parser.outcome (p >>= g) s') := by
  rw [outcome_bind, Parser.outcome_bind]
  generalize outcome w s = r at h ⊢
  generalize Parser.outcome p s' = r' at h ⊢
  obtain ⟨result, state, sound, level⟩ := h
  rcases r with ⟨e | x, s₁⟩ <;> rcases r' with ⟨e' | x', s₁'⟩
  · exact ⟨by simpa [Except.mapError] using result, state, sound, by simp⟩
  · cases result
  · cases result
  · obtain rfl : x = x' := by simpa [Except.mapError] using result
    obtain rfl : s₁.plain tokens = s₁' := state
    exact next x s₁ sound (level x rfl)

/-- From every sound state at this depth the watched parser does what the parser does. -/
def Follows (limit : Int) (tokens : List Token) (depth : Nat) (w : Watched α β)
    (p : Parser α β) : Prop :=
  ∀ s : State α, s.Sound limit tokens → s.depth = depth →
    Agrees limit tokens depth (outcome w s) (Parser.outcome p (s.plain tokens))

def Logs (p : Parser α β) : Prop :=
  ∀ s : Parser.State α, ∃ r trace checks, ∀ rest, Parser.outcome p { s with rest := rest } =
    (r, { s with rest := rest, trace := trace, checks := checks })

namespace Follows

variable {limit : Int} {tokens : List Token} {depth : Nat}

theorem bind {w : Watched α β} {p : Parser α β} {f : β → Watched α γ} {g : β → Parser α γ}
    (h : Follows limit tokens depth w p) (k : ∀ x, Follows limit tokens depth (f x) (g x)) :
    Follows limit tokens depth (w >>= f) (p >>= g) :=
  fun s sound level => (h s sound level).bind k

theorem pure (x : β) : Follows limit tokens depth (pure x : Watched α β) (Pure.pure x) :=
  fun _ sound level => ⟨rfl, rfl, sound, fun _ _ => level⟩

theorem exhausted : Follows limit tokens depth
    (throw (.stopped .exhausted) : Watched α β) (throw .exhausted) :=
  fun _ sound _ => ⟨rfl, rfl, sound, by rintro _ ⟨⟩⟩

theorem branch {c : Prop} [Decidable c] {w w' : Watched α β} {p p' : Parser α β}
    (yes : Follows limit tokens depth w p) (no : Follows limit tokens depth w' p') :
    Follows limit tokens depth (if c then w else w') (if c then p else p') := by
  split
  · exact yes
  · exact no

theorem silently {p : Parser α β} (logs : Logs p) : Follows limit tokens depth (silently p) p := by
  intro s sound level
  obtain ⟨r, trace, checks, run⟩ := logs (s.plain tokens)
  have silent : outcome (Watched.silently p) s =
      (r.mapError .stopped, { s with trace := trace, checks := checks }) := by
    have unread := run []
    simp only [outcome, Watched.silently]
    simp only [Parser.outcome, State.plain] at unread
    rw [unread]
  rw [silent, run (s.plain tokens).rest]
  exact ⟨rfl, rfl, ⟨sound.index, sound.history⟩, fun _ _ => level⟩

theorem calling {routine : Routine} {stack : List Frame} {body : List Frame → Watched α β}
    {p : Parser α β} (callable : Callable limit routine depth stack)
    (h : Follows limit tokens depth (body (⟨routine, depth⟩ :: stack)) p) :
    Follows limit tokens depth (calling routine stack body) p := by
  intro s sound level
  subst level
  refine h { s with history := (⟨routine, s.depth⟩ :: stack) :: s.history } ⟨sound.index, ?_⟩ rfl
  intro calls mem
  rcases List.mem_cons.1 mem with rfl | mem
  · exact callable.small
  · exact sound.history calls mem

end Follows

namespace Logs

theorem pure (x : β) : Logs (Pure.pure x : Parser α β) :=
  fun s => ⟨_, s.trace, s.checks, fun _ => rfl⟩

theorem isLate (env : Setting α) : Logs (isLate env) :=
  fun s => ⟨.ok (env.config.late s.checks), s.trace, s.checks + 1, fun _ => rfl⟩

theorem bind {p : Parser α β} {f : β → Parser α γ} (h : Logs p) (k : ∀ x, Logs (f x)) :
    Logs (p >>= f) := by
  intro s
  obtain ⟨r, trace, checks, run⟩ := h s
  rcases r with e | x
  · refine ⟨.error e, trace, checks, fun rest => ?_⟩
    rw [Parser.outcome_bind, run]
  · obtain ⟨r', trace', checks', run'⟩ := k x { s with trace := trace, checks := checks }
    refine ⟨r', trace', checks', fun rest => ?_⟩
    rw [outcome_bind_of_ok (run rest), run']

theorem note (e : Event α) : Logs (note e) := fun s =>
  ⟨.ok (), s.trace.push e, s.checks, fun _ => rfl⟩

theorem fail (env : Setting α) (tok : Token) (code : ErrorCode) (message : String)
    (expected : List String) : Logs (fail env tok code message expected) := fun s =>
  ⟨if env.config.continueOnError then .ok () else .error .failed,
    s.trace.push (.error (errorAt tok code message expected)), s.checks,
    fun rest => outcome_fail env tok code message expected { s with rest := rest }⟩

theorem abort (tok : Token) (code : ErrorCode) (message : String) :
    Logs (abort tok code message : Parser α Unit) := fun s =>
  ⟨.error .failed, s.trace.push (.error (errorAt tok code message [])), s.checks, fun _ => rfl⟩

variable [Scalar α]

theorem numberOf (tok : Token) : Logs (numberOf tok : Parser α α) := by
  unfold Parser.numberOf
  split
  · exact pure _
  · exact fun s => ⟨_, s.trace, s.checks, fun _ => rfl⟩

theorem finishCall (env : Setting α) (nameTok : Token) (name : String) (args : List (Expr α)) :
    Logs (finishCall env nameTok name args) := by
  unfold Parser.finishCall
  refine (note _).bind fun _ => ?_
  dsimp only
  split
  · exact (fail env _ _ _ _).bind fun _ => pure _
  · split
    · exact (note _).bind fun _ => pure _
    · exact pure _

end Logs

structure Row (env : Setting α) (tokens : List Token) : Prop where
  inner : ∀ tok ∈ tokens, tok.kind ≠ .eof
  last : env.final.kind = .eof

theorem getElem?_row (tokens : List Token) (final : Token) {i : Nat} (index : i ≤ tokens.length) :
    (tokens ++ [final])[i]? = some ((tokens.drop i).headD final) := by
  rcases Nat.lt_or_eq_of_le index with inside | rfl
  · rw [List.getElem?_append_left inside, List.drop_eq_getElem_cons inside,
      List.getElem?_eq_getElem inside]
    rfl
  · rw [List.getElem?_append_right (Nat.le_refl _), Nat.sub_self, List.drop_length]
    rfl

theorem outcome_peek (env : Setting α) {tokens : List Token} {s : State α}
    (index : s.index ≤ tokens.length) :
    outcome (peek (tokens ++ [env.final])) s = (.ok ((s.plain tokens).head env), s) := by
  have here := getElem?_row tokens env.final index
  rw [peek, outcome_bind]
  change outcome (match (tokens ++ [env.final])[s.index]? with
    | some tok => return tok
    | none => throw .pastEnd) s = _
  rw [here]
  rfl

theorem Row.ended_iff {env : Setting α} {tokens : List Token} (row : Row env tokens) {s : State α}
    (index : s.index ≤ tokens.length) :
    ((s.plain tokens).head env).kind = .eof ↔ s.index = tokens.length := by
  constructor
  · intro ended
    by_contra before
    have inside : s.index < tokens.length := Nat.lt_of_le_of_ne index before
    have here : (s.plain tokens).head env = tokens[s.index] := by
      rw [State.head, State.plain, List.drop_eq_getElem_cons inside]
      rfl
    exact row.inner _ (List.getElem_mem inside) (here ▸ ended)
  · intro past
    rw [State.head, State.plain, past, List.drop_length]
    exact row.last

def State.down (s : State α) : State α :=
  { s with depth := s.depth + 1, deepest := max s.deepest (s.depth + 1) }

theorem outcome_enter (env : Setting α) {tokens : List Token} {s : State α}
    (index : s.index ≤ tokens.length) :
    outcome (enter env (tokens ++ [env.final])) s =
      if ((s.depth + 1 : Nat) : Int) ≤ env.config.maxDepth then (.ok (), s.down)
      else (.error (.stopped .failed), { s with
        depth := s.depth + 1
        trace := s.trace.push (.error (tooDeep env (s.plain tokens))) }) := by
  have here := outcome_peek env (s := { s with depth := s.depth + 1 }) index
  by_cases fits : ((s.depth + 1 : Nat) : Int) ≤ env.config.maxDepth
  · have low : ¬ env.config.maxDepth < ((s.depth + 1 : Nat) : Int) := by omega
    simp only [enter, outcome_bind, outcome_modify, outcome_get, low, fits, if_true, if_false]
    rfl
  · have high : env.config.maxDepth < ((s.depth + 1 : Nat) : Int) := by omega
    simp only [enter, outcome_bind, outcome_modify, outcome_get, high, fits, if_true, if_false,
      here]
    rfl

namespace Follows

variable {env : Setting α} {tokens : List Token} {depth : Nat} {limit : Int}

theorem peek : Follows limit tokens depth (peek (tokens ++ [env.final])) (Parser.peek env) := by
  intro s sound level
  rw [outcome_peek env sound.index]
  exact ⟨rfl, rfl, sound, fun _ _ => level⟩

theorem advance (row : Row env tokens) :
    Follows limit tokens depth (advance (tokens ++ [env.final])) (Parser.advance env) := by
  intro s sound level
  rw [Watched.advance, outcome_bind, outcome_peek env sound.index, outcome_advance]
  dsimp only
  by_cases ended : ((s.plain tokens).head env).kind = .eof
  · have past : s.index = tokens.length := (row.ended_iff sound.index).1 ended
    rw [beq_iff_eq.2 ended]
    refine ⟨rfl, ?_, sound, fun _ _ => level⟩
    change s.plain tokens = (s.plain tokens).drop
    simp only [State.plain, State.drop, past, List.drop_length, List.tail_nil]
  · have inside : s.index < tokens.length :=
      Nat.lt_of_le_of_ne sound.index (mt (row.ended_iff sound.index).2 ended)
    rw [beq_eq_false_iff_ne.2 ended]
    refine ⟨rfl, ?_, ⟨inside, sound.history⟩, fun _ _ => level⟩
    change State.plain tokens { s with index := s.index + 1 } = (s.plain tokens).drop
    simp only [State.plain, State.drop, List.tail_drop]

theorem accept (row : Row env tokens) (kind : TokenKind) :
    Follows limit tokens depth (accept (tokens ++ [env.final]) kind) (Parser.accept env kind) :=
  peek.bind fun _ => branch ((advance row).bind fun _ => pure _) (pure _)

theorem checkTime :
    Follows limit tokens depth (checkTime env (tokens ++ [env.final])) (Parser.checkTime env) :=
  (silently (.isLate env)).bind fun _ =>
    branch (peek.bind fun _ => silently (.abort _ _ _)) (pure _)

theorem nested {w : Watched α β} {p : Parser α β}
    (h : ((depth + 1 : Nat) : Int) ≤ env.config.maxDepth → Follows limit tokens (depth + 1) w p) :
    Follows limit tokens depth (nested env (tokens ++ [env.final]) w) (Parser.nested env p) := by
  intro s sound level
  subst level
  rw [Watched.nested, Parser.nested, outcome_bind, Parser.outcome_bind,
    outcome_enter env sound.index, Parser.outcome_enter]
  have here : (s.plain tokens).depth = s.depth := rfl
  rw [here]
  by_cases fits : ((s.depth + 1 : Nat) : Int) ≤ env.config.maxDepth
  · have inner := h fits s.down ⟨sound.index, sound.history⟩ rfl
    have same : s.down.plain tokens = (s.plain tokens).down := rfl
    rw [same] at inner
    rw [if_pos fits, if_pos fits]
    dsimp only
    refine inner.bind fun x s₁ sound₁ level₁ => ?_
    refine ⟨rfl, rfl, ⟨sound₁.index, sound₁.history⟩, fun _ _ => ?_⟩
    change s₁.depth - 1 = s.depth
    omega
  · rw [if_neg fits, if_neg fits]
    exact ⟨rfl, rfl, ⟨sound.index, sound.history⟩, by rintro _ ⟨⟩⟩

theorem unexpected [Scalar α] (row : Row env tokens) (tok : Token) :
    Follows limit tokens depth (unexpected env (tokens ++ [env.final]) tok)
      (Parser.unexpected env tok) := by
  have skip : Follows limit tokens depth
      (Watched.advance (tokens ++ [env.final]) >>= fun _ =>
        (Pure.pure (.num 0) : Watched α (Expr α)))
      (Parser.advance env >>= fun _ => Pure.pure (.num 0)) :=
    (advance row).bind fun _ => pure _
  unfold Watched.unexpected Parser.unexpected
  generalize tok.kind = kind
  cases kind <;> exact (silently (.fail env _ _ _ _)).bind fun _ => skip

end Follows

variable [Scalar α]

/-- With this much fuel every function of the watched parser does what the parser's does, on every
stack it may be called on. -/
structure Mirrors (env : Setting α) (tokens : List Token) (n : Nat) : Prop where
  binary : ∀ {depth : Nat} {stack : List Frame} (power : Nat),
    Callable env.config.maxDepth (.binary power) depth stack →
      Follows env.config.maxDepth tokens depth
        (Watched.binary env (tokens ++ [env.final]) n stack power) (Parser.binary env n power)
  operators : ∀ {depth : Nat} {stack : List Frame} (power : Nat) (left : Expr α)
    (compared combined : Bool), Callable env.config.maxDepth (.binary power) depth stack →
      Follows env.config.maxDepth tokens depth
        (Watched.operators env (tokens ++ [env.final]) n (⟨.binary power, depth⟩ :: stack) power
          left compared combined) (Parser.operators env n power left compared combined)
  unary : ∀ {depth : Nat} {stack : List Frame},
    Callable env.config.maxDepth .unary depth stack → Follows env.config.maxDepth tokens depth
      (Watched.unary env (tokens ++ [env.final]) n stack) (Parser.unary env n)
  primary : ∀ {depth : Nat} {stack : List Frame},
    Callable env.config.maxDepth .primary depth stack → Follows env.config.maxDepth tokens depth
      (Watched.primary env (tokens ++ [env.final]) n stack) (Parser.primary env n)
  identifier : ∀ {depth : Nat} {stack : List Frame},
    Callable env.config.maxDepth .identifier depth stack → Follows env.config.maxDepth tokens depth
      (Watched.identifier env (tokens ++ [env.final]) n stack) (Parser.identifier env n)
  arguments : ∀ {depth : Nat} {stack : List Frame} (count : Nat),
    Callable env.config.maxDepth .call depth stack →
    ((depth + 1 : Nat) : Int) ≤ env.config.maxDepth →
      Follows env.config.maxDepth tokens (depth + 1)
        (Watched.arguments env (tokens ++ [env.final]) n (⟨.call, depth⟩ :: stack) count)
        (Parser.arguments env n count)

namespace Follows

variable {env : Setting α} {tokens : List Token} {n depth : Nat} {stack : List Frame}
  (row : Row env tokens) (ih : Mirrors env tokens n)

include ih

theorem binary_succ (power : Nat) (h : Callable env.config.maxDepth (.binary power) depth stack) :
    Follows env.config.maxDepth tokens depth
      (Watched.binary env (tokens ++ [env.final]) (n + 1) stack power)
      (Parser.binary env (n + 1) power) := by
  rw [Watched.binary, Parser.binary]
  have tighter : (Routine.binary power).rank < Routine.unary.rank :=
    Nat.lt_succ_of_le (Routine.rank_binary_le power)
  exact calling h (checkTime.bind fun _ => (ih.unary (h.further tighter)).bind fun left =>
    ih.operators power left false false h)

include row

theorem operators_succ (power : Nat) (left : Expr α) (compared combined : Bool)
    (h : Callable env.config.maxDepth (.binary power) depth stack) :
    Follows env.config.maxDepth tokens depth
      (Watched.operators env (tokens ++ [env.final]) (n + 1) (⟨.binary power, depth⟩ :: stack)
        power left compared combined)
      (Parser.operators env (n + 1) power left compared combined) := by
  -- Only the operand goes on the stack: an exponent one level down, any other at a higher rank.
  rw [Watched.operators, Parser.operators]
  refine peek.bind fun tok => ?_
  rcases operator : infix? tok.kind with _ | ⟨op, toLeft, toRight⟩
  · exact pure left
  · dsimp only
    by_cases done : toLeft < power || (op.isComparison && (compared || combined))
    · rw [if_pos done, if_pos done]
      exact pure left
    · rw [if_neg done, if_neg done]
      have binds : power ≤ toLeft := by
        simp only [Bool.or_eq_true, decide_eq_true_eq] at done
        omega
      refine checkTime.bind fun _ => (advance row).bind fun _ => ?_
      have next : ∀ right : Expr α, Follows env.config.maxDepth tokens depth
          (Watched.operators env (tokens ++ [env.final]) n (⟨.binary power, depth⟩ :: stack) power
            (.bin op left right) (compared || op.isComparison) (combined || op.isLogical))
          (Parser.operators env n power (.bin op left right) (compared || op.isComparison)
            (combined || op.isLogical)) := fun right => ih.operators power _ _ _ h
      by_cases exponent : op = .pow
      · rw [if_pos (beq_iff_eq.2 exponent), if_pos (beq_iff_eq.2 exponent)]
        exact (nested fun fits => ih.binary toRight (h.deeper _ fits)).bind next
      · rw [if_neg (mt beq_iff_eq.1 exponent), if_neg (mt beq_iff_eq.1 exponent)]
        exact (ih.binary toRight (h.further (rank_right_operand operator exponent binds))).bind next

theorem unary_succ (h : Callable env.config.maxDepth .unary depth stack) :
    Follows env.config.maxDepth tokens depth
      (Watched.unary env (tokens ++ [env.final]) (n + 1) stack) (Parser.unary env (n + 1)) := by
  rw [Watched.unary, Parser.unary]
  refine calling h (peek.bind fun tok => ?_)
  have operand : Follows env.config.maxDepth tokens depth
      (Watched.nested env (tokens ++ [env.final])
        (Watched.unary env (tokens ++ [env.final]) n (⟨.unary, depth⟩ :: stack)))
      (Parser.nested env (Parser.unary env n)) :=
    nested fun fits => ih.unary (h.deeper .unary fits)
  generalize tok.kind = kind
  cases kind with
  | minus =>
    refine (advance row).bind fun _ => peek.bind fun next => branch ?_ ?_
    · exact (advance row).bind fun _ => (silently (.numberOf _)).bind fun _ => pure _
    · exact operand.bind fun _ => pure _
  | bang => exact (advance row).bind fun _ => operand.bind fun _ => pure _
  | _ => exact ih.primary (h.further (by decide))

theorem primary_succ (h : Callable env.config.maxDepth .primary depth stack) :
    Follows env.config.maxDepth tokens depth
      (Watched.primary env (tokens ++ [env.final]) (n + 1) stack)
      (Parser.primary env (n + 1)) := by
  rw [Watched.primary, Parser.primary]
  refine calling h (peek.bind fun tok => ?_)
  dsimp only
  generalize tok.kind = kind
  cases kind with
  | number => exact (advance row).bind fun _ => (silently (.numberOf _)).bind fun _ => pure _
  | ident => exact ih.identifier (h.further (by decide))
  | leftParen =>
    refine (advance row).bind fun _ =>
      (nested fun fits => ih.binary 0 (h.deeper _ fits)).bind fun inner =>
        (accept row _).bind fun closed => branch (pure _) ?_
    exact peek.bind fun _ => (silently (.fail env _ _ _ _)).bind fun _ => pure _
  | _ => exact unexpected row tok

theorem identifier_succ (h : Callable env.config.maxDepth .identifier depth stack) :
    Follows env.config.maxDepth tokens depth
      (Watched.identifier env (tokens ++ [env.final]) (n + 1) stack)
      (Parser.identifier env (n + 1)) := by
  rw [Watched.identifier, Parser.identifier]
  refine calling h ((advance row).bind fun tok => ?_)
  dsimp only
  rcases constant? (Text.upper tok.text) with _ | x
  · rcases env.bindings.bind fun b => b.lookup? (Text.upper tok.text) with _ | x
    · refine (accept row _).bind fun opening => branch ?_ (branch ?_ (pure _))
      · have call : Callable env.config.maxDepth .call depth (⟨.identifier, depth⟩ :: stack) :=
          h.further (by decide)
        refine calling call ?_
        refine (nested fun fits => ?_).bind fun args => silently (.finishCall env tok _ args)
        exact (accept row _).bind fun _ => branch (pure _) (ih.arguments 0 call fits)
      · exact (silently (.fail env _ _ _ _)).bind fun _ => pure _
    · exact (silently (.note _)).bind fun _ => pure _
  · exact pure _

theorem arguments_succ (count : Nat) (h : Callable env.config.maxDepth .call depth stack)
    (fits : ((depth + 1 : Nat) : Int) ≤ env.config.maxDepth) :
    Follows env.config.maxDepth tokens (depth + 1)
      (Watched.arguments env (tokens ++ [env.final]) (n + 1) (⟨.call, depth⟩ :: stack) count)
      (Parser.arguments env (n + 1) count) := by
  rw [Watched.arguments, Parser.arguments]
  refine branch ?_ ?_
  · exact peek.bind fun _ => (silently (.fail env _ _ _ _)).bind fun _ => pure _
  · refine (ih.binary 0 (h.deeper _ fits)).bind fun arg => (accept row _).bind fun _ => branch ?_ ?_
    · exact (ih.arguments _ h fits).bind fun _ => pure _
    · refine (accept row _).bind fun _ => branch (pure _) ?_
      exact peek.bind fun _ => (silently (.fail env _ _ _ _)).bind fun _ => pure _

end Follows

variable {env : Setting α} {tokens : List Token}

theorem mirrors (row : Row env tokens) (n : Nat) : Mirrors env tokens n := by
  induction n with
  | zero =>
    constructor <;> intros <;>
      simp only [binary, operators, unary, primary, identifier, arguments, Parser.binary,
        Parser.operators, Parser.unary, Parser.primary, Parser.identifier, Parser.arguments] <;>
      exact .exhausted
  | succ n ih =>
    exact ⟨Follows.binary_succ ih, Follows.operators_succ row ih, Follows.unary_succ row ih,
      Follows.primary_succ row ih, Follows.identifier_succ row ih, Follows.arguments_succ row ih⟩

theorem whole_follows (row : Row env tokens) (n : Nat) :
    Follows env.config.maxDepth tokens 0 (whole env (tokens ++ [env.final]) n)
      (Parser.whole env n) := by
  refine ((mirrors row n).binary 0 .first).bind fun e => Follows.peek.bind fun tok => ?_
  refine .branch ?_ (.branch ?_ (.pure e))
  all_goals exact (Follows.silently (.fail env _ _ _ _)).bind fun _ => .pure e

end Watched

end Parser

namespace ParseRun

variable {α : Type} [Scalar α]

/-- Of tokens with one end token every parse comes to its end, after at most two errors for each
token and two more. The watched parser makes the same of them, and it never reads past the end
token. Its calls are never stacked higher than ten for each level that the limit of depth allows
and ten more, and at one depth there are at most six that read binary operators. -/
theorem ofTokens_bounded (config : TimedConfig) (bindings : Option (Bindings α)) (strict : Bool)
    {tokens : List Token} {final : Token} (inner : ∀ tok ∈ tokens, tok.kind ≠ .eof)
    (last : final.kind = .eof) :
    let parse := ofTokens config bindings strict tokens final
    let watched := Parser.Watched.ofTokens config bindings strict tokens final
    parse.tree ≠ .error .exhausted ∧ parse.errors.length ≤ 2 * tokens.length + 2 ∧
      (watched.1 = parse.tree.mapError .stopped ∧ watched.2.deepest = parse.deepest ∧
        watched.2.trace = parse.trace) ∧
      (watched.1 ≠ .error .pastEnd ∧ watched.2.index ≤ tokens.length) ∧
      ∀ calls ∈ watched.2.history, calls.length ≤ 10 * (config.maxDepth.toNat + 1) ∧
        ∀ depth, calls.countP (·.isBinaryAt depth) ≤ 6 := by
  intro parse watched
  have ends : parse.tree ≠ .error .exhausted := by
    rcases @ofTokens_ends α _ config bindings strict tokens final last with
      ⟨t, tree⟩ | ⟨tree, -⟩ | ⟨tree, -⟩
    all_goals
      rw [tree]
      simp
  let env : Parser.Setting α := ⟨config, bindings, strict, final⟩
  have row : Parser.Watched.Row env tokens := ⟨inner, last⟩
  obtain ⟨result, state, sound, -⟩ := Parser.Watched.whole_follows row (8 * (tokens.length + 2))
    .start ⟨Nat.zero_le _, by simp [Parser.Watched.State.start]⟩ rfl
  have same : watched.1 = parse.tree.mapError .stopped := result
  refine ⟨ends, length_errors_le last, ⟨same, congrArg (·.deepest) state,
    congrArg (·.trace) state⟩, ⟨?_, sound.index⟩, fun calls mem => ?_⟩
  · rw [same]
    rcases parse.tree with why | t <;> simp [Except.mapError]
  · have small := sound.history calls mem
    exact ⟨small.length, small.binaries⟩

theorem ofTokens_bounded_unclosed :
    let config : TimedConfig := { continueOnError := true, maxDepth := 3 }
    let tokens := Token.lexemes "SIN(1+-(X*,"
    let final := Token.endAt 11
    let parse := ofTokens (α := Float) config none false tokens final
    let watched := Parser.Watched.ofTokens (α := Float) config none false tokens final
    ((∀ tok ∈ tokens, tok.kind ≠ .eof) ∧ final.kind = .eof) ∧
      parse.errors.length = 3 ∧ 3 ≤ 2 * tokens.length + 2 ∧
      (watched.2.history.map List.length).max? = some 14 ∧
      ∀ calls ∈ watched.2.history, calls.length ≤ 40 := by
  intro config tokens final parse watched
  have inner : ∀ tok ∈ tokens, tok.kind ≠ .eof := by decide +kernel
  have last : final.kind = .eof := by decide
  obtain ⟨-, few, -, -, small⟩ := ofTokens_bounded (α := Float) config none false inner last
  have three : parse.errors.length = 3 := by decide +kernel
  refine ⟨⟨inner, last⟩, three, ?_, by decide +kernel, fun calls mem => (small calls mem).1⟩
  exact Nat.le_trans (Nat.le_of_eq three.symm) few

/-- Below zero a limit is no lower than zero: the calls for a name are made all the same. -/
theorem ofTokens_negative_limit :
    let config : TimedConfig := { maxDepth := -1 }
    let tokens := Token.lexemes "X"
    let final := Token.endAt 1
    let watched := Parser.Watched.ofTokens (α := Float) config none false tokens final
    ((∀ tok ∈ tokens, tok.kind ≠ .eof) ∧ final.kind = .eof) ∧
      (ofTokens config none false tokens final).tree = .ok (.var "X" : Expr Float) ∧
      ∃ calls ∈ watched.2.history, ∀ c : Nat, c * (config.maxDepth + 1) < calls.length := by
  refine ⟨⟨by decide +kernel, by decide⟩, by with_unfolding_all rfl,
    [⟨.binary 0, 0⟩], by decide +kernel, fun c => ?_⟩
  simp

end ParseRun

end DerivativeEngine
