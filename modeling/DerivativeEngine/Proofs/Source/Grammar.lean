import DerivativeEngine.Source.Parser

/-! The grammar of expressions, level by level from the loosest to the tightest:

    or       := and | or "||" and
    and      := cmp | and "&&" cmp
    cmp      := add | add (">" | "<" | ">=" | "<=" | "==" | "!=") add
    add      := mul | add ("+" | "-") mul
    mul      := pow | mul ("*" | "/") pow
    pow      := unary | unary "^" pow
    unary    := primary | ("!" | "-") unary
    primary  := number | ident | ident "(" ")" | ident "(" arguments ")" | "(" or ")"
    arguments := or | or "," arguments

Each rule says which tree its phrase stands for and how deep the phrase nests: brackets, calls,
exponents and operands of a sign go one level down. A minus right before a number belongs to the
number, names are resolved as constants, then as bound, and only a name that is neither can be
called, and a call on one literal outside its domain stands for zero. -/

namespace DerivativeEngine.Grammar

inductive Level where
  | or | and | cmp | add | mul | pow | unary | primary
  deriving DecidableEq, Repr

def Level.rank : Level → Nat
  | or => 0 | and => 1 | cmp => 2 | add => 3 | mul => 4 | pow => 5 | unary => 6 | primary => 7

/-- An operator between two operands, the level of the phrase and the levels of the operands. -/
structure Rule where
  op : BinaryOp
  level : Level
  left : Level
  right : Level
  deriving DecidableEq, Repr

def rule? : TokenKind → Option Rule
  | .or => some ⟨.or, .or, .or, .and⟩
  | .and => some ⟨.and, .and, .and, .cmp⟩
  | .gt => some ⟨.gt, .cmp, .add, .add⟩
  | .lt => some ⟨.lt, .cmp, .add, .add⟩
  | .ge => some ⟨.ge, .cmp, .add, .add⟩
  | .le => some ⟨.le, .cmp, .add, .add⟩
  | .eq => some ⟨.eq, .cmp, .add, .add⟩
  | .ne => some ⟨.ne, .cmp, .add, .add⟩
  | .plus => some ⟨.add, .add, .add, .mul⟩
  | .minus => some ⟨.sub, .add, .add, .mul⟩
  | .star => some ⟨.mul, .mul, .mul, .pow⟩
  | .slash => some ⟨.div, .mul, .mul, .pow⟩
  | .caret => some ⟨.pow, .pow, .unary, .pow⟩
  | _ => none

def Rule.descent (r : Rule) : Nat := if r.op = .pow then 1 else 0

/-- What a setting says about names and calls. -/
structure Dialect (α : Type) where
  bindings : Option (Bindings α)
  strict : Bool
  maxArgs : Int

section

variable {α : Type} [Scalar α]

def constants : List (String × α) := [("PI", Scalar.pi), ("E", Scalar.e)]

theorem notConstant_iff {name : String} :
    (∀ x : α, (name, x) ∉ constants) ↔ name ≠ "PI" ∧ name ≠ "E" := by
  unfold constants
  grind

def bound? (lang : Dialect α) (name : String) : Option α :=
  lang.bindings.bind fun b => b.lookup? name

structure Free (lang : Dialect α) (name : String) : Prop where
  constant : ∀ x : α, (name, x) ∉ constants
  bound : bound? lang name = none

/-- The function has no value for this number. -/
def OutOfDomain (name : String) (x : α) : Prop :=
  name = "SQRT" ∧ x < 0 ∨ name ∈ ["LOG", "LN", "LOG10"] ∧ x ≤ 0

instance (name : String) (x : α) : Decidable (OutOfDomain name x) :=
  inferInstanceAs (Decidable (_ ∨ _))

def callTree (name : String) : List (Expr α) → Expr α
  | [.num x] => if OutOfDomain name x then .num 0 else .call name [.num x]
  | args => .call name args

/-- Under strict names a call has to fit a built-in. -/
def Callable (lang : Dialect α) (name : String) (argc : Nat) : Prop :=
  lang.strict = true → ∃ f, Builtin.ofName? name = some f ∧ f.arity = argc

mutual
/-- The tokens are a phrase of the level, which nests so deep and stands for the tree. -/
inductive Phrase (lang : Dialect α) : Level → Nat → List Token → Expr α → Prop
  | tighter {l m : Level} {d : Nat} {ts : List Token} {e : Expr α} (loose : l.rank ≤ m.rank)
      (h : Phrase lang m d ts e) : Phrase lang l d ts e
  | binary {r : Rule} {tok : Token} {d₁ d₂ : Nat} {ts us : List Token} {e₁ e₂ : Expr α}
      (rule : rule? tok.kind = some r) (left : Phrase lang r.left d₁ ts e₁)
      (right : Phrase lang r.right d₂ us e₂) :
      Phrase lang r.level (max d₁ (d₂ + r.descent)) (ts ++ tok :: us) (.bin r.op e₁ e₂)
  | negative {sign tok : Token} {x : α} (minus : sign.kind = .minus) (kind : tok.kind = .number)
      (value : tok.numberValue? = some x) : Phrase lang .unary 0 [sign, tok] (.num (-x))
  | negate {sign : Token} {d : Nat} {ts : List Token} {e : Expr α} (minus : sign.kind = .minus)
      (unfolded : ∀ t ∈ ts.head?, t.kind ≠ .number) (h : Phrase lang .unary d ts e) :
      Phrase lang .unary (d + 1) (sign :: ts) (.un .neg e)
  | not {sign : Token} {d : Nat} {ts : List Token} {e : Expr α} (bang : sign.kind = .bang)
      (h : Phrase lang .unary d ts e) : Phrase lang .unary (d + 1) (sign :: ts) (.un .not e)
  | number {tok : Token} {x : α} (kind : tok.kind = .number) (value : tok.numberValue? = some x) :
      Phrase lang .primary 0 [tok] (.num x)
  | constant {tok : Token} {x : α} (kind : tok.kind = .ident)
      (value : (Text.upper tok.text, x) ∈ constants) :
      Phrase lang .primary 0 [tok] (.num x)
  | bound {tok : Token} {x : α} (kind : tok.kind = .ident)
      (constant : ∀ y : α, (Text.upper tok.text, y) ∉ constants)
      (value : bound? lang (Text.upper tok.text) = some x) : Phrase lang .primary 0 [tok] (.num x)
  | name {tok : Token} (kind : tok.kind = .ident) (free : Free lang (Text.upper tok.text))
      (loose : lang.strict = false) : Phrase lang .primary 0 [tok] (.var (Text.upper tok.text))
  | emptyCall {tok lp rp : Token} (kind : tok.kind = .ident)
      (free : Free lang (Text.upper tok.text))
      (opening : lp.kind = .leftParen) (closing : rp.kind = .rightParen)
      (callable : Callable lang (Text.upper tok.text) 0) :
      Phrase lang .primary 1 [tok, lp, rp] (callTree (Text.upper tok.text) [])
  | call {tok lp rp : Token} {d : Nat} {ts : List Token} {args : List (Expr α)}
      (kind : tok.kind = .ident) (free : Free lang (Text.upper tok.text))
      (opening : lp.kind = .leftParen) (closing : rp.kind = .rightParen)
      (h : Arguments lang d ts args) (few : (args.length : Int) ≤ lang.maxArgs)
      (callable : Callable lang (Text.upper tok.text) args.length) :
      Phrase lang .primary (d + 1) (tok :: lp :: (ts ++ [rp])) (callTree (Text.upper tok.text) args)
  | brackets {lp rp : Token} {d : Nat} {ts : List Token} {e : Expr α}
      (opening : lp.kind = .leftParen) (closing : rp.kind = .rightParen)
      (h : Phrase lang .or d ts e) : Phrase lang .primary (d + 1) (lp :: (ts ++ [rp])) e
inductive Arguments (lang : Dialect α) : Nat → List Token → List (Expr α) → Prop
  | last {d : Nat} {ts : List Token} {e : Expr α} (h : Phrase lang .or d ts e) :
      Arguments lang d ts [e]
  | more {d₁ d₂ : Nat} {comma : Token} {ts us : List Token} {e : Expr α} {es : List (Expr α)}
      (separator : comma.kind = .comma) (h : Phrase lang .or d₁ ts e)
      (rest : Arguments lang d₂ us es) : Arguments lang (max d₁ d₂) (ts ++ comma :: us) (e :: es)
end

def openings : List TokenKind := [.minus, .bang, .number, .ident, .leftParen]

theorem Phrase.opens {lang : Dialect α} {l : Level} {d : Nat} {ts : List Token} {e : Expr α} :
    Phrase lang l d ts e → ∃ t us, ts = t :: us ∧ t.kind ∈ openings
  | .tighter _ h => h.opens
  | .binary _ left _ => by
    obtain ⟨t, us, rfl, kind⟩ := left.opens
    exact ⟨t, _, rfl, kind⟩
  | .negative minus _ _ | .negate minus _ _ => ⟨_, _, rfl, by simp [minus, openings]⟩
  | .not bang _ => ⟨_, _, rfl, by simp [bang, openings]⟩
  | .number kind _ => ⟨_, _, rfl, by simp [kind, openings]⟩
  | .constant kind _ | .bound kind _ _ | .name kind _ _ => ⟨_, _, rfl, by simp [kind, openings]⟩
  | .emptyCall kind _ _ _ _ | .call kind _ _ _ _ _ _ => ⟨_, _, rfl, by simp [kind, openings]⟩
  | .brackets opening _ _ => ⟨_, _, rfl, by simp [opening, openings]⟩

theorem Arguments.opens {lang : Dialect α} {d : Nat} {ts : List Token} {es : List (Expr α)}
    (h : Arguments lang d ts es) : ∃ t us, ts = t :: us ∧ t.kind ∈ openings := by
  cases h with
  | last h => exact h.opens
  | more _ h _ =>
    obtain ⟨t, us, rfl, kind⟩ := h.opens
    exact ⟨t, _, rfl, kind⟩

end

end DerivativeEngine.Grammar

namespace DerivativeEngine.Parser

def Setting.dialect {α : Type} (env : Setting α) : Grammar.Dialect α :=
  ⟨env.bindings, env.strict, env.config.maxArgs⟩

section

open Grammar (OutOfDomain callTree constants)

variable {α : Type} [Scalar α] {name : String} {x : α} {args : List (Expr α)}

theorem constant?_eq_some_iff : constant? name = some x ↔ (name, x) ∈ constants := by
  unfold constant? constants
  grind

theorem constant?_eq_none_iff :
    constant? (α := α) name = none ↔ ∀ x : α, (name, x) ∉ constants := by
  simp only [← constant?_eq_some_iff, Option.eq_none_iff_forall_ne_some, ne_eq]

theorem domainWarning?_num : (domainWarning? name [.num x]).isSome = true ↔ OutOfDomain name x := by
  unfold domainWarning? OutOfDomain
  grind

theorem eq_literal_of_domainWarning {message : String}
    (h : domainWarning? name args = some message) : ∃ x, args = [.num x] ∧ OutOfDomain name x := by
  have warned : (domainWarning? name args).isSome = true := by rw [h, Option.isSome_some]
  unfold domainWarning? at h
  split at h
  · next x => exact ⟨x, rfl, domainWarning?_num.1 warned⟩
  · cases h

theorem domainWarning?_eq_none_iff :
    domainWarning? name args = none ↔ ∀ x, args = [.num x] → ¬ OutOfDomain name x := by
  constructor
  · rintro silent x rfl out
    rw [← domainWarning?_num, silent] at out
    cases out
  · intro inside
    rw [Option.eq_none_iff_forall_ne_some]
    intro message h
    obtain ⟨x, rfl, out⟩ := eq_literal_of_domainWarning h
    exact inside x rfl out

theorem callTree_of_warning {message : String} (h : domainWarning? name args = some message) :
    callTree name args = .num 0 := by
  obtain ⟨x, rfl, out⟩ := eq_literal_of_domainWarning h
  exact if_pos out

theorem callTree_of_silent (h : domainWarning? name args = none) :
    callTree name args = .call name args := by
  unfold callTree
  split
  · next x => exact if_neg (domainWarning?_eq_none_iff.1 h x rfl)
  · rfl

theorem callFault?_eq_none_iff {argc : Nat} :
    callFault? name argc = none ↔ ∃ f, Builtin.ofName? name = some f ∧ f.arity = argc := by
  unfold callFault?
  cases Builtin.ofName? name with
  | none => simp
  | some f => simp

end

end DerivativeEngine.Parser
