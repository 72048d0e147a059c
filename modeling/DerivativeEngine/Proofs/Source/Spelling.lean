import DerivativeEngine.Proofs.Source.Names
import DerivativeEngine.Proofs.Source.Powers

/-! Phrases put together from characters. A text is written as a phrase when, in front of any text
that breaks, its tokens are those of the phrase. Brackets, operators, signs and calls around written
texts are written texts again. A sign needs an operand that does not start with what would belong
to the sign: a digit after a minus, or an equals sign after a bang. -/

namespace DerivativeEngine.Grammar

variable {α : Type} [Scalar α]

def Dialect.plain (maxArgs : Int) : Dialect α := ⟨none, false, maxArgs⟩

variable {k : Int} {l m : Level} {d d₁ d₂ : Nat} {cs cs₁ cs₂ : List Char} {e e₁ e₂ : Expr α}

/-- In front of any text that breaks, the characters are the tokens of the phrase. -/
def Writes (k : Int) (l : Level) (d : Nat) (cs : List Char) (e : Expr α) : Prop :=
  ∀ pos rest, Breaks rest → ∃ ts pos',
    Token.ofChars pos 0 (cs ++ rest) = ts ++ Token.ofChars pos' 0 rest ∧ Phrase (.plain k) l d ts e

def WritesAll (k : Int) (d : Nat) (cs : List Char) (es : List (Expr α)) : Prop :=
  ∀ pos rest, ∃ ts pos', Token.ofChars pos 0 (cs ++ ')' :: rest) =
    ts ++ Token.ofChars pos' 0 (')' :: rest) ∧ Arguments (.plain k) d ts es

theorem Writes.tighter (h : Writes k m d cs e) (loose : l.rank ≤ m.rank) :
    Writes k l d cs e := by
  intro pos rest breaks
  obtain ⟨ts, pos', tokens, phrase⟩ := h pos rest breaks
  exact ⟨ts, pos', tokens, phrase.tighter loose⟩

theorem numberValue?_of_scanDecimal {tok : Token} {literal : Numeral.Literal} {x : α}
    (text : tok.text = String.ofList cs) (scanned : Numeral.scanDecimal cs = some (literal, []))
    (value : Scalar.ofLiteral? literal = some x) : tok.numberValue? = some x := by
  have whole := Numeral.scanLiteral_append Breaks.nil scanned
  rw [List.append_nil] at whole
  rw [Token.numberValue?, text, String.toList_ofList, whole]
  exact value

theorem writes_number {literal : Numeral.Literal} {x : α}
    (scanned : Numeral.scanDecimal cs = some (literal, []))
    (value : Scalar.ofLiteral? literal = some x) : Writes k .primary 0 cs (.num x) := by
  intro pos rest breaks
  obtain ⟨tok, pos', tokens, kind, text⟩ := (Token.spells_number breaks scanned).token pos
  exact ⟨[tok], pos', tokens, .number kind (numberValue?_of_scanDecimal text scanned value)⟩

theorem writes_negative {literal : Numeral.Literal} {x : α}
    (scanned : Numeral.scanDecimal cs = some (literal, []))
    (value : Scalar.ofLiteral? literal = some x) :
    Writes k .unary 0 ('-' :: cs) (.num (-x)) := by
  intro pos rest breaks
  have minus : Token.Spells ['-'] (cs ++ rest) .minus := Token.spells_bracket (by decide)
  obtain ⟨sign, pos₁, tokens₁, kind₁, -⟩ := minus.token pos
  obtain ⟨tok, pos₂, tokens₂, kind₂, text⟩ := (Token.spells_number breaks scanned).token pos₁
  rw [tokens₂] at tokens₁
  exact ⟨[sign, tok], pos₂, tokens₁,
    .negative kind₁ kind₂ (numberValue?_of_scanDecimal text scanned value)⟩

theorem spells_isName {name : String} (h : IsName name) {rest : List Char}
    (stop : ∀ c ∈ rest.head?, Token.isIdentPart c = false) (pos : Nat) :
    ∃ tok pos', Token.ofChars pos 0 (name.toList ++ rest) = tok :: Token.ofChars pos' 0 rest ∧
      tok.kind = .ident ∧ Text.upper tok.text = name := by
  obtain ⟨c, cs, hcs, start, part⟩ := h.identifier.letters
  have short := h.identifier.short
  rw [hcs] at short ⊢
  obtain ⟨tok, pos', tokens, kind, text⟩ := (Token.spells_name stop start part short).token pos
  refine ⟨tok, pos', tokens, kind, ?_⟩
  rw [text, ← hcs, String.ofList_toList, upper_of_isName h]

theorem free_of_isName {name : String} (h : IsName name) :
    Free (α := α) (.plain k) name :=
  ⟨notConstant_iff.2 h.notConstant, rfl⟩

theorem writes_name {name : String} (h : IsName name) :
    Writes (α := α) k .primary 0 name.toList (.var name) := by
  intro pos rest breaks
  obtain ⟨tok, pos', tokens, kind, upper⟩ :=
    spells_isName h (breaks.head_false rfl rfl rfl) pos
  have free : Free (α := α) (.plain k) (Text.upper tok.text) := by
    rw [upper]
    exact free_of_isName h
  have phrase := Phrase.name kind free rfl
  rw [upper] at phrase
  exact ⟨[tok], pos', tokens, phrase⟩

theorem Writes.brackets (h : Writes k .or d cs e) :
    Writes k .primary (d + 1) ('(' :: (cs ++ [')'])) e := by
  intro pos rest _
  have opening : Token.Spells ['('] (cs ++ ')' :: rest) .leftParen :=
    Token.spells_bracket (by decide)
  obtain ⟨lp, pos₁, tokens₁, kind₁, -⟩ := opening.token pos
  obtain ⟨ts, pos₂, tokens₂, phrase⟩ := h pos₁ (')' :: rest) (.cons (.inr (.inl rfl)))
  have closing : Token.Spells [')'] rest .rightParen := Token.spells_bracket (by decide)
  obtain ⟨rp, pos₃, tokens₃, kind₃, -⟩ := closing.token pos₂
  rw [List.singleton_append] at tokens₁ tokens₃
  rw [tokens₂, tokens₃] at tokens₁
  refine ⟨lp :: (ts ++ [rp]), pos₃, ?_, .brackets kind₁ kind₃ phrase⟩
  simpa using tokens₁

theorem spells_operator {op : BinaryOp} (known : op ∈ BinaryOp.known) (rest : List Char) :
    ∃ kind r, rule? kind = some r ∧ r.op = op ∧
      Token.Spells op.text.toList (' ' :: rest) kind := by
  simp only [BinaryOp.known, List.mem_cons, List.not_mem_nil, or_false] at known
  rcases known with rfl | rfl | rfl | rfl | rfl | rfl | rfl | rfl | rfl | rfl | rfl | rfl | rfl
  · exact ⟨.plus, _, rfl, rfl, Token.spells_single (c := '+') (by decide) rfl rfl⟩
  · exact ⟨.minus, _, rfl, rfl, Token.spells_single (c := '-') (by decide) rfl rfl⟩
  · exact ⟨.star, _, rfl, rfl, Token.spells_single (c := '*') (by decide) rfl rfl⟩
  · exact ⟨.slash, _, rfl, rfl, Token.spells_single (c := '/') (by decide) rfl rfl⟩
  · exact ⟨.caret, _, rfl, rfl, Token.spells_single (c := '^') (by decide) rfl rfl⟩
  · exact ⟨.and, _, rfl, rfl, @Token.spells_pair '&' '&' _ _ (by decide) rfl⟩
  · exact ⟨.or, _, rfl, rfl, @Token.spells_pair '|' '|' _ _ (by decide) rfl⟩
  · exact ⟨.gt, _, rfl, rfl, Token.spells_single (c := '>') (by decide) rfl rfl⟩
  · exact ⟨.lt, _, rfl, rfl, Token.spells_single (c := '<') (by decide) rfl rfl⟩
  · exact ⟨.ge, _, rfl, rfl, @Token.spells_pair '>' '=' _ _ (by decide) rfl⟩
  · exact ⟨.le, _, rfl, rfl, @Token.spells_pair '<' '=' _ _ (by decide) rfl⟩
  · exact ⟨.eq, _, rfl, rfl, @Token.spells_pair '=' '=' _ _ (by decide) rfl⟩
  · exact ⟨.ne, _, rfl, rfl, @Token.spells_pair '!' '=' _ _ (by decide) rfl⟩

theorem Writes.binary {op : BinaryOp} (known : op ∈ BinaryOp.known)
    (left : Writes k .unary d₁ cs₁ e₁) (right : Writes k .unary d₂ cs₂ e₂) :
    Writes k .primary (max d₁ (d₂ + if op = .pow then 1 else 0) + 1)
      ('(' :: (cs₁ ++ ' ' :: (op.text.toList ++ ' ' :: (cs₂ ++ [')'])))) (.bin op e₁ e₂) := by
  have inside : Writes k .or (max d₁ (d₂ + if op = .pow then 1 else 0))
      (cs₁ ++ ' ' :: (op.text.toList ++ ' ' :: cs₂)) (.bin op e₁ e₂) := by
    intro pos rest breaks
    obtain ⟨ts, pos₁, tokens₁, phrase₁⟩ :=
      left pos (' ' :: (op.text.toList ++ ' ' :: (cs₂ ++ rest))) (.cons (.inl rfl))
    obtain ⟨kind, r, rule, rfl, operator⟩ := spells_operator known (cs₂ ++ rest)
    obtain ⟨tok, pos₂, tokens₂, rfl, -⟩ := operator.token (pos₁ + 1)
    obtain ⟨us, pos₃, tokens₃, phrase₃⟩ := right (pos₂ + 1) rest breaks
    rw [Token.ofChars_space, tokens₂, Token.ofChars_space, tokens₃] at tokens₁
    refine ⟨ts ++ tok :: us, pos₃, ?_, .tighter (Nat.zero_le _) (.binary rule
      (phrase₁.tighter (left_rank_le rule)) (phrase₃.tighter (right_rank_le rule)))⟩
    simpa using tokens₁
  simpa using inside.brackets

def Unsigned (cs : List Char) : Prop :=
  ∃ c rest, cs = c :: rest ∧ Text.isBlank c = false ∧ (Text.isDigit c || c == '.') = false ∧
    c ≠ '='

theorem Writes.negate (unsigned : Unsigned cs) (h : Writes k .unary d cs e) :
    Writes k .unary (d + 1) ('-' :: cs) (.un .neg e) := by
  intro pos rest breaks
  have minus : Token.Spells ['-'] (cs ++ rest) .minus := Token.spells_bracket (by decide)
  obtain ⟨sign, pos₁, tokens₁, kind₁, -⟩ := minus.token pos
  obtain ⟨ts, pos₂, tokens₂, phrase⟩ := h pos₁ rest breaks
  have unfolded : ∀ t ∈ ts.head?, t.kind ≠ .number := by
    intro t ht
    obtain ⟨us, rfl⟩ := List.head?_eq_some_iff.1 ht
    obtain ⟨c, cs', rfl, visible, digit, -⟩ := unsigned
    obtain ⟨n, scanned⟩ := Token.scan_of_head_ofChars visible tokens₂
    exact Token.kind_ne_number_of_scan scanned digit
  rw [tokens₂] at tokens₁
  exact ⟨sign :: ts, pos₂, tokens₁, .negate kind₁ unfolded phrase⟩

theorem Writes.not (unsigned : Unsigned cs) (h : Writes k .unary d cs e) :
    Writes k .unary (d + 1) ('!' :: cs) (.un .not e) := by
  intro pos rest breaks
  obtain ⟨c, cs', rfl, -, -, other⟩ := unsigned
  have bang : Token.Spells ['!'] (c :: cs' ++ rest) .bang :=
    Token.spells_bang (by simpa using other)
  obtain ⟨sign, pos₁, tokens₁, kind₁, -⟩ := bang.token pos
  obtain ⟨ts, pos₂, tokens₂, phrase⟩ := h pos₁ rest breaks
  rw [tokens₂] at tokens₁
  exact ⟨sign :: ts, pos₂, tokens₁, .not kind₁ phrase⟩

theorem WritesAll.last (h : Writes k .or d cs e) : WritesAll k d cs [e] := by
  intro pos rest
  obtain ⟨ts, pos', tokens, phrase⟩ := h pos (')' :: rest) (.cons (.inr (.inl rfl)))
  exact ⟨ts, pos', tokens, .last phrase⟩

theorem WritesAll.more {es : List (Expr α)} (h : Writes k .or d₁ cs₁ e)
    (more : WritesAll k d₂ cs₂ es) :
    WritesAll k (max d₁ d₂) (cs₁ ++ ',' :: ' ' :: cs₂) (e :: es) := by
  intro pos rest
  obtain ⟨ts, pos₁, tokens₁, phrase⟩ :=
    h pos (',' :: ' ' :: (cs₂ ++ ')' :: rest)) (.cons (.inr (.inr rfl)))
  have comma : Token.Spells [','] (' ' :: (cs₂ ++ ')' :: rest)) .comma :=
    Token.spells_bracket (by decide)
  obtain ⟨tok, pos₂, tokens₂, kind, -⟩ := comma.token pos₁
  obtain ⟨us, pos₃, tokens₃, phrases⟩ := more (pos₂ + 1) rest
  rw [List.singleton_append] at tokens₂
  rw [tokens₂, Token.ofChars_space, tokens₃] at tokens₁
  refine ⟨ts ++ tok :: us, pos₃, ?_, .more kind phrase phrases⟩
  simpa using tokens₁

theorem writes_emptyCall {name : String} (h : IsName name) :
    Writes (α := α) k .primary 1 (name.toList ++ ['(', ')']) (callTree name []) := by
  intro pos rest _
  obtain ⟨tok, pos₁, tokens₁, kind, upper⟩ :=
    @spells_isName _ h ('(' :: ')' :: rest) (by simp [Token.isIdentPart, Token.isIdentStart]) pos
  have opening : Token.Spells ['('] (')' :: rest) .leftParen := Token.spells_bracket (by decide)
  obtain ⟨lp, pos₂, tokens₂, kind₂, -⟩ := opening.token pos₁
  have closing : Token.Spells [')'] rest .rightParen := Token.spells_bracket (by decide)
  obtain ⟨rp, pos₃, tokens₃, kind₃, -⟩ := closing.token pos₂
  have free : Free (α := α) (.plain k) (Text.upper tok.text) := by
    rw [upper]
    exact free_of_isName h
  have phrase := Phrase.emptyCall kind free kind₂ kind₃ (fun strict => Bool.noConfusion strict)
  rw [upper] at phrase
  rw [List.singleton_append] at tokens₂ tokens₃
  rw [tokens₂, tokens₃] at tokens₁
  refine ⟨[tok, lp, rp], pos₃, ?_, phrase⟩
  simpa using tokens₁

theorem WritesAll.call {name : String} {es : List (Expr α)} (h : IsName name)
    (few : (es.length : Int) ≤ k) (args : WritesAll k d cs es) :
    Writes k .primary (d + 1) (name.toList ++ '(' :: (cs ++ [')'])) (callTree name es) := by
  intro pos rest _
  obtain ⟨tok, pos₁, tokens₁, kind, upper⟩ := @spells_isName _ h ('(' :: (cs ++ ')' :: rest))
    (by simp [Token.isIdentPart, Token.isIdentStart]) pos
  have opening : Token.Spells ['('] (cs ++ ')' :: rest) .leftParen :=
    Token.spells_bracket (by decide)
  obtain ⟨lp, pos₂, tokens₂, kind₂, -⟩ := opening.token pos₁
  obtain ⟨ts, pos₃, tokens₃, phrases⟩ := args pos₂ rest
  have closing : Token.Spells [')'] rest .rightParen := Token.spells_bracket (by decide)
  obtain ⟨rp, pos₄, tokens₄, kind₄, -⟩ := closing.token pos₃
  have free : Free (α := α) (.plain k) (Text.upper tok.text) := by
    rw [upper]
    exact free_of_isName h
  have phrase :=
    Phrase.call kind free kind₂ kind₄ phrases few (fun strict => Bool.noConfusion strict)
  rw [upper] at phrase
  rw [List.singleton_append] at tokens₂ tokens₄
  rw [tokens₂, tokens₃, tokens₄] at tokens₁
  refine ⟨tok :: lp :: (ts ++ [rp]), pos₄, ?_, phrase⟩
  simpa using tokens₁

end DerivativeEngine.Grammar
