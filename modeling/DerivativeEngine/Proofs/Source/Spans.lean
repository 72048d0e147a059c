import DerivativeEngine.Proofs.Source.Literals

/-! Where the tokens stand in the source. Their spans follow each other without overlap and leave
out blanks only, so no character is lost, and none is read twice. A literal, an identifier and an
operator are the longest text of their kind at their place; a character where none of the three
starts is an error of its own, behind which the next token is looked for. The invariant of the run
is that what was read of the text is accounted for, up to the place where the next token starts. -/

namespace DerivativeEngine.Token

open Numeral (IsLiteral)

def IsWord (cs : List Char) : Prop :=
  ∃ c rest, cs = c :: rest ∧ isIdentStart c = true ∧ ∀ d ∈ rest, isIdentPart d = true

/-- The operators as they are written, with the brackets and the comma. -/
def operators : List (List Char × TokenKind) :=
  [(['|', '|'], .or), (['&', '&'], .and), (['>'], .gt), (['<'], .lt), (['>', '='], .ge),
    (['<', '='], .le), (['=', '='], .eq), (['!', '='], .ne), (['+'], .plus), (['-'], .minus),
    (['*'], .star), (['/'], .slash), (['^'], .caret), (['!'], .bang), (['('], .leftParen),
    ([')'], .rightParen), ([','], .comma)]

def IsOperator (cs : List Char) : Prop := ∃ kind, (cs, kind) ∈ operators

def operatorKind? : List Char → Option TokenKind
  | [c] => singleKind? c
  | [c, d] => pairKind? c d
  | _ => none

theorem mem_operators_iff {cs : List Char} {kind : TokenKind} :
    (cs, kind) ∈ operators ↔ operatorKind? cs = some kind := by
  constructor
  · have all : ∀ p ∈ operators, operatorKind? p.1 = some p.2 := by decide
    exact all _
  · intro own
    unfold operatorKind? at own
    split at own
    · unfold singleKind? at own
      split at own <;> cases own <;> decide
    · unfold pairKind? at own
      split at own <;> cases own <;> decide
    · cases own

theorem head_of_isLiteral {front : List Char} (h : IsLiteral front) :
    ∃ c rest, front = c :: rest ∧ (Numeral.isDecimalDigit c = true ∨ c = '.') := by
  cases h with
  | hexadecimal mark numeral => exact ⟨'0', _, rfl, .inl rfl⟩
  | decimal numeral =>
    obtain ⟨mantissa, exponent, rfl, own, -⟩ := numeral
    cases own with
    | plain digits some =>
      obtain ⟨c, rest, rfl⟩ := List.exists_cons_of_ne_nil some
      exact ⟨c, rest ++ exponent, rfl, .inl (digits c List.mem_cons_self)⟩
    | @pointed whole frac digits fracs some =>
      rcases whole with _ | ⟨c, whole⟩
      · exact ⟨'.', frac ++ exponent, rfl, .inr rfl⟩
      · exact ⟨c, whole ++ '.' :: frac ++ exponent, rfl, .inl (digits c List.mem_cons_self)⟩

theorem head_of_isOperator {front : List Char} (h : IsOperator front) :
    ∃ c rest, front = c :: rest ∧ c ∈ marks := by
  obtain ⟨kind, own⟩ := h
  have starts : ∀ p ∈ operators, p.1.head?.any marks.contains = true := by decide
  obtain ⟨c, head, mark⟩ := (Option.any_eq_true _ _).1 (starts _ own)
  obtain ⟨rest, rfl⟩ := List.head?_eq_some_iff.1 head
  exact ⟨c, rest, rfl, List.contains_iff_mem.1 mark⟩

section Start

variable {c : Char} {rest front : List Char}

theorem not_isLiteral_of_start (digit : (Text.isDigit c || c == '.') = false)
    (starts : front <+: c :: rest) : ¬ IsLiteral front := by
  intro literal
  obtain ⟨d, more, rfl, first⟩ := head_of_isLiteral literal
  obtain ⟨rfl, -⟩ := List.cons_prefix_cons.1 starts
  rw [(digit_plain first).2] at digit
  exact Bool.noConfusion digit

theorem not_isWord_of_start (letter : isIdentStart c = false) (starts : front <+: c :: rest) :
    ¬ IsWord front := by
  rintro ⟨d, more, rfl, first, -⟩
  obtain ⟨rfl, -⟩ := List.cons_prefix_cons.1 starts
  rw [letter] at first
  exact Bool.noConfusion first

theorem not_isOperator_of_start (plain : c ∉ marks) (starts : front <+: c :: rest) :
    ¬ IsOperator front := by
  intro operator
  obtain ⟨d, more, rfl, mark⟩ := head_of_isOperator operator
  obtain ⟨rfl, -⟩ := List.cons_prefix_cons.1 starts
  exact plain mark

end Start

/-- What a token says of the text that starts at its place, of which it takes `n` characters. -/
inductive Lexeme (cs : List Char) : TokenKind → String → Nat → Prop where
  | number {front : List Char} (longest : IsLongest IsLiteral front cs) :
      Lexeme cs .number (String.ofList front) front.length
  | ident {front : List Char} (longest : IsLongest IsWord front cs) :
      Lexeme cs .ident (String.ofList (front.take maxNameLength)) front.length
  | operator {front : List Char} {kind : TokenKind} (longest : IsLongest IsOperator front cs)
      (own : (front, kind) ∈ operators) :
      Lexeme cs kind (String.ofList front) front.length
  | error {text : String} (nothing : ∀ front, front <+: cs →
      ¬ IsLiteral front ∧ ¬ IsWord front ∧ ¬ IsOperator front) : Lexeme cs .error text 1

theorem isLongest_word {c : Char} (letter : isIdentStart c = true) (rest : List Char) :
    IsLongest IsWord (c :: rest.takeWhile isIdentPart) (c :: rest) where
  starts := List.cons_prefix_cons.2 ⟨rfl, List.takeWhile_prefix _⟩
  own := ⟨c, _, rfl, letter, fun d h => List.mem_takeWhile_imp h⟩
  longest := by
    rintro other starts ⟨d, more, rfl, -, parts⟩
    obtain ⟨-, tail, rfl⟩ := List.cons_prefix_cons.1 starts
    rw [List.takeWhile_append_of_pos parts]
    simp

theorem isLongest_pair {c d : Char} {kind : TokenKind} (pair : pairKind? c d = some kind)
    (rest : List Char) : IsLongest IsOperator [c, d] (c :: d :: rest) where
  starts := ⟨rest, rfl⟩
  own := ⟨kind, mem_operators_iff.2 pair⟩
  longest := by
    rintro other - ⟨kind', own⟩
    have short : ∀ p ∈ operators, p.1.length ≤ 2 := by decide
    exact short _ own

theorem isLongest_single {c : Char} {kind : TokenKind} {rest : List Char}
    (alone : rest.head?.bind (pairKind? c) = none) (single : singleKind? c = some kind) :
    IsLongest IsOperator [c] (c :: rest) where
  starts := ⟨rest, rfl⟩
  own := ⟨kind, mem_operators_iff.2 single⟩
  longest := by
    rintro other starts ⟨kind', own⟩
    rw [mem_operators_iff] at own
    match other, own with
    | [_], _ => simp
    | [a, b], own =>
      obtain ⟨rfl, tail, rfl⟩ := List.cons_prefix_cons.1 starts
      cases own.symm.trans alone

theorem not_isOperator_of_kinds {c : Char} {rest front : List Char}
    (alone : rest.head?.bind (pairKind? c) = none) (single : singleKind? c = none)
    (starts : front <+: c :: rest) : ¬ IsOperator front := by
  rintro ⟨kind, own⟩
  rw [mem_operators_iff] at own
  match front, own with
  | [a], own =>
    obtain ⟨rfl, -⟩ := List.cons_prefix_cons.1 starts
    cases own.symm.trans single
  | [a, b], own =>
    obtain ⟨rfl, tail, rfl⟩ := List.cons_prefix_cons.1 starts
    cases own.symm.trans alone

theorem others_of_digit {c : Char} (digit : (Text.isDigit c || c == '.') = true) :
    isIdentStart c = false ∧ c ∉ marks := by
  constructor
  · cases letter : isIdentStart c with
    | false => rfl
    | true => rw [(letter_plain letter).2] at digit; cases digit
  · intro mark
    rw [(plain_of_mem_marks mark).2.1] at digit
    cases digit

theorem lexeme_of_scan {c : Char} {rest : List Char} {kind : TokenKind} {text : String} {n : Nat}
    (h : scan c rest = (some (kind, text), n)) : Lexeme (c :: rest) kind text n := by
  rw [scan] at h
  by_cases blank : Text.isBlank c = true
  · simp [blank] at h
  rw [if_neg blank] at h
  by_cases digit : (Text.isDigit c || c == '.') = true
  · rw [if_pos digit] at h
    cases literal : Numeral.scanLiteral (c :: rest) with
    | some r =>
      obtain ⟨l, after⟩ := r
      obtain ⟨front, split, longest⟩ := Numeral.isLongest_of_scanLiteral literal
      have taken : (c :: rest).length - after.length = front.length := by
        rw [split, List.length_append, Nat.add_sub_cancel]
      simp only [literal, taken, longest.take, Prod.mk.injEq, Option.some.injEq] at h
      obtain ⟨⟨rfl, rfl⟩, rfl⟩ := h
      exact .number longest
    | none =>
      simp only [literal, Prod.mk.injEq, Option.some.injEq] at h
      obtain ⟨⟨rfl, rfl⟩, rfl⟩ := h
      obtain ⟨letter, plain⟩ := others_of_digit digit
      exact .error fun front starts => ⟨Numeral.not_isLiteral_of_scanLiteral literal starts,
        not_isWord_of_start letter starts, not_isOperator_of_start plain starts⟩
  rw [if_neg digit] at h
  by_cases letter : isIdentStart c = true
  · simp only [letter, if_true, Prod.mk.injEq, Option.some.injEq] at h
    obtain ⟨⟨rfl, rfl⟩, rfl⟩ := h
    exact .ident (isLongest_word letter rest)
  rw [if_neg letter] at h
  cases pair : rest.head?.bind (pairKind? c) with
  | some kind' =>
    obtain ⟨d, head, pair'⟩ := Option.bind_eq_some_iff.1 pair
    obtain ⟨rest', rfl⟩ := List.head?_eq_some_iff.1 head
    simp only [pair, Prod.mk.injEq, Option.some.injEq] at h
    obtain ⟨⟨rfl, rfl⟩, rfl⟩ := h
    exact .operator (isLongest_pair pair' rest') (mem_operators_iff.2 pair')
  | none =>
    simp only [pair] at h
    cases single : singleKind? c with
    | some kind' =>
      simp only [single, Prod.mk.injEq, Option.some.injEq] at h
      obtain ⟨⟨rfl, rfl⟩, rfl⟩ := h
      exact .operator (isLongest_single pair single) (mem_operators_iff.2 single)
    | none =>
      simp only [single, Prod.mk.injEq, Option.some.injEq] at h
      obtain ⟨⟨rfl, rfl⟩, rfl⟩ := h
      rw [Bool.not_eq_true] at digit letter
      exact .error fun front starts => ⟨not_isLiteral_of_start digit starts,
        not_isWord_of_start letter starts, not_isOperator_of_kinds pair single starts⟩

theorem Lexeme.bounds {cs : List Char} {kind : TokenKind} {text : String} {n : Nat}
    (h : Lexeme cs kind text n) (some : cs ≠ []) : 0 < n ∧ n ≤ cs.length := by
  cases h with
  | number longest =>
    obtain ⟨c, rest, rfl, -⟩ := head_of_isLiteral longest.own
    exact ⟨Nat.succ_pos _, longest.starts.length_le⟩
  | ident longest =>
    obtain ⟨c, rest, rfl, -⟩ := longest.own
    exact ⟨Nat.succ_pos _, longest.starts.length_le⟩
  | operator longest own =>
    obtain ⟨c, rest, rfl, -⟩ := head_of_isOperator longest.own
    exact ⟨Nat.succ_pos _, longest.starts.length_le⟩
  | error nothing => exact ⟨Nat.one_pos, List.length_pos_iff.2 some⟩

theorem kind_of_operator {front : List Char} {kind : TokenKind}
    (own : (front, kind) ∈ operators) : kind ≠ .number ∧ kind ≠ .ident ∧ kind ≠ .error := by
  have all : ∀ p ∈ operators, p.2 ≠ .number ∧ p.2 ≠ .ident ∧ p.2 ≠ .error := by decide
  exact all _ own

namespace Lexeme

variable {cs : List Char} {kind : TokenKind} {text : String} {n : Nat}

theorem of_number (h : Lexeme cs kind text n) (number : kind = .number) :
    text.toList = cs.take n ∧ IsLongest IsLiteral (cs.take n) cs := by
  cases h with
  | number longest =>
    rw [longest.take, String.toList_ofList]
    exact ⟨rfl, longest⟩
  | operator longest own => exact absurd number (kind_of_operator own).1
  | ident longest => cases number
  | error nothing => cases number

theorem of_ident (h : Lexeme cs kind text n) (ident : kind = .ident) :
    text.toList = (cs.take n).take maxNameLength ∧ IsLongest IsWord (cs.take n) cs := by
  cases h with
  | ident longest =>
    rw [longest.take, String.toList_ofList]
    exact ⟨rfl, longest⟩
  | operator longest own => exact absurd ident (kind_of_operator own).2.1
  | number longest => cases ident
  | error nothing => cases ident

theorem of_error (h : Lexeme cs kind text n) (error : kind = .error) :
    n = 1 ∧ ∀ front, front <+: cs → ¬ IsLiteral front ∧ ¬ IsWord front ∧ ¬ IsOperator front := by
  cases h with
  | error nothing => exact ⟨rfl, nothing⟩
  | operator longest own => exact absurd error (kind_of_operator own).2.2
  | number longest => cases error
  | ident longest => cases error

theorem of_operator (h : Lexeme cs kind text n) (number : kind ≠ .number) (ident : kind ≠ .ident)
    (error : kind ≠ .error) : text.toList = cs.take n ∧ (cs.take n, kind) ∈ operators ∧
      IsLongest IsOperator (cs.take n) cs := by
  cases h with
  | operator longest own =>
    rw [longest.take, String.toList_ofList]
    exact ⟨rfl, own, longest⟩
  | number longest => exact absurd rfl number
  | ident longest => exact absurd rfl ident
  | error nothing => exact absurd rfl error

end Lexeme

inductive Lexed : Nat → List Char → List Token → Prop where
  | nil (pos : Nat) : Lexed pos [] []
  | blank {pos : Nat} {c : Char} {rest : List Char} {toks : List Token}
      (white : Text.isBlank c = true) (more : Lexed (pos + 1) rest toks) :
      Lexed pos (c :: rest) toks
  | token {pos : Nat} {cs : List Char} {kind : TokenKind} {text : String} {n : Nat}
      {toks : List Token} (lexeme : Lexeme cs kind text n) (some : 0 < n) (within : n ≤ cs.length)
      (more : Lexed (pos + n) (cs.drop n) toks) :
      Lexed pos cs (⟨kind, text, pos, pos + n⟩ :: toks)

theorem lexed_ofChars (pos : Nat) (cs : List Char) : Lexed pos cs (ofChars pos 0 cs) := by
  -- on the length of what is left: a token may take any number of characters of it
  induction h : cs.length using Nat.strong_induction_on generalizing pos cs with
  | _ length ih =>
    subst h
    rcases cs with _ | ⟨c, rest⟩
    · exact .nil pos
    rcases scanned : scan c rest with ⟨_ | ⟨kind, text⟩, n⟩
    · have blank := blank_of_scan_none scanned
      rw [ofChars_zero, scan, if_pos blank]
      exact .blank blank (ih rest.length (Nat.lt_succ_self _) _ rest rfl)
    · have lexeme := lexeme_of_scan scanned
      obtain ⟨some, within⟩ := lexeme.bounds (List.cons_ne_nil c rest)
      obtain ⟨k, rfl⟩ := Nat.exists_eq_succ_of_ne_zero some.ne'
      rw [ofChars_scan scanned]
      refine .token lexeme some within (ih _ ?_ _ _ rfl)
      rw [List.length_drop, List.length_cons]
      omega

namespace Lexed

variable {pos : Nat} {cs : List Char} {toks : List Token}

theorem bounds (h : Lexed pos cs toks) :
    ∀ t ∈ toks, pos ≤ t.start ∧ t.start < t.stop ∧ t.stop ≤ pos + cs.length := by
  induction h with
  | nil pos => simp
  | blank white more ih =>
    intro t mem
    have := ih t mem
    rw [List.length_cons]
    omega
  | @token pos cs kind text n toks lexeme some within more ih =>
    intro t mem
    rcases List.mem_cons.1 mem with rfl | later
    · exact ⟨Nat.le_refl _, Nat.lt_add_of_pos_right some, Nat.add_le_add_left within _⟩
    · have := ih t later
      rw [List.length_drop] at this
      omega

theorem pairwise (h : Lexed pos cs toks) : toks.Pairwise fun a b => a.stop ≤ b.start := by
  induction h with
  | nil pos => exact .nil
  | blank white more ih => exact ih
  | token lexeme some within more ih =>
    exact List.pairwise_cons.2 ⟨fun t later => (more.bounds t later).1, ih⟩

theorem blank_of_uncovered (h : Lexed pos cs toks) {i : Nat} {c : Char} (here : cs[i]? = some c)
    (uncovered : ∀ t ∈ toks, ¬ (t.start ≤ pos + i ∧ pos + i < t.stop)) :
    Text.isBlank c = true := by
  induction h generalizing i with
  | nil pos => simp at here
  | @blank pos d rest toks white more ih =>
    cases i with
    | zero =>
      obtain rfl : d = c := by simpa using here
      exact white
    | succ i =>
      rw [List.getElem?_cons_succ] at here
      refine ih here fun t mem => ?_
      rw [show pos + 1 + i = pos + (i + 1) by omega]
      exact uncovered t mem
  | @token pos cs kind text n toks lexeme some within more ih =>
    -- the token itself covers the first `n` characters, so the place lies behind it
    have behind : n ≤ i := by
      have own := uncovered _ List.mem_cons_self
      dsimp only at own
      omega
    have here' : (cs.drop n)[i - n]? = Option.some c := by
      rw [List.getElem?_drop, Nat.add_sub_cancel' behind]
      exact here
    refine ih here' fun t mem => ?_
    rw [show pos + n + (i - n) = pos + i by omega]
    exact uncovered t (List.mem_cons_of_mem _ mem)

theorem lexeme (h : Lexed pos cs toks) : ∀ t ∈ toks,
    Lexeme (cs.drop (t.start - pos)) t.kind t.text (t.stop - t.start) := by
  induction h with
  | nil pos => simp
  | @blank pos c rest toks white more ih =>
    intro t mem
    have own := ih t mem
    have behind := (more.bounds t mem).1
    rwa [show t.start - pos = t.start - (pos + 1) + 1 by omega, List.drop_succ_cons]
  | @token pos cs kind text n toks lexeme some within more ih =>
    intro t mem
    rcases List.mem_cons.1 mem with rfl | later
    · dsimp only
      rwa [Nat.sub_self, List.drop_zero, Nat.add_sub_cancel_left]
    · have own := ih t later
      have behind := (more.bounds t later).1
      rwa [List.drop_drop, show n + (t.start - (pos + n)) = t.start - pos by omega] at own

end Lexed

def slice (source : String) (t : Token) : List Char :=
  (source.toList.drop t.start).take (t.stop - t.start)

/-- The tokens of a source span it in order, without overlap and but for blanks, and the end token
closes them. A token that is no error has the text of its span, the longest of its kind there; an
error is one character, where nothing starts. -/
theorem tokenize_spans (source : String) :
    ∃ toks, tokenize source = toks ++ [⟨.eof, "", source.length, source.length⟩] ∧
      (∀ t ∈ toks, t.kind ≠ .eof ∧ t.start < t.stop ∧ t.stop ≤ source.length) ∧
      toks.Pairwise (fun a b => a.stop ≤ b.start) ∧
      (∀ i c, source.toList[i]? = some c →
        (∀ t ∈ toks, ¬ (t.start ≤ i ∧ i < t.stop)) → Text.isBlank c = true) ∧
      ∀ t ∈ toks,
        (t.kind = .number → t.text.toList = slice source t ∧
          IsLongest IsLiteral (slice source t) (source.toList.drop t.start)) ∧
        (t.kind = .ident → t.text.toList = (slice source t).take 31 ∧
          IsLongest IsWord (slice source t) (source.toList.drop t.start)) ∧
        (t.kind = .error → t.stop = t.start + 1 ∧
          ∀ front, front <+: source.toList.drop t.start →
            ¬ IsLiteral front ∧ ¬ IsWord front ∧ ¬ IsOperator front) ∧
        (t.kind ≠ .number → t.kind ≠ .ident → t.kind ≠ .error →
          t.text.toList = slice source t ∧ (slice source t, t.kind) ∈ operators ∧
            IsLongest IsOperator (slice source t) (source.toList.drop t.start)) := by
  have lexed : Lexed 0 source.toList (lexemes source) := lexed_ofChars 0 source.toList
  refine ⟨lexemes source, rfl, fun t mem => ?_, lexed.pairwise, fun i c here uncovered => ?_,
    fun t mem => ?_⟩
  · obtain ⟨-, some, within⟩ := lexed.bounds t mem
    refine ⟨kind_of_mem_ofChars mem, some, ?_⟩
    rwa [Nat.zero_add, String.length_toList] at within
  · refine lexed.blank_of_uncovered here fun t mem => ?_
    rw [Nat.zero_add]
    exact uncovered t mem
  · have own : Lexeme (source.toList.drop t.start) t.kind t.text (t.stop - t.start) :=
      lexed.lexeme t mem
    have some := (lexed.bounds t mem).2.1
    refine ⟨own.of_number, own.of_ident, fun error => ?_, own.of_operator⟩
    obtain ⟨one, nothing⟩ := own.of_error error
    exact ⟨by omega, nothing⟩

end DerivativeEngine.Token
