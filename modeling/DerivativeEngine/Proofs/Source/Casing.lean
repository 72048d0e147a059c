import Mathlib.Data.String.Basic
import DerivativeEngine.Proofs.Source.Acceptance
import DerivativeEngine.Proofs.Source.Literals
import DerivativeEngine.Proofs.Source.Parallel

/-! Capital and small letters. Nothing that is asked of a single character tells a capital from the
small letter. So the tokens of a source in small letters are those of the source, with their names
and numbers in small letters; they have the same values, and to the parser they are alike. -/

namespace DerivativeEngine

namespace Text

variable {β : Type} {g : Char → β} {p : Char → Bool}

def Caseless (g : Char → β) : Prop := ∀ c, g c.toLower = g c

theorem toLower_of_not_isUpper {c : Char} (h : c.isUpper = false) : c.toLower = c :=
  dif_neg (of_decide_eq_false h)

theorem toLower_of_capitals {P : Char → Char → Prop} (same : ∀ c, P c c)
    (capital : ∀ n < 26, P (Char.ofNat (65 + n)) (Char.ofNat (97 + n))) (c : Char) :
    P c c.toLower := by
  cases upper : c.isUpper with
  | false =>
    rw [toLower_of_not_isUpper upper]
    exact same c
  | true =>
    obtain ⟨low, high⟩ := of_decide_eq_true upper
    have low : 65 ≤ c.toNat := UInt32.le_iff_toNat_le.1 low
    have high : c.toNat ≤ 90 := UInt32.le_iff_toNat_le.1 high
    have small : ∀ n < 26, (Char.ofNat (65 + n)).toLower = Char.ofNat (97 + n) := by decide
    have pair := capital (c.toNat - 65) (by omega)
    rwa [← small _ (by omega), Nat.add_sub_cancel' low, Char.ofNat_toNat] at pair

theorem Caseless.of_capitals
    (capital : ∀ n < 26, g (Char.ofNat (97 + n)) = g (Char.ofNat (65 + n))) : Caseless g :=
  toLower_of_capitals (P := fun c c' => g c' = g c) (fun _ => rfl) capital

theorem toLower_eq_iff {c d : Char} (plain : d.isAlpha = false) : c.toLower = d ↔ c = d := by
  have letters : Caseless Char.isAlpha := .of_capitals (by decide)
  cases letter : c.isAlpha with
  | true =>
    have other : c ≠ d := by
      rintro rfl
      rw [plain] at letter
      cases letter
    have other' : c.toLower ≠ d := by
      rintro rfl
      rw [letters c, letter] at plain
      cases plain
    exact iff_of_false other' other
  | false => rw [toLower_of_not_isUpper (Bool.or_eq_false_iff.1 letter).1]

theorem Caseless.takeWhile (h : Caseless p) (cs : List Char) :
    (cs.map Char.toLower).takeWhile p = (cs.takeWhile p).map Char.toLower := by
  rw [List.takeWhile_map, show p ∘ Char.toLower = p from funext h]

theorem Caseless.dropWhile (h : Caseless p) (cs : List Char) :
    (cs.map Char.toLower).dropWhile p = (cs.dropWhile p).map Char.toLower := by
  rw [List.dropWhile_map, show p ∘ Char.toLower = p from funext h]

theorem caseless_isBlank : Caseless isBlank := .of_capitals (by decide)

theorem caseless_upperChar : Caseless upperChar := .of_capitals (by decide)

theorem toList_toLower (s : String) : s.toLower.toList = s.toList.map Char.toLower :=
  String.toList_map

theorem upper_toLower (s : String) : upper s.toLower = upper s := by
  rw [upper, toList_toLower, List.flatMap_map, upper]
  exact congrArg (fun g => String.ofList (s.toList.flatMap g)) (funext caseless_upperChar)

theorem caseless_utf8Size : Caseless Char.utf8Size := .of_capitals (by decide)

theorem utf8ByteSize_toLower (s : String) : s.toLower.utf8ByteSize = s.utf8ByteSize := by
  have bytes (s : String) : s.utf8ByteSize = String.utf8Len s.toList := by
    rw [← String.utf8ByteSize_ofList, String.ofList_toList]
  have lower (cs : List Char) : String.utf8Len (cs.map Char.toLower) = String.utf8Len cs := by
    induction cs with
    | nil => rfl
    | cons c cs ih =>
      rw [List.map_cons, String.utf8Len_cons, String.utf8Len_cons, ih, caseless_utf8Size]
  rw [bytes, bytes, toList_toLower, lower]

end Text

namespace Numeral

open Text (Caseless)

variable {cs ds after : List Char} {digit mark : Char → Bool}

theorem caseless_isDecimalDigit : Caseless isDecimalDigit := .of_capitals (by decide)

theorem caseless_isHexDigit : Caseless isHexDigit := .of_capitals (by decide)

theorem digitValue_toLower (c : Char) :
    isHexDigit c = true → digitValue c.toLower = digitValue c :=
  Text.toLower_of_capitals (P := fun c c' => isHexDigit c = true → digitValue c' = digitValue c)
    (fun _ _ => rfl) (by decide) c

theorem natOfDigits_lower (base : Nat) (digits : ∀ c ∈ ds, isHexDigit c = true) :
    natOfDigits base (ds.map Char.toLower) = natOfDigits base ds := by
  unfold natOfDigits
  rw [List.foldl_map]
  refine List.foldl_ext _ _ 0 fun n c mem => ?_
  rw [digitValue_toLower c (digits c mem)]

theorem scanMantissa_lower (h : Caseless digit) (cs : List Char) :
    scanMantissa digit (cs.map Char.toLower) = (scanMantissa digit cs).map fun r =>
      (r.1.map Char.toLower, r.2.1.map Char.toLower, r.2.2.map Char.toLower) := by
  by_cases pointed : ∃ more, cs.dropWhile digit = '.' :: more
  · obtain ⟨more, split⟩ := pointed
    have split' : (cs.map Char.toLower).dropWhile digit = '.' :: more.map Char.toLower := by
      rw [h.dropWhile, split]
      rfl
    rw [scanMantissa_point split, scanMantissa_point split', h.takeWhile, h.takeWhile, h.dropWhile,
      List.isEmpty_map, List.isEmpty_map]
    split <;> rfl
  · have plain : ∀ more, cs.dropWhile digit ≠ '.' :: more := fun more hm => pointed ⟨more, hm⟩
    have plain' : ∀ more, (cs.map Char.toLower).dropWhile digit ≠ '.' :: more := by
      intro more split
      rw [h.dropWhile, List.map_eq_cons_iff] at split
      obtain ⟨c, rest, split, point, -⟩ := split
      exact plain rest (by rw [split, (Text.toLower_eq_iff rfl).1 point])
    rw [scanMantissa_plain plain, scanMantissa_plain plain', h.takeWhile, h.dropWhile,
      List.isEmpty_map]
    split <;> rfl

theorem scanSign_lower (cs : List Char) :
    scanSign (cs.map Char.toLower) = ((scanSign cs).1, (scanSign cs).2.map Char.toLower) := by
  rcases cs with _ | ⟨c, cs⟩
  · rfl
  · have plus : c.toLower = '+' ↔ c = '+' := Text.toLower_eq_iff rfl
    have minus : c.toLower = '-' ↔ c = '-' := Text.toLower_eq_iff rfl
    rw [List.map_cons]
    unfold scanSign
    grind

theorem scanExponent_lower (h : Caseless mark) (cs : List Char) :
    scanExponent mark (cs.map Char.toLower) =
      ((scanExponent mark cs).1, (scanExponent mark cs).2.map Char.toLower) := by
  rcases cs with _ | ⟨c, cs⟩
  · rfl
  cases marked : mark c with
  | false => simp [scanExponent, h c, marked]
  | true =>
    rw [List.map_cons, scanExponent_cons marked, scanExponent_cons ((h c).trans marked),
      scanSign_lower]
    dsimp only
    have digits : ∀ c ∈ (scanSign cs).2.takeWhile isDecimalDigit, isHexDigit c = true := by
      intro c mem
      rw [isHexDigit, List.mem_takeWhile_imp mem]
      rfl
    rw [caseless_isDecimalDigit.takeWhile, caseless_isDecimalDigit.dropWhile, List.isEmpty_map,
      natOfDigits_lower 10 digits]
    split <;> rfl

def Literal.lower (l : Literal) : Literal :=
  { l with whole := l.whole.map Char.toLower, frac := l.frac.map Char.toLower }

theorem scanDecimal_lower (cs : List Char) : scanDecimal (cs.map Char.toLower) =
    (scanDecimal cs).map fun r => (r.1.lower, r.2.map Char.toLower) := by
  have mark : Caseless fun c => c == 'e' || c == 'E' := .of_capitals (by decide)
  rw [scanDecimal_eq, scanDecimal_eq, scanMantissa_lower caseless_isDecimalDigit, Option.map_map,
    Option.map_map]
  refine congrArg (Option.map · _) (funext fun r => ?_)
  simp only [Function.comp_apply, scanExponent_lower mark]
  rfl

theorem scanHex_lower (cs : List Char) : scanHex (cs.map Char.toLower) =
    (scanHex cs).map fun r => (r.1.lower, r.2.map Char.toLower) := by
  have mark : Caseless fun c => c == 'p' || c == 'P' := .of_capitals (by decide)
  have start : Caseless fun c => decide (c = 'x' ∨ c = 'X') := .of_capitals (by decide)
  by_cases hex : ∃ x rest, (x = 'x' ∨ x = 'X') ∧ cs = '0' :: x :: rest
  · obtain ⟨x, rest, marked, rfl⟩ := hex
    have marked' : x.toLower = 'x' ∨ x.toLower = 'X' := (decide_eq_decide.1 (start x)).2 marked
    change scanHex ('0' :: x.toLower :: rest.map Char.toLower) = _
    rw [scanHex_eq marked, scanHex_eq marked', scanMantissa_lower caseless_isHexDigit,
      Option.map_map, Option.map_map]
    refine congrArg (Option.map · _) (funext fun r => ?_)
    simp only [Function.comp_apply, scanExponent_lower mark]
    rfl
  · have other : scanHex cs = none := by
      exact Option.eq_none_iff_forall_ne_some.2 fun r scanned => hex (front_of_scanHex scanned)
    rw [other, Option.map_none]
    refine Option.eq_none_iff_forall_ne_some.2 fun r scanned => hex ?_
    obtain ⟨x, rest, marked, split⟩ := front_of_scanHex scanned
    obtain ⟨zero, cs, rfl, is_zero, split⟩ := List.map_eq_cons_iff.1 split
    obtain ⟨y, cs, rfl, rfl, -⟩ := List.map_eq_cons_iff.1 split
    obtain rfl : zero = '0' := (Text.toLower_eq_iff rfl).1 is_zero
    exact ⟨y, cs, (decide_eq_decide.1 (start y)).1 marked, rfl⟩

theorem scanLiteral_lower (cs : List Char) : scanLiteral (cs.map Char.toLower) =
    (scanLiteral cs).map fun r => (r.1.lower, r.2.map Char.toLower) := by
  rw [scanLiteral, scanLiteral, scanHex_lower, scanDecimal_lower]
  cases scanHex cs <;> rfl

theorem digits_of_scanMantissa {whole frac : List Char}
    (scanned : scanMantissa digit cs = some (whole, frac, after)) :
    ∀ c ∈ whole ++ frac, digit c = true := by
  have taken : ∀ l : List Char, ∀ c ∈ l.takeWhile digit, digit c = true :=
    fun l c mem => List.mem_takeWhile_imp mem
  intro c mem
  unfold scanMantissa at scanned
  dsimp only at scanned
  split at scanned <;> split_ifs at scanned
  · next rest _ _ =>
    obtain ⟨rfl, rfl, -⟩ : cs.takeWhile digit = whole ∧ rest.takeWhile digit = frac ∧ _ := by
      simpa using scanned
    exact (List.mem_append.1 mem).elim (taken cs c) (taken rest c)
  · obtain ⟨rfl, rfl, -⟩ : cs.takeWhile digit = whole ∧ [] = frac ∧ _ := by simpa using scanned
    exact taken cs c (by simpa using mem)

theorem digits_of_scanLiteral {l : Literal} (scanned : scanLiteral cs = some (l, after)) :
    ∀ c ∈ l.whole ++ l.frac, isHexDigit c = true := by
  intro c mem
  cases hex : scanHex cs with
  | some r =>
    rw [scanLiteral_of_hex hex] at scanned
    obtain rfl : r = (l, after) := Option.some.inj scanned
    obtain ⟨x, rest, mark, rfl⟩ := front_of_scanHex hex
    rw [scanHex_eq mark] at hex
    obtain ⟨r, mantissa, split⟩ := Option.map_eq_some_iff.1 hex
    obtain ⟨rfl, -⟩ := Prod.mk.inj split
    exact digits_of_scanMantissa mantissa c mem
  | none =>
    rw [scanLiteral_of_not_hex hex, scanDecimal_eq] at scanned
    obtain ⟨r, mantissa, split⟩ := Option.map_eq_some_iff.1 scanned
    obtain ⟨rfl, -⟩ := Prod.mk.inj split
    rw [isHexDigit, digits_of_scanMantissa mantissa c mem]
    rfl

theorem Literal.toFloat?_lower {l : Literal}
    (digits : ∀ c ∈ l.whole ++ l.frac, isHexDigit c = true) : l.lower.toFloat? = l.toFloat? := by
  unfold toFloat?
  dsimp only [lower]
  rw [← List.map_append, natOfDigits_lower 16 digits, natOfDigits_lower 10 digits, List.length_map,
    List.length_map]
  rfl

end Numeral

namespace Token

open Text (Caseless)

theorem caseless_isIdentStart : Caseless isIdentStart := .of_capitals (by decide)

theorem caseless_isIdentPart : Caseless isIdentPart := .of_capitals (by decide)

def lowerText (kind : TokenKind) (text : String) : String :=
  if kind = .ident ∨ kind = .number then text.toLower else text

def lower (tok : Token) : Token := { tok with text := lowerText tok.kind tok.text }

theorem alike_lower (tok : Token) : Parser.Alike tok tok.lower where
  kind := rfl
  start := rfl
  name := by
    unfold lower lowerText
    split
    · exact Text.upper_toLower tok.text
    · rfl
  complaint error := by simp [lower, lowerText, error]

theorem ofList_lower (cs : List Char) :
    String.ofList (cs.map Char.toLower) = (String.ofList cs).toLower := by
  rw [← String.toList_inj, Text.toList_toLower, String.toList_ofList, String.toList_ofList]

theorem toLower_of_not_isIdentStart {c : Char} (h : isIdentStart c = false) : c.toLower = c := by
  refine Text.toLower_of_not_isUpper ?_
  rw [isIdentStart, Bool.or_eq_false_iff] at h
  exact (Bool.decide_and _ _).trans h.2

theorem pairKind?_letter (c : Char) {d : Char} (letter : isIdentStart d = true) :
    pairKind? c d = none := by
  unfold pairKind?
  split <;> first | rfl | exact absurd letter (by decide)

theorem caseless_pairKind? (c : Char) : Caseless (pairKind? c) := by
  intro d
  cases letter : isIdentStart d with
  | false => rw [toLower_of_not_isIdentStart letter]
  | true =>
    rw [pairKind?_letter c letter,
      pairKind?_letter c ((caseless_isIdentStart d).trans letter)]

theorem pair_lower (c : Char) (rest : List Char) :
    (rest.map Char.toLower).head?.bind (pairKind? c) = rest.head?.bind (pairKind? c) := by
  rw [List.head?_map, Option.bind_map,
    show pairKind? c ∘ Char.toLower = pairKind? c from funext (caseless_pairKind? c)]

theorem take_two_lower {c : Char} {rest : List Char} {kind : TokenKind}
    (pair : rest.head?.bind (pairKind? c) = some kind) :
    (c :: rest.map Char.toLower).take 2 = (c :: rest).take 2 := by
  obtain ⟨d, head, kinds⟩ := Option.bind_eq_some_iff.1 pair
  obtain ⟨rest, rfl⟩ := List.head?_eq_some_iff.1 head
  have plain : isIdentStart d = false := by
    by_contra letter
    rw [pairKind?_letter c (by simpa using letter)] at kinds
    cases kinds
  simp [toLower_of_not_isIdentStart plain]

theorem lowerText_of_ne {kind : TokenKind} (ident : kind ≠ .ident) (number : kind ≠ .number)
    (text : String) : lowerText kind text = text :=
  if_neg fun named => named.elim ident number

theorem scan_lower (c : Char) (rest : List Char) :
    scan c.toLower (rest.map Char.toLower) =
      ((scan c rest).1.map fun r => (r.1, lowerText r.1 r.2), (scan c rest).2) := by
  have digit : (Text.isDigit c.toLower || c.toLower == '.') = (Text.isDigit c || c == '.') :=
    Caseless.of_capitals (g := fun c => Text.isDigit c || c == '.') (by decide +kernel) c
  unfold scan
  rw [Text.caseless_isBlank c, digit, caseless_isIdentStart c]
  split
  · rfl
  split
  · next starts =>
    rw [← List.map_cons, Numeral.scanLiteral_lower]
    cases Numeral.scanLiteral (c :: rest) with
    | some r =>
      dsimp only [Option.map_some]
      rw [List.length_map, List.length_map, ← List.map_take, ofList_lower]
      rfl
    | none =>
      have plain : isIdentStart c = false := by
        by_contra letter
        rw [(letter_plain (by simpa using letter)).2] at starts
        cases starts
      rw [toLower_of_not_isIdentStart plain]
      rfl
  split
  · dsimp only
    rw [caseless_isIdentPart.takeWhile, ← List.map_cons, ← List.map_take, ofList_lower,
      List.length_map]
    rfl
  · next letter =>
    rw [toLower_of_not_isIdentStart (by simpa using letter), pair_lower]
    cases pair : rest.head?.bind (pairKind? c) with
    | some kind =>
      obtain ⟨-, ident, number⟩ := kind_of_pair_head pair
      simp [take_two_lower pair, lowerText_of_ne ident number]
    | none =>
      cases single : singleKind? c with
      | some kind =>
        obtain ⟨-, ident, number⟩ := kind_of_single single
        simp [lowerText_of_ne ident number]
      | none => rfl

theorem ofChars_lower (pos skip : Nat) (cs : List Char) :
    ofChars pos skip (cs.map Char.toLower) = (ofChars pos skip cs).map lower := by
  induction cs generalizing pos skip with
  | nil => rfl
  | cons c rest ih =>
    cases skip with
    | succ k => exact ih (pos + 1) k
    | zero =>
      rw [List.map_cons, ofChars_zero, ofChars_zero, scan_lower]
      rcases scan c rest with ⟨_ | ⟨kind, text⟩, n⟩
      · exact ih _ _
      · exact congrArg _ (ih _ _)

theorem numberValue?_lower (tok : Token) :
    (tok.lower.numberValue? : Option Float) = tok.numberValue? := by
  unfold lower lowerText
  split
  · unfold numberValue?
    dsimp only
    rw [Text.toList_toLower, Numeral.scanLiteral_lower]
    cases scanned : Numeral.scanLiteral tok.text.toList with
    | none => rfl
    | some r => exact Numeral.Literal.toFloat?_lower (Numeral.digits_of_scanLiteral scanned)
  · rfl

end Token

def ParseError.place (e : ParseError) : ErrorCode × Int × Int := (e.code, e.start, e.stop)

namespace Parser

variable {β γ : Type} {s s' : State Float}

/-- The same state, with the tokens to come in small letters, and other texts in the errors. -/
structure State.Recased (s s' : State Float) : Prop where
  rest : s'.rest = s.rest.map Token.lower
  depth : s'.depth = s.depth
  deepest : s'.deepest = s.deepest
  errors : s'.errors.map ParseError.place = s.errors.map ParseError.place
  checks : s'.checks = s.checks

namespace State.Recased

theorem head (h : s.Recased s') {env : Setting Float} (final : env.final.lower = env.final) :
    s'.head env = (s.head env).lower := by
  rw [State.head, State.head, h.rest]
  cases s.rest with
  | nil => exact final.symm
  | cons tok rest => rfl

theorem drop (h : s.Recased s') : s.drop.Recased s'.drop where
  rest := by
    change s'.rest.tail = s.rest.tail.map Token.lower
    rw [h.rest, List.map_tail]
  depth := h.depth
  deepest := h.deepest
  errors := h.errors
  checks := h.checks

theorem logError (h : s.Recased s') {e e' : ParseError} (same : e'.place = e.place) :
    (s.log (.error e)).Recased (s'.log (.error e')) where
  rest := h.rest
  depth := h.depth
  deepest := h.deepest
  errors := by
    rw [errors_log_error, errors_log_error, List.map_append, List.map_append, h.errors]
    exact congrArg _ (congrArg (fun x => [x]) same)
  checks := h.checks

end State.Recased

def Caseless (p q : Parser Float β) : Prop :=
  ∀ s s', s.Recased s' →
    (outcome q s').1 = (outcome p s).1 ∧ (outcome p s).2.Recased (outcome q s').2

namespace Caseless

theorem pure (x : β) : Caseless (pure x) (Pure.pure x) := fun _ _ h => ⟨rfl, h⟩

theorem bind {p q : Parser Float β} {f g : β → Parser Float γ} (h : Caseless p q)
    (next : ∀ x, Caseless (f x) (g x)) : Caseless (p >>= f) (q >>= g) := by
  intro s s' same
  obtain ⟨equal, after⟩ := h s s' same
  rw [outcome_bind, outcome_bind]
  generalize outcome p s = r at equal after
  generalize outcome q s' = r' at equal after
  rcases r with ⟨stop | x, s₁⟩ <;> obtain ⟨_, s₁'⟩ := r' <;> obtain rfl := equal
  · exact ⟨rfl, after⟩
  · exact next x s₁ s₁' after

theorem enter {env : Setting Float} (final : env.final.lower = env.final) :
    Caseless (enter env) (Parser.enter env) := by
  intro s s' same
  have place : (tooDeep env s').place = (tooDeep env s).place := by
    rw [tooDeep, same.head final]
    rfl
  have down : ({ s with depth := s.depth + 1 } : State Float).Recased
      { s' with depth := s.depth + 1 } := ⟨same.rest, rfl, same.deepest, same.errors, same.checks⟩
  rw [outcome_enter, outcome_enter, same.depth]
  split
  · exact ⟨rfl, same.rest, congrArg (· + 1) same.depth,
      congrArg₂ max same.deepest (congrArg (· + 1) same.depth), same.errors, same.checks⟩
  · exact ⟨rfl, down.logError place⟩

theorem parallel {env : Setting Float} (final : env.final.lower = env.final) :
    Parallel env env (fun tok tok' => tok' = tok.lower) Caseless where
  bindings := rfl
  strict := rfl
  maxArgs := rfl
  alike same := same ▸ Token.alike_lower _
  pure := pure
  exhausted _ _ h := ⟨rfl, h⟩
  bind := bind
  bindPeek next s s' h := next _ _ (h.head final) s s' h
  bindAdvance next s s' h := next _ _ (h.head final) s.drop s'.drop h.drop
  isLate s s' h := by
    rw [outcome_isLate, outcome_isLate, h.checks]
    exact ⟨rfl, h.rest, h.depth, h.deepest, h.errors, congrArg (· + 1) h.checks⟩
  note quiet s s' h := ⟨rfl, h.rest, h.depth, h.deepest, by
    rw [outcome_note, outcome_note, s.errors_log quiet, s'.errors_log quiet, h.errors], h.checks⟩
  abort code message same s s' h := by
    subst same
    exact ⟨rfl, h.logError rfl⟩
  fail code message expected same s s' h := by
    subst same
    rw [outcome_fail, outcome_fail]
    exact ⟨rfl, h.logError rfl⟩
  nested h := (enter final).bind fun _ => h.bind fun x =>
    bind (p := leave)
      (fun _ _ h => ⟨rfl, h.rest, congrArg (· - 1) h.depth, h.deepest, h.errors, h.checks⟩)
      fun _ => pure x
  numberOf same := by
    subst same
    unfold Parser.numberOf
    rw [Token.numberValue?_lower]
    split
    · exact pure _
    · exact fun _ _ h => ⟨rfl, h⟩

end Caseless

end Parser

theorem ParseRun.ofTokens_lower (config : TimedConfig) (bindings : Option (Bindings Float))
    (strict : Bool) (tokens : List Token) {final : Token} (last : final.lower = final)
    {r r' : ParseRun Float} (plain : ofTokens config bindings strict tokens final = r)
    (small : ofTokens config bindings strict (tokens.map Token.lower) final = r') :
    r'.tree = r.tree ∧ r'.errors.map ParseError.place = r.errors.map ParseError.place := by
  have start : Parser.State.Recased ⟨tokens, 0, 0, #[], 0⟩ ⟨tokens.map Token.lower, 0, 0, #[], 0⟩ :=
    ⟨rfl, rfl, rfl, rfl, rfl⟩
  let env : Parser.Setting Float := ⟨config, bindings, strict, final⟩
  have ends : env.final.lower = env.final := last
  obtain ⟨tree, after⟩ :=
    (Parser.Caseless.parallel ends).whole (8 * (tokens.length + 2)) _ _ start
  rw [ofTokens_eq, List.length_map] at small
  rw [ofTokens_eq] at plain
  subst plain small
  exact ⟨tree, after.errors⟩

/-- What and where the error is that a source has instead of a tree, if it is a parse error. -/
def ReadFailure.place? : ReadFailure → Option (ErrorCode × Int × Int)
  | .parse e => some e.place
  | .numberTooLarge => none

namespace Source

theorem lexemes_toLower (source : String) :
    Token.lexemes source.toLower = (Token.lexemes source).map Token.lower := by
  rw [Token.lexemes, Text.toList_toLower, Token.ofChars_lower, Token.lexemes]

theorem refusal?_toLower (source : String) (config : TimedConfig) :
    refusal? (some source.toLower) config = refusal? (some source) config := by
  have blank : source.toLower.toList.all Text.isBlank = source.toList.all Text.isBlank := by
    rw [Text.toList_toLower, List.all_map]
    exact congrArg source.toList.all (funext Text.caseless_isBlank)
  unfold refusal?
  dsimp only
  rw [blank, Text.utf8ByteSize_toLower]

theorem verdict_congr {source source' : String} (length : source'.length = source.length)
    {r r' : ParseRun Float} (tree : r'.tree = r.tree)
    (errors : r'.errors.map ParseError.place = r.errors.map ParseError.place) :
    (verdict source' r').mapError ReadFailure.place? =
      (verdict source r).mapError ReadFailure.place? := by
  have failed {e e' : ParseError} (same : e'.place = e.place) :
      (Except.error (ReadFailure.parse e') : Except _ (Expr Float)).mapError ReadFailure.place? =
        (Except.error (.parse e)).mapError ReadFailure.place? :=
    congrArg (fun place => Except.error (some place)) same
  have none : (noTree source').place = (noTree source).place :=
    congrArg (fun n : Nat => (ErrorCode.syntaxError, (0 : Int), (n : Int))) length
  unfold verdict
  rw [tree]
  generalize r.errors = es at errors
  generalize r'.errors = es' at errors
  rcases es with _ | ⟨e, es⟩ <;> rcases es' with _ | ⟨e', es'⟩
  · rcases r.tree with (_ | _ | _) | t
    exacts [failed none, rfl, failed none, rfl]
  · cases errors
  · cases errors
  · have first : e'.place = e.place := (List.cons.inj errors).1
    rcases r.tree with (_ | _ | _) | t
    exacts [failed first, rfl, failed first, failed first]

theorem parse_toLower (source : String) (bindings : Option (Bindings Float))
    (config : TimedConfig) (s s' : Engine) :
    (parse source.toLower bindings config s').1.mapError ReadFailure.place? =
      (parse source bindings config s).1.mapError ReadFailure.place? := by
  have refusal := refusal?_toLower source config
  cases refused : refusal? (some source) config with
  | some e =>
    unfold parse
    rw [refusal, refused]
    rfl
  | none =>
    have length : source.toLower.length = source.length := String.length_map
    rw [parse_value refused, parse_value (refusal.trans refused), lexemes_toLower, length]
    have last : (Token.endAt source.length).lower = Token.endAt source.length := rfl
    obtain ⟨tree, errors⟩ :=
      ParseRun.ofTokens_lower config bindings false (Token.lexemes source) last rfl rfl
    exact verdict_congr length tree errors

theorem ok_of_mapError {β ε ε' : Type} {f : ε → ε'} {r : Except ε β} {x : β}
    (h : r.mapError f = .ok x) : r = .ok x := by
  cases r with
  | error e => cases h
  | ok y => exact congrArg Except.ok (Except.ok.inj h)

/-- Sources that differ only in the case of letters have the same tree, or errors of the same code
in the same place, or both a number that is too large. -/
theorem parse_caseless {source source' : String} (same : source'.toLower = source.toLower)
    (bindings : Option (Bindings Float)) (config : TimedConfig) (s s' : Engine) :
    (parse source' bindings config s').1.mapError ReadFailure.place? =
      (parse source bindings config s).1.mapError ReadFailure.place? := by
  rw [← parse_toLower source bindings config s s, ← same, parse_toLower source']

theorem parse_caseless_call :
    "SIN(X)".toLower = "Sin(x)".toLower ∧
      (parse "Sin(x)" none {} .start).1 = .ok (.call "SIN" [.var "X"] : Expr Float) ∧
      (parse "SIN(X)" none {} .start).1 = .ok (.call "SIN" [.var "X"] : Expr Float) := by
  have same : "SIN(X)".toLower = "Sin(x)".toLower := by
    rw [← String.toList_inj, Text.toList_toLower, Text.toList_toLower]
    decide
  have read : (parse "Sin(x)" none {} .start).1 = .ok (.call "SIN" [.var "X"] : Expr Float) := by
    with_unfolding_all rfl
  have both : (parse "SIN(X)" none {} .start).1.mapError ReadFailure.place? = .ok _ :=
    (parse_caseless same none {} .start .start).trans (congrArg _ read)
  exact ⟨same, read, ok_of_mapError both⟩

end Source

end DerivativeEngine
