import DerivativeEngine.Source.Token

/-! What a text is as tokens, in front of any text that does not go on with it. A literal, a name
and an operator end before a blank, a closing bracket or a comma, whatever comes after that; so
the tokens of a text put together from pieces are the tokens of the pieces. -/

namespace DerivativeEngine

def Breaks (rest : List Char) : Prop := ∀ c ∈ rest.head?, c = ' ' ∨ c = ')' ∨ c = ','

theorem Breaks.nil : Breaks [] := by simp [Breaks]

theorem Breaks.cons {c : Char} {rest : List Char} (h : c = ' ' ∨ c = ')' ∨ c = ',') :
    Breaks (c :: rest) := by
  simpa [Breaks] using h

theorem Breaks.head_false {p : Char → Bool} {rest : List Char} (h : Breaks rest)
    (blank : p ' ' = false) (closing : p ')' = false) (comma : p ',' = false) :
    ∀ c ∈ rest.head?, p c = false := by
  intro c hc
  rcases h c hc with rfl | rfl | rfl
  · exact blank
  · exact closing
  · exact comma

theorem takeWhile_append_of_head {p : Char → Bool} {cs rest : List Char}
    (h : ∀ c ∈ rest.head?, p c = false) : (cs ++ rest).takeWhile p = cs.takeWhile p := by
  induction cs with
  | nil => cases rest <;> simp_all
  | cons c cs ih => simp only [List.cons_append, List.takeWhile_cons, ih]

theorem dropWhile_append_of_head {p : Char → Bool} {cs rest : List Char}
    (h : ∀ c ∈ rest.head?, p c = false) : (cs ++ rest).dropWhile p = cs.dropWhile p ++ rest := by
  induction cs with
  | nil => cases rest <;> simp_all
  | cons c cs ih =>
    simp only [List.cons_append, List.dropWhile_cons]
    split
    · exact ih
    · rfl

namespace Numeral

variable {cs rest : List Char}

theorem scanMantissa_point {digit : Char → Bool} {frac : List Char}
    (h : cs.dropWhile digit = '.' :: frac) :
    scanMantissa digit cs =
      if (cs.takeWhile digit).isEmpty && (frac.takeWhile digit).isEmpty then none
      else some (cs.takeWhile digit, frac.takeWhile digit, frac.dropWhile digit) := by
  unfold scanMantissa
  rw [h]
  rfl

theorem scanMantissa_plain {digit : Char → Bool} (h : ∀ frac, cs.dropWhile digit ≠ '.' :: frac) :
    scanMantissa digit cs =
      if (cs.takeWhile digit).isEmpty then none
      else some (cs.takeWhile digit, [], cs.dropWhile digit) := by
  unfold scanMantissa
  dsimp only
  split
  · next frac hfrac => exact absurd hfrac (h frac)
  · rfl

theorem scanMantissa_append (h : Breaks rest) {whole frac after : List Char}
    (scanned : scanMantissa isDecimalDigit cs = some (whole, frac, after)) :
    scanMantissa isDecimalDigit (cs ++ rest) = some (whole, frac, after ++ rest) := by
  have digit : ∀ c ∈ rest.head?, isDecimalDigit c = false := h.head_false rfl rfl rfl
  have takes := @takeWhile_append_of_head _ cs rest digit
  have drops := @dropWhile_append_of_head _ cs rest digit
  by_cases point : ∃ frac', cs.dropWhile isDecimalDigit = '.' :: frac'
  · obtain ⟨frac', hf⟩ := point
    have hf' : (cs ++ rest).dropWhile isDecimalDigit = '.' :: (frac' ++ rest) := by
      rw [drops, hf, List.cons_append]
    rw [scanMantissa_point hf] at scanned
    rw [scanMantissa_point hf', takes, takeWhile_append_of_head digit,
      dropWhile_append_of_head digit]
    grind
  · have plain : ∀ frac', cs.dropWhile isDecimalDigit ≠ '.' :: frac' := fun frac' hf =>
      point ⟨frac', hf⟩
    have plain' : ∀ frac', (cs ++ rest).dropWhile isDecimalDigit ≠ '.' :: frac' := by
      intro frac' hf
      rw [drops] at hf
      rcases hd : cs.dropWhile isDecimalDigit with _ | ⟨c, left⟩
      · rw [hd, List.nil_append] at hf
        rcases h '.' (by simp [hf]) with hc | hc | hc <;> exact absurd hc (by decide)
      · rw [hd, List.cons_append, List.cons.injEq] at hf
        exact plain left (by rw [hd, hf.1])
    rw [scanMantissa_plain plain] at scanned
    rw [scanMantissa_plain plain', takes, drops]
    grind

def scanSign : List Char → Bool × List Char
  | '+' :: r => (false, r)
  | '-' :: r => (true, r)
  | r => (false, r)

theorem scanSign_append (h : Breaks rest) :
    scanSign (cs ++ rest) = ((scanSign cs).1, (scanSign cs).2 ++ rest) := by
  rcases cs with _ | ⟨c, cs⟩
  · rw [List.nil_append]
    unfold scanSign
    split
    · rcases h '+' rfl with hc | hc | hc <;> exact absurd hc (by decide)
    · rcases h '-' rfl with hc | hc | hc <;> exact absurd hc (by decide)
    · rfl
  · rw [List.cons_append]
    unfold scanSign
    grind

theorem scanExponent_cons {mark : Char → Bool} {c : Char} (marked : mark c = true) :
    scanExponent mark (c :: cs) =
      if ((scanSign cs).2.takeWhile isDecimalDigit).isEmpty then (0, c :: cs)
      else
        let n : Int := natOfDigits 10 ((scanSign cs).2.takeWhile isDecimalDigit)
        (if (scanSign cs).1 then -n else n, (scanSign cs).2.dropWhile isDecimalDigit) := by
  unfold scanExponent
  dsimp only
  rw [if_pos marked]
  rfl

theorem scanExponent_append (h : Breaks rest) {e : Int} {after : List Char}
    (scanned : scanExponent (fun c => c == 'e' || c == 'E') cs = (e, after)) :
    scanExponent (fun c => c == 'e' || c == 'E') (cs ++ rest) = (e, after ++ rest) := by
  have digit : ∀ c ∈ rest.head?, isDecimalDigit c = false := h.head_false rfl rfl rfl
  have mark : ∀ c ∈ rest.head?, (c == 'e' || c == 'E') = false :=
    h.head_false (p := fun c => c == 'e' || c == 'E') rfl rfl rfl
  rcases cs with _ | ⟨c, cs⟩
  · obtain ⟨rfl, rfl⟩ : (0 : Int) = e ∧ [] = after := Prod.mk.inj scanned
    rcases rest with _ | ⟨c, rest⟩
    · rfl
    · simp [scanExponent, mark c rfl]
  · cases marked : (c == 'e' || c == 'E') with
    | true =>
      rw [List.cons_append, scanExponent_cons marked, scanSign_append h]
      rw [scanExponent_cons marked] at scanned
      dsimp only
      rw [takeWhile_append_of_head digit, dropWhile_append_of_head digit]
      grind
    | false =>
      simp only [scanExponent, marked, List.cons_append, Bool.false_eq_true, if_false,
        Prod.mk.injEq] at scanned ⊢
      exact ⟨scanned.1, by rw [← scanned.2, List.cons_append]⟩

theorem scanDecimal_append (h : Breaks rest) {l : Literal} {after : List Char}
    (scanned : scanDecimal cs = some (l, after)) :
    scanDecimal (cs ++ rest) = some (l, after ++ rest) := by
  unfold scanDecimal at scanned ⊢
  obtain ⟨⟨whole, frac, left⟩, mantissa, scanned⟩ := Option.bind_eq_some_iff.1 scanned
  rw [scanMantissa_append h mantissa]
  rcases exponent : scanExponent (fun c => c == 'e' || c == 'E') left with ⟨e, after'⟩
  dsimp only at scanned
  rw [exponent] at scanned
  simp only [Option.some.injEq, Prod.mk.injEq] at scanned
  obtain ⟨rfl, rfl⟩ := scanned
  simp [scanExponent_append h exponent]

theorem scanDecimal_head {l : Literal} {after : List Char}
    (scanned : scanDecimal cs = some (l, after)) :
    ∃ c cs', cs = c :: cs' ∧ (isDecimalDigit c = true ∨ c = '.') := by
  rcases cs with _ | ⟨c, cs⟩
  · simp [scanDecimal, scanMantissa] at scanned
  · refine ⟨c, cs, rfl, ?_⟩
    cases digit : isDecimalDigit c with
    | true => exact .inl rfl
    | false =>
      refine .inr (Decidable.byContradiction fun point => ?_)
      have plain : ∀ frac, (c :: cs).dropWhile isDecimalDigit ≠ '.' :: frac := by
        intro frac hf
        rw [List.dropWhile_cons, digit] at hf
        exact point (List.cons.inj hf).1
      rw [scanDecimal, scanMantissa_plain plain, List.takeWhile_cons, digit] at scanned
      simp at scanned

theorem scanDecimal_zero_x {x : Char} (hx : x = 'x' ∨ x = 'X') :
    scanDecimal ('0' :: x :: cs) = some (⟨false, ['0'], [], 0⟩, x :: cs) := by
  rcases hx with rfl | rfl <;> rfl

theorem scanHex_of_scanDecimal {l : Literal} (scanned : scanDecimal cs = some (l, []))
    (h : Breaks rest) : scanHex (cs ++ rest) = none := by
  rcases cs with _ | ⟨c, _ | ⟨x, cs⟩⟩
  · simp [scanDecimal, scanMantissa] at scanned
  · rcases rest with _ | ⟨x, rest⟩
    · unfold scanHex
      split <;> simp_all
    · have hx := h x rfl
      unfold scanHex
      split
      · next heq =>
        simp only [List.singleton_append, List.cons.injEq] at heq
        obtain ⟨-, rfl, -⟩ := heq
        rcases hx with rfl | rfl | rfl <;> rfl
      · rfl
  · unfold scanHex
    split
    · next x' rest' heq =>
      simp only [List.cons_append, List.cons.injEq] at heq
      obtain ⟨rfl, rfl, -⟩ := heq
      refine if_neg fun hx => ?_
      rw [scanDecimal_zero_x (by simpa using hx)] at scanned
      simp at scanned
    · rfl

theorem scanLiteral_append (h : Breaks rest) {l : Literal}
    (scanned : scanDecimal cs = some (l, [])) : scanLiteral (cs ++ rest) = some (l, rest) := by
  rw [scanLiteral, scanHex_of_scanDecimal scanned h, scanDecimal_append h scanned]
  rfl

end Numeral

namespace Token

theorem ofChars_zero (pos : Nat) (c : Char) (rest : List Char) :
    ofChars pos 0 (c :: rest) =
      match scan c rest with
      | (none, n) => ofChars (pos + 1) (n - 1) rest
      | (some (kind, text), n) =>
        ⟨kind, text, pos, pos + n⟩ :: ofChars (pos + 1) (n - 1) rest := by
  exact (rfl)

theorem kind_of_pair {c c' : Char} {kind : TokenKind} (h : pairKind? c c' = some kind) :
    kind ≠ .eof ∧ kind ≠ .ident ∧ kind ≠ .number := by
  unfold pairKind? at h
  split at h <;> simp_all <;> subst h <;> decide

theorem kind_of_single {c : Char} {kind : TokenKind} (h : singleKind? c = some kind) :
    kind ≠ .eof ∧ kind ≠ .ident ∧ kind ≠ .number := by
  unfold singleKind? at h
  split at h <;> simp_all <;> subst h <;> decide

theorem kind_of_pair_head {c : Char} {rest : List Char} {kind : TokenKind}
    (h : rest.head?.bind (pairKind? c) = some kind) :
    kind ≠ .eof ∧ kind ≠ .ident ∧ kind ≠ .number := by
  obtain ⟨c', -, hk⟩ := Option.bind_eq_some_iff.1 h
  exact kind_of_pair hk

theorem kind_of_scan {c : Char} {rest : List Char} {kind : TokenKind} {text : String} {n : Nat}
    (h : scan c rest = (some (kind, text), n)) : kind ≠ .eof := by
  have pair := @kind_of_pair_head c rest
  have single := @kind_of_single c
  unfold scan at h
  grind

theorem kind_ne_number_of_scan {c : Char} {rest : List Char} {kind : TokenKind} {text : String}
    {n : Nat} (h : scan c rest = (some (kind, text), n))
    (digit : (Text.isDigit c || c == '.') = false) : kind ≠ .number := by
  have pair := @kind_of_pair_head c rest
  have single := @kind_of_single c
  unfold scan at h
  grind

theorem blank_of_scan_none {c : Char} {rest : List Char} {n : Nat}
    (h : scan c rest = (none, n)) : Text.isBlank c = true := by
  unfold scan at h
  grind

theorem text_of_scan_ident {c : Char} {rest : List Char} {text : String} {n : Nat}
    (h : scan c rest = (some (.ident, text), n)) :
    isIdentStart c = true ∧
      text.toList = (c :: rest.takeWhile isIdentPart).take maxNameLength := by
  have pair := @kind_of_pair_head c rest
  have single := @kind_of_single c
  unfold scan at h
  grind [String.toList_ofList]

theorem scan_of_mem_ofChars {pos skip : Nat} {cs : List Char} {tok : Token}
    (h : tok ∈ ofChars pos skip cs) :
    ∃ c rest n, scan c rest = (some (tok.kind, tok.text), n) := by
  induction cs generalizing pos skip with
  | nil => exact absurd h List.not_mem_nil
  | cons c rest ih =>
    cases skip with
    | succ k => exact ih h
    | zero =>
      rw [ofChars_zero] at h
      split at h
      · exact ih h
      · next scanned =>
        rcases List.mem_cons.1 h with rfl | later
        · exact ⟨c, rest, _, scanned⟩
        · exact ih later

theorem kind_of_mem_ofChars {pos skip : Nat} {cs : List Char} {tok : Token}
    (h : tok ∈ ofChars pos skip cs) : tok.kind ≠ .eof := by
  obtain ⟨c, rest, n, scanned⟩ := scan_of_mem_ofChars h
  exact kind_of_scan scanned

theorem scan_of_head_ofChars {pos : Nat} {c : Char} {rest : List Char} {tok : Token}
    {more : List Token} (visible : Text.isBlank c = false)
    (h : ofChars pos 0 (c :: rest) = tok :: more) :
    ∃ n, scan c rest = (some (tok.kind, tok.text), n) := by
  rw [ofChars_zero] at h
  split at h
  · next blank =>
    rw [blank_of_scan_none blank] at visible
    exact Bool.noConfusion visible
  · next scanned =>
    obtain ⟨rfl, -⟩ := List.cons.inj h
    exact ⟨_, scanned⟩

theorem ofChars_of_blank {pos : Nat} {cs : List Char} (h : cs.all Text.isBlank = true) :
    ofChars pos 0 cs = [] := by
  induction cs generalizing pos with
  | nil => rfl
  | cons c rest ih =>
    rw [List.all_cons, Bool.and_eq_true] at h
    rw [ofChars_zero, scan, if_pos h.1]
    exact ih h.2

theorem ofChars_skip (pos k : Nat) (cs : List Char) :
    ofChars pos k cs = ofChars (pos + k) 0 (cs.drop k) := by
  induction cs generalizing pos k with
  | nil =>
    rw [List.drop_nil]
    rfl
  | cons c cs ih =>
    cases k with
    | zero => rfl
    | succ k =>
      rw [List.drop_succ_cons, show pos + (k + 1) = pos + 1 + k by omega, ← ih]
      exact (rfl)

theorem ofChars_scan {c : Char} {rest : List Char} {kind : TokenKind} {text : String} {n : Nat}
    (h : scan c rest = (some (kind, text), n + 1)) (pos : Nat) :
    ofChars pos 0 (c :: rest) =
      ⟨kind, text, pos, pos + (n + 1)⟩ :: ofChars (pos + (n + 1)) 0 (rest.drop n) := by
  rw [ofChars_zero, h]
  dsimp only
  rw [ofChars_skip, Nat.add_sub_cancel, show pos + 1 + n = pos + (n + 1) by omega]

theorem ofChars_space (pos : Nat) (rest : List Char) :
    ofChars pos 0 (' ' :: rest) = ofChars (pos + 1) 0 rest := by
  rw [ofChars_zero, scan, if_pos (by decide)]

def marks : List Char := ['+', '-', '*', '/', '^', '!', '(', ')', ',', '>', '<', '&', '|', '=']

theorem plain_of_mem_marks {c : Char} (h : c ∈ marks) :
    Text.isBlank c = false ∧ (Text.isDigit c || c == '.') = false ∧ isIdentStart c = false := by
  have all : marks.all (fun c => !Text.isBlank c && !(Text.isDigit c || c == '.') &&
      !isIdentStart c) = true := by decide +kernel
  have plain := List.all_eq_true.1 all c h
  simp only [Bool.and_eq_true, Bool.not_eq_true'] at plain
  exact ⟨plain.1.1, plain.1.2, plain.2⟩

theorem scan_single {c : Char} {rest : List Char} {kind : TokenKind} (mark : c ∈ marks)
    (alone : rest.head?.bind (pairKind? c) = none) (single : singleKind? c = some kind) :
    scan c rest = (some (kind, String.ofList [c]), 1) := by
  obtain ⟨blank, digit, ident⟩ := plain_of_mem_marks mark
  simp [scan, blank, digit, ident, alone, single]

theorem scan_pair {c c' : Char} {rest : List Char} {kind : TokenKind} (mark : c ∈ marks)
    (pair : pairKind? c c' = some kind) :
    scan c (c' :: rest) = (some (kind, String.ofList [c, c']), 2) := by
  obtain ⟨blank, digit, ident⟩ := plain_of_mem_marks mark
  simp [scan, blank, digit, ident, pair]

def Spells (cs rest : List Char) (kind : TokenKind) : Prop :=
  ∀ pos, ofChars pos 0 (cs ++ rest) =
    ⟨kind, String.ofList cs, pos, pos + cs.length⟩ :: ofChars (pos + cs.length) 0 rest

theorem Spells.token {cs rest : List Char} {kind : TokenKind} (h : Spells cs rest kind)
    (pos : Nat) :
    ∃ tok pos', ofChars pos 0 (cs ++ rest) = tok :: ofChars pos' 0 rest ∧ tok.kind = kind ∧
      tok.text = String.ofList cs :=
  ⟨_, _, h pos, rfl, rfl⟩

theorem spells_single {c : Char} {rest : List Char} {kind : TokenKind} (mark : c ∈ marks)
    (alone : rest.head?.bind (pairKind? c) = none) (single : singleKind? c = some kind) :
    Spells [c] rest kind :=
  ofChars_scan (scan_single mark alone single)

theorem spells_pair {c c' : Char} {rest : List Char} {kind : TokenKind} (mark : c ∈ marks)
    (pair : pairKind? c c' = some kind) : Spells [c, c'] rest kind :=
  ofChars_scan (scan_pair mark pair)

theorem spells_bracket {c : Char} {rest : List Char} {kind : TokenKind}
    (h : (c, kind) ∈
      [('(', .leftParen), (')', .rightParen), (',', .comma), ('-', TokenKind.minus)]) :
    Spells [c] rest kind := by
  have alone : ∀ c', pairKind? c c' = none := by
    intro c'
    simp only [List.mem_cons, Prod.mk.injEq, List.not_mem_nil, or_false] at h
    rcases h with ⟨rfl, -⟩ | ⟨rfl, -⟩ | ⟨rfl, -⟩ | ⟨rfl, -⟩ <;> rfl
  refine spells_single ?_ ?_ ?_
  · simp only [List.mem_cons, Prod.mk.injEq, List.not_mem_nil, or_false] at h
    rcases h with ⟨rfl, -⟩ | ⟨rfl, -⟩ | ⟨rfl, -⟩ | ⟨rfl, -⟩ <;> decide
  · cases rest with
    | nil => rfl
    | cons c' rest => exact alone c'
  · simp only [List.mem_cons, Prod.mk.injEq, List.not_mem_nil, or_false] at h
    rcases h with ⟨rfl, rfl⟩ | ⟨rfl, rfl⟩ | ⟨rfl, rfl⟩ | ⟨rfl, rfl⟩ <;> rfl

theorem spells_bang {rest : List Char} (h : ∀ c ∈ rest.head?, c ≠ '=') :
    Spells ['!'] rest .bang := by
  refine spells_single (by decide) ?_ rfl
  cases rest with
  | nil => rfl
  | cons c rest =>
    have other := h c rfl
    simp only [List.head?_cons, Option.bind_some, pairKind?]
    split <;> simp_all

theorem of_ascii {p : Char → Prop} (h : ∀ n < 128, p (Char.ofNat n)) {c : Char}
    (ascii : c.toNat < 128) : p c := by
  have hc := h c.toNat ascii
  rwa [Char.ofNat_toNat] at hc

theorem ascii_of_isIdentPart {c : Char} (h : isIdentPart c = true) : c.toNat < 128 := by
  simp only [isIdentPart, isIdentStart, Bool.or_eq_true, Bool.and_eq_true, decide_eq_true_eq,
    Char.le_def, UInt32.le_iff_toNat_le] at h
  change c.val.toNat < 128
  have z : 'z'.val.toNat = 122 := rfl
  have Z : 'Z'.val.toNat = 90 := rfl
  have nine : '9'.val.toNat = 57 := rfl
  omega

theorem letter_plain {c : Char} (h : isIdentStart c = true) :
    Text.isBlank c = false ∧ (Text.isDigit c || c == '.') = false := by
  have ascii : c.toNat < 128 := ascii_of_isIdentPart (by simp [isIdentPart, h])
  revert h
  exact of_ascii (p := fun c => isIdentStart c = true →
    Text.isBlank c = false ∧ (Text.isDigit c || c == '.') = false) (by decide +kernel) ascii

theorem digit_plain {c : Char} (h : Numeral.isDecimalDigit c = true ∨ c = '.') :
    Text.isBlank c = false ∧ (Text.isDigit c || c == '.') = true := by
  have ascii : c.toNat < 128 := by
    rcases h with h | rfl
    · exact ascii_of_isIdentPart (by
        rw [isIdentPart, Bool.or_eq_true]
        exact .inr h)
    · decide
  revert h
  exact of_ascii (p := fun c => Numeral.isDecimalDigit c = true ∨ c = '.' →
    Text.isBlank c = false ∧ (Text.isDigit c || c == '.') = true) (by decide +kernel) ascii

theorem spells_name {c : Char} {cs rest : List Char}
    (stop : ∀ c ∈ rest.head?, isIdentPart c = false)
    (start : isIdentStart c = true) (part : ∀ c ∈ cs, isIdentPart c = true)
    (short : (c :: cs).length ≤ maxNameLength) : Spells (c :: cs) rest .ident := by
  obtain ⟨blank, digit⟩ := letter_plain start
  have name : (cs ++ rest).takeWhile isIdentPart = cs := by
    rw [List.takeWhile_append_of_pos part]
    cases rest with
    | nil => simp
    | cons c rest => simp [stop c rfl]
  have scanned : scan c (cs ++ rest) = (some (.ident, String.ofList (c :: cs)), cs.length + 1) := by
    simp only [scan, blank, digit, start, name, List.take_of_length_le short, List.length_cons,
      Bool.false_eq_true, if_false, if_true]
  intro pos
  rw [List.cons_append, ofChars_scan scanned, List.drop_left]
  rfl

theorem spells_literal {c : Char} {cs rest : List Char} {l : Numeral.Literal}
    (start : Numeral.isDecimalDigit c = true ∨ c = '.')
    (literal : Numeral.scanLiteral (c :: (cs ++ rest)) = some (l, rest)) :
    Spells (c :: cs) rest .number := by
  obtain ⟨blank, digit⟩ := digit_plain start
  have taken : scan c (cs ++ rest) =
      (some (.number, String.ofList (c :: cs)), cs.length + 1) := by
    have length : (c :: (cs ++ rest)).length - rest.length = (c :: cs).length := by
      simp only [List.length_cons, List.length_append]
      omega
    have text : (c :: (cs ++ rest)).take (c :: cs).length = c :: cs := by
      rw [← List.cons_append, List.take_left]
    simp only [scan, blank, digit, literal, length, text, Bool.false_eq_true, if_false, if_true]
    rfl
  intro pos
  rw [List.cons_append, ofChars_scan taken, List.drop_left]
  rfl

theorem spells_number {cs rest : List Char} (h : Breaks rest) {l : Numeral.Literal}
    (scanned : Numeral.scanDecimal cs = some (l, [])) : Spells cs rest .number := by
  obtain ⟨c, cs, rfl, start⟩ := Numeral.scanDecimal_head scanned
  have literal := Numeral.scanLiteral_append h scanned
  rw [List.cons_append] at literal
  exact spells_literal start literal

end Token

end DerivativeEngine
