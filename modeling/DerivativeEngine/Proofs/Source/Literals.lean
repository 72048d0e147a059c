import Mathlib.Data.List.TakeWhile
import DerivativeEngine.Proofs.Numeral.Range
import DerivativeEngine.Proofs.Source.Lexing
import DerivativeEngine.Scalar.Double

/-! What a number token holds. A scanner takes the same characters when the text ends behind them,
so the characters of a number token are one literal to the end, and the token has the value of that
literal, if the literal has one. -/

namespace DerivativeEngine

namespace Numeral

variable {cs after : List Char} {digit mark : Char → Bool}

theorem scanMantissa_cut (point : digit '.' = false) {whole frac : List Char}
    (scanned : scanMantissa digit cs = some (whole, frac, after)) :
    ∃ front, cs = front ++ after ∧ ∀ tail, (∀ c ∈ tail.head?, after.head? = some c) →
      scanMantissa digit (front ++ tail) = some (whole, frac, tail) := by
  have split := (List.takeWhile_append_dropWhile (p := digit) (l := cs)).symm
  have digits : ∀ c ∈ cs.takeWhile digit, digit c = true := fun c h => List.mem_takeWhile_imp h
  have ends (l : List Char) : ∀ c ∈ (l.dropWhile digit).head?, digit c = false := by
    intro c hc
    have stop := List.head?_dropWhile_not digit l
    rw [Option.mem_def] at hc
    rw [hc] at stop
    exact stop
  by_cases pointed : ∃ more, cs.dropWhile digit = '.' :: more
  · obtain ⟨more, hm⟩ := pointed
    rw [scanMantissa_point hm] at scanned
    split_ifs at scanned with empty
    obtain ⟨rfl, rfl, rfl⟩ : cs.takeWhile digit = whole ∧ more.takeWhile digit = frac ∧
        more.dropWhile digit = after := by simpa using scanned
    refine ⟨cs.takeWhile digit ++ '.' :: more.takeWhile digit, ?_, fun tail starts => ?_⟩
    · rw [List.append_assoc, List.cons_append, List.takeWhile_append_dropWhile, ← hm, ← split]
    · have stop : ∀ c ∈ tail.head?, digit c = false := fun c hc =>
        ends more c (starts c hc)
      have fracs : ∀ c ∈ more.takeWhile digit, digit c = true := fun c h =>
        List.mem_takeWhile_imp h
      have dot : ∀ c ∈ ('.' :: (more.takeWhile digit ++ tail)).head?, digit c = false := by
        simpa using point
      rw [List.append_assoc, List.cons_append]
      have rest : (cs.takeWhile digit ++ '.' :: (more.takeWhile digit ++ tail)).dropWhile digit =
          '.' :: (more.takeWhile digit ++ tail) := by
        rw [dropWhile_append_of_head dot, List.dropWhile_eq_nil_iff.2 digits, List.nil_append]
      rw [scanMantissa_point rest, takeWhile_append_of_head dot, takeWhile_append_of_head stop,
        dropWhile_append_of_head stop, List.dropWhile_eq_nil_iff.2 fracs,
        List.takeWhile_eq_self_iff.2 digits, List.takeWhile_eq_self_iff.2 fracs, if_neg empty,
        List.nil_append]
  · have plain : ∀ more, cs.dropWhile digit ≠ '.' :: more := fun more hm => pointed ⟨more, hm⟩
    rw [scanMantissa_plain plain] at scanned
    split_ifs at scanned with empty
    obtain ⟨rfl, rfl, rfl⟩ : cs.takeWhile digit = whole ∧ [] = frac ∧
        cs.dropWhile digit = after := by simpa using scanned
    refine ⟨cs.takeWhile digit, split, fun tail starts => ?_⟩
    have stop : ∀ c ∈ tail.head?, digit c = false := fun c hc => ends cs c (starts c hc)
    have rest : (cs.takeWhile digit ++ tail).dropWhile digit = tail := by
      rw [dropWhile_append_of_head stop, List.dropWhile_eq_nil_iff.2 digits, List.nil_append]
    have unpointed : ∀ more, (cs.takeWhile digit ++ tail).dropWhile digit ≠ '.' :: more := by
      intro more hm
      rw [rest] at hm
      have same := starts '.' (by rw [hm]; rfl)
      obtain ⟨more', hm'⟩ := List.head?_eq_some_iff.1 same
      exact plain more' hm'
    rw [scanMantissa_plain unpointed, takeWhile_append_of_head stop, rest,
      List.takeWhile_eq_self_iff.2 digits, if_neg empty]

theorem scanSign_cut (cs : List Char) :
    ∃ sign, cs = sign ++ (scanSign cs).2 ∧ ∀ c ds, isDecimalDigit c = true →
      scanSign (sign ++ c :: ds) = ((scanSign cs).1, c :: ds) := by
  have unsigned : ∀ c ds, isDecimalDigit c = true → scanSign (c :: ds) = (false, c :: ds) := by
    intro c ds hc
    unfold scanSign
    split
    · next heq => exact absurd hc (by rw [(List.cons.inj heq).1]; decide)
    · next heq => exact absurd hc (by rw [(List.cons.inj heq).1]; decide)
    · rfl
  rcases cs with _ | ⟨x, cs⟩
  · exact ⟨[], rfl, unsigned⟩
  · by_cases plus : x = '+'
    · subst plus
      exact ⟨['+'], rfl, fun _ _ _ => rfl⟩
    by_cases minus : x = '-'
    · subst minus
      exact ⟨['-'], rfl, fun _ _ _ => rfl⟩
    have none : scanSign (x :: cs) = (false, x :: cs) := by
      unfold scanSign
      grind
    rw [none]
    exact ⟨[], rfl, unsigned⟩

theorem scanExponent_cut {e : Int} (scanned : scanExponent mark cs = (e, after)) :
    ∃ front, cs = front ++ after ∧ scanExponent mark front = (e, []) := by
  have untaken : (0, cs) = (e, after) →
      ∃ front, cs = front ++ after ∧ scanExponent mark front = (e, []) := by
    intro same
    obtain ⟨rfl, rfl⟩ := Prod.mk.inj same
    exact ⟨[], rfl, rfl⟩
  rcases cs with _ | ⟨c, cs⟩
  · exact untaken scanned
  cases marked : mark c with
  | false =>
    refine untaken ?_
    rw [← scanned]
    simp [scanExponent, marked]
  | true =>
    rw [scanExponent_cons marked] at scanned
    by_cases empty : ((scanSign cs).2.takeWhile isDecimalDigit).isEmpty
    · exact untaken (by rwa [if_pos empty] at scanned)
    rw [if_neg empty] at scanned
    obtain ⟨sign, split, signed⟩ := scanSign_cut cs
    have digits : ∀ c ∈ (scanSign cs).2.takeWhile isDecimalDigit, isDecimalDigit c = true :=
      fun c h => List.mem_takeWhile_imp h
    have parts := (List.takeWhile_append_dropWhile (p := isDecimalDigit)
      (l := (scanSign cs).2)).symm
    generalize ds_eq : (scanSign cs).2.takeWhile isDecimalDigit = ds at scanned digits parts empty
    rcases ds with _ | ⟨d, ds⟩
    · exact absurd rfl empty
    obtain ⟨rfl, rfl⟩ := Prod.mk.inj scanned
    refine ⟨c :: (sign ++ d :: ds), ?_, ?_⟩
    · rw [List.cons_append, List.append_assoc, ← parts, ← split]
    · rw [scanExponent_cons marked, signed d ds (digits d List.mem_cons_self)]
      dsimp only
      rw [List.takeWhile_eq_self_iff.2 digits, List.dropWhile_eq_nil_iff.2 digits, if_neg empty]

theorem scan_cut (point : digit '.' = false) {whole frac left : List Char} {e : Int}
    (mantissa : scanMantissa digit cs = some (whole, frac, left))
    (exponent : scanExponent mark left = (e, after)) :
    ∃ front, cs = front ++ after ∧ ∃ left', scanMantissa digit front = some (whole, frac, left') ∧
      scanExponent mark left' = (e, []) := by
  obtain ⟨first, rfl, reads⟩ := scanMantissa_cut point mantissa
  obtain ⟨second, rfl, ends⟩ := scanExponent_cut exponent
  refine ⟨first ++ second, (List.append_assoc ..).symm, second, reads second ?_, ends⟩
  intro c hc
  rw [List.head?_append, Option.mem_def.1 hc]
  rfl

theorem scanDecimal_cut {l : Literal} (scanned : scanDecimal cs = some (l, after)) :
    ∃ front, cs = front ++ after ∧ scanDecimal front = some (l, []) := by
  unfold scanDecimal at scanned
  obtain ⟨⟨whole, frac, left⟩, mantissa, scanned⟩ := Option.bind_eq_some_iff.1 scanned
  rcases exponent : scanExponent (fun c => c == 'e' || c == 'E') left with ⟨e, after'⟩
  dsimp only at scanned
  rw [exponent] at scanned
  obtain ⟨rfl, rfl⟩ := Prod.mk.inj (Option.some.inj scanned)
  obtain ⟨front, split, left', reads, ends⟩ := scan_cut rfl mantissa exponent
  refine ⟨front, split, ?_⟩
  simp [scanDecimal, reads, ends]

theorem scanHex_cut {l : Literal} (scanned : scanHex cs = some (l, after)) :
    ∃ front, cs = front ++ after ∧ scanHex front = some (l, []) := by
  unfold scanHex at scanned
  split at scanned
  · next x rest =>
    split_ifs at scanned with hx
    obtain ⟨⟨whole, frac, left⟩, mantissa, scanned⟩ := Option.bind_eq_some_iff.1 scanned
    rcases exponent : scanExponent (fun c => c == 'p' || c == 'P') left with ⟨e, after'⟩
    dsimp only at scanned
    rw [exponent] at scanned
    obtain ⟨rfl, rfl⟩ := Prod.mk.inj (Option.some.inj scanned)
    obtain ⟨front, split, left', reads, ends⟩ := scan_cut rfl mantissa exponent
    refine ⟨'0' :: x :: front, by rw [split]; rfl, ?_⟩
    simp [scanHex, hx, reads, ends]
  · simp at scanned

theorem scanLiteral_cut {l : Literal} (scanned : scanLiteral cs = some (l, after)) :
    ∃ front, cs = front ++ after ∧ scanLiteral front = some (l, []) := by
  cases hex : scanHex cs with
  | some r =>
    rw [scanLiteral, hex] at scanned
    obtain rfl : r = (l, after) := Option.some.inj scanned
    obtain ⟨front, split, reads⟩ := scanHex_cut hex
    refine ⟨front, split, ?_⟩
    rw [scanLiteral, reads]
    rfl
  | none =>
    rw [scanLiteral, hex] at scanned
    obtain ⟨front, split, reads⟩ := scanDecimal_cut scanned
    refine ⟨front, split, ?_⟩
    simpa using scanLiteral_append Breaks.nil reads

end Numeral

namespace Token

theorem literal_of_scan {c : Char} {rest : List Char} {text : String} {n : Nat}
    (h : scan c rest = (some (.number, text), n)) :
    ∃ l, Numeral.scanLiteral text.toList = some (l, []) := by
  cases digit : (Text.isDigit c || c == '.') with
  | false => exact absurd rfl (kind_ne_number_of_scan h digit)
  | true =>
    unfold scan at h
    by_cases blank : Text.isBlank c = true
    · simp [blank] at h
    rw [if_neg blank, if_pos digit] at h
    split at h
    · next l after scanned =>
      obtain ⟨front, split, reads⟩ := Numeral.scanLiteral_cut scanned
      have text_eq : String.ofList ((c :: rest).take ((c :: rest).length - after.length)) = text :=
        congrArg Prod.snd (Option.some.inj (Prod.mk.inj h).1)
      refine ⟨l, ?_⟩
      rw [← text_eq, String.toList_ofList, split, List.length_append, Nat.add_sub_cancel,
        List.take_left]
      exact reads
    · simp at h

theorem literal_of_mem_ofChars {pos skip : Nat} {cs : List Char} {tok : Token}
    (h : tok ∈ ofChars pos skip cs) (number : tok.kind = .number) :
    ∃ l, Numeral.scanLiteral tok.text.toList = some (l, []) := by
  obtain ⟨c, rest, n, scanned⟩ := scan_of_mem_ofChars h
  exact literal_of_scan (number ▸ scanned)

def Oversized (tok : Token) : Prop :=
  tok.kind = .number ∧ ∃ l, Numeral.scanLiteral tok.text.toList = some (l, []) ∧ l.hex = true ∧
    Numeral.doubleLimit ≤ l.magnitude

theorem oversized_of_numberValue?_eq_none {source : String} {tok : Token}
    (h : tok ∈ lexemes source) (number : tok.kind = .number)
    (large : (tok.numberValue? : Option Float) = none) : tok.Oversized := by
  obtain ⟨l, whole⟩ := literal_of_mem_ofChars h number
  rw [numberValue?, whole] at large
  have beyond : l.toFloat? = none := large
  exact ⟨number, l, whole, (Numeral.Literal.toFloat?_eq_none_iff l).1 beyond⟩

end Token

end DerivativeEngine

namespace DerivativeEngine

structure IsLongest (p : List Char → Prop) (front cs : List Char) : Prop where
  starts : front <+: cs
  own : p front
  longest : ∀ other, other <+: cs → p other → other.length ≤ front.length

theorem IsLongest.of_least {p : List Char → Prop} {front after : List Char} (own : p front)
    (least : ∀ other tail, other ++ tail = front ++ after → p other →
      after.length ≤ tail.length) : IsLongest p front (front ++ after) where
  starts := List.prefix_append front after
  own := own
  longest := by
    rintro other ⟨tail, split⟩ has
    have left := least other tail split has
    have total := congrArg List.length split
    rw [List.length_append, List.length_append] at total
    omega

theorem IsLongest.take {p : List Char → Prop} {front cs : List Char} (h : IsLongest p front cs) :
    cs.take front.length = front := by
  obtain ⟨tail, rfl⟩ := h.starts
  exact List.take_left

namespace Numeral

inductive IsMantissa (digit : Char → Bool) : List Char → Prop where
  | plain {whole : List Char} (digits : ∀ c ∈ whole, digit c = true) (some : whole ≠ []) :
      IsMantissa digit whole
  | pointed {whole frac : List Char} (digits : ∀ c ∈ whole, digit c = true)
      (fracs : ∀ c ∈ frac, digit c = true) (some : whole ≠ [] ∨ frac ≠ []) :
      IsMantissa digit (whole ++ '.' :: frac)

inductive IsExponent (mark : Char → Bool) : List Char → Prop where
  | absent : IsExponent mark []
  | present {c : Char} {sign ds : List Char} (marked : mark c = true)
      (signed : sign = [] ∨ sign = ['+'] ∨ sign = ['-'])
      (digits : ∀ d ∈ ds, isDecimalDigit d = true) (some : ds ≠ []) :
      IsExponent mark (c :: (sign ++ ds))

def IsNumeral (digit mark : Char → Bool) (cs : List Char) : Prop :=
  ∃ mantissa exponent, cs = mantissa ++ exponent ∧ IsMantissa digit mantissa ∧
    IsExponent mark exponent

/-- The literals of the grammar: decimal, or hexadecimal with a binary exponent. -/
inductive IsLiteral : List Char → Prop where
  | decimal {cs : List Char}
      (numeral : IsNumeral isDecimalDigit (fun c => c == 'e' || c == 'E') cs) : IsLiteral cs
  | hexadecimal {x : Char} {cs : List Char} (mark : x = 'x' ∨ x = 'X')
      (numeral : IsNumeral isHexDigit (fun c => c == 'p' || c == 'P') cs) :
      IsLiteral ('0' :: x :: cs)

variable {digit mark : Char → Bool} {cs after other : List Char}

theorem isMantissa_of_scan {whole frac : List Char}
    (scanned : scanMantissa digit cs = some (whole, frac, after)) :
    ∃ front, IsMantissa digit front ∧ cs = front ++ after := by
  have digits (l : List Char) : ∀ c ∈ l.takeWhile digit, digit c = true :=
    fun c h => List.mem_takeWhile_imp h
  have split := (List.takeWhile_append_dropWhile (p := digit) (l := cs)).symm
  by_cases pointed : ∃ more, cs.dropWhile digit = '.' :: more
  · obtain ⟨more, hm⟩ := pointed
    rw [scanMantissa_point hm] at scanned
    split_ifs at scanned with empty
    obtain ⟨-, -, rfl⟩ : cs.takeWhile digit = whole ∧ more.takeWhile digit = frac ∧
        more.dropWhile digit = after := by simpa using scanned
    rw [Bool.and_eq_true, List.isEmpty_iff, List.isEmpty_iff, not_and_or] at empty
    refine ⟨_, .pointed (digits cs) (digits more) empty, ?_⟩
    rw [List.append_assoc, List.cons_append, List.takeWhile_append_dropWhile, ← hm, ← split]
  · have plain : ∀ more, cs.dropWhile digit ≠ '.' :: more := fun more hm => pointed ⟨more, hm⟩
    rw [scanMantissa_plain plain] at scanned
    split_ifs at scanned with empty
    obtain ⟨-, -, rfl⟩ : cs.takeWhile digit = whole ∧ [] = frac ∧
        cs.dropWhile digit = after := by simpa using scanned
    exact ⟨_, .plain (digits cs) (by simpa using empty), split⟩

theorem scanSign_split (cs : List Char) :
    ∃ sign, (sign = [] ∨ sign = ['+'] ∨ sign = ['-']) ∧ cs = sign ++ (scanSign cs).2 := by
  unfold scanSign
  split
  · exact ⟨['+'], .inr (.inl rfl), rfl⟩
  · exact ⟨['-'], .inr (.inr rfl), rfl⟩
  · exact ⟨[], .inl rfl, rfl⟩

theorem isExponent_of_scan (mark : Char → Bool) (cs : List Char) :
    ∃ front, IsExponent mark front ∧ cs = front ++ (scanExponent mark cs).2 := by
  rcases cs with _ | ⟨c, cs⟩
  · exact ⟨[], .absent, rfl⟩
  cases marked : mark c with
  | false => exact ⟨[], .absent, by simp [scanExponent, marked]⟩
  | true =>
    rw [scanExponent_cons marked]
    by_cases empty : ((scanSign cs).2.takeWhile isDecimalDigit).isEmpty
    · rw [if_pos empty]
      exact ⟨[], .absent, rfl⟩
    · rw [if_neg empty]
      obtain ⟨sign, signed, split⟩ := scanSign_split cs
      refine ⟨_, .present marked signed (fun d h => List.mem_takeWhile_imp h)
        (by simpa using empty), ?_⟩
      rw [List.cons_append, List.append_assoc, List.takeWhile_append_dropWhile, ← split]

theorem length_dropWhile_le (digit : Char → Bool) (cs : List Char) :
    (cs.dropWhile digit).length ≤ cs.length :=
  (List.dropWhile_suffix digit).length_le

theorem takeWhile_ne_nil (digits : ∀ c ∈ other, digit c = true) (some : other ≠ [])
    (tail : List Char) : ((other ++ tail).takeWhile digit).isEmpty = false := by
  rw [List.takeWhile_append_of_pos digits, List.isEmpty_eq_false_iff]
  exact List.append_ne_nil_of_left_ne_nil some _

theorem scanMantissa_pointed (point : digit '.' = false) {whole frac : List Char}
    (digits : ∀ c ∈ whole, digit c = true) (fracs : ∀ c ∈ frac, digit c = true)
    (some : whole ≠ [] ∨ frac ≠ []) (tail : List Char) :
    scanMantissa digit (whole ++ '.' :: frac ++ tail) =
      Option.some (whole, (frac ++ tail).takeWhile digit, tail.dropWhile digit) := by
  have dot : ∀ c ∈ ('.' :: (frac ++ tail)).head?, digit c = false := by simpa using point
  have stop : (whole ++ '.' :: (frac ++ tail)).dropWhile digit = '.' :: (frac ++ tail) := by
    rw [dropWhile_append_of_head dot, List.dropWhile_eq_nil_iff.2 digits, List.nil_append]
  have taken : ¬ (whole.isEmpty && ((frac ++ tail).takeWhile digit).isEmpty) = true := by
    rw [Bool.and_eq_true, List.isEmpty_iff]
    rintro ⟨none, empty⟩
    rw [takeWhile_ne_nil fracs (some.resolve_left fun ne => ne none)] at empty
    exact Bool.false_ne_true empty
  rw [List.append_assoc, List.cons_append, scanMantissa_point stop, takeWhile_append_of_head dot,
    List.takeWhile_eq_self_iff.2 digits, if_neg taken, List.dropWhile_append_of_pos fracs]

theorem scanMantissa_least (point : digit '.' = false) (own : IsMantissa digit other)
    (tail : List Char) : ∃ whole frac after,
      scanMantissa digit (other ++ tail) = some (whole, frac, after) ∧
        after.length ≤ tail.length := by
  cases own with
  | plain digits some =>
    have taken := takeWhile_ne_nil digits some tail
    have left : (other ++ tail).dropWhile digit = tail.dropWhile digit :=
      List.dropWhile_append_of_pos digits
    have less := length_dropWhile_le digit tail
    by_cases pointed : ∃ more, tail.dropWhile digit = '.' :: more
    · obtain ⟨more, hm⟩ := pointed
      refine ⟨(other ++ tail).takeWhile digit, more.takeWhile digit, more.dropWhile digit, ?_, ?_⟩
      · rw [scanMantissa_point (left.trans hm), taken, Bool.false_and, if_neg Bool.false_ne_true]
      · have := length_dropWhile_le digit more
        rw [hm, List.length_cons] at less
        omega
    · have plain : ∀ more, (other ++ tail).dropWhile digit ≠ '.' :: more := fun more hm =>
        pointed ⟨more, left ▸ hm⟩
      refine ⟨(other ++ tail).takeWhile digit, [], tail.dropWhile digit, ?_, less⟩
      rw [scanMantissa_plain plain, taken, if_neg Bool.false_ne_true, left]
  | pointed digits fracs some =>
    exact ⟨_, _, _, scanMantissa_pointed point digits fracs some tail,
      length_dropWhile_le digit tail⟩

theorem scanMantissa_stop (point : digit '.' = false) (own : IsMantissa digit other)
    {tail : List Char} (stop : ∀ c ∈ tail.head?, digit c = false ∧ c ≠ '.') :
    ∃ whole frac, scanMantissa digit (other ++ tail) = some (whole, frac, tail) := by
  have undigit : ∀ c ∈ tail.head?, digit c = false := fun c hc => (stop c hc).1
  have rest : tail.dropWhile digit = tail := @dropWhile_append_of_head digit [] tail undigit
  cases own with
  | plain digits some =>
    have left : (other ++ tail).dropWhile digit = tail :=
      (List.dropWhile_append_of_pos digits).trans rest
    have plain : ∀ more, (other ++ tail).dropWhile digit ≠ '.' :: more := by
      intro more hm
      exact (stop '.' (by rw [← left, hm]; rfl)).2 rfl
    refine ⟨(other ++ tail).takeWhile digit, [], ?_⟩
    rw [scanMantissa_plain plain, takeWhile_ne_nil digits some, if_neg Bool.false_ne_true, left]
  | pointed digits fracs some =>
    exact ⟨_, _, rest ▸ scanMantissa_pointed point digits fracs some tail⟩

theorem scanSign_signed {sign : List Char} {d : Char} (ds : List Char)
    (signed : sign = [] ∨ sign = ['+'] ∨ sign = ['-']) (first : isDecimalDigit d = true) :
    (scanSign (sign ++ d :: ds)).2 = d :: ds := by
  rcases signed with rfl | rfl | rfl
  · obtain ⟨sign, signed, split⟩ := scanSign_split (d :: ds)
    rcases signed with rfl | rfl | rfl
    · exact split.symm
    · obtain ⟨rfl, -⟩ := List.cons.inj split
      exact absurd first (by decide)
    · obtain ⟨rfl, -⟩ := List.cons.inj split
      exact absurd first (by decide)
  · rfl
  · rfl

theorem scanExponent_least (own : IsExponent mark other) (tail : List Char) :
    (scanExponent mark (other ++ tail)).2.length ≤ tail.length := by
  cases own with
  | absent =>
    obtain ⟨front, -, split⟩ := isExponent_of_scan mark tail
    have total := congrArg List.length split
    rw [List.length_append] at total
    rw [List.nil_append]
    omega
  | @present c sign ds marked signed digits some =>
    obtain ⟨d, ds, rfl⟩ := List.exists_cons_of_ne_nil some
    have after : (scanSign (sign ++ d :: ds ++ tail)).2 = d :: ds ++ tail := by
      rw [List.append_assoc, List.cons_append]
      exact scanSign_signed _ signed (digits d List.mem_cons_self)
    rw [List.cons_append, scanExponent_cons marked, after, takeWhile_ne_nil digits some,
      if_neg Bool.false_ne_true, List.dropWhile_append_of_pos digits]
    exact length_dropWhile_le isDecimalDigit tail

structure Apart (digit mark : Char → Bool) : Prop where
  point : digit '.' = false
  digit : ∀ c, mark c = true → digit c = false
  mark : mark '.' = false

theorem apart_decimal : Apart isDecimalDigit fun c => c == 'e' || c == 'E' where
  point := rfl
  digit := by
    intro c h
    simp only [Bool.or_eq_true, beq_iff_eq] at h
    rcases h with rfl | rfl <;> rfl
  mark := rfl

theorem apart_hexadecimal : Apart isHexDigit fun c => c == 'p' || c == 'P' where
  point := rfl
  digit := by
    intro c h
    simp only [Bool.or_eq_true, beq_iff_eq] at h
    rcases h with rfl | rfl <;> rfl
  mark := rfl

theorem isNumeral_of_scan (mark : Char → Bool) {whole frac left : List Char}
    (scanned : scanMantissa digit cs = some (whole, frac, left)) :
    ∃ front, IsNumeral digit mark front ∧ cs = front ++ (scanExponent mark left).2 := by
  obtain ⟨first, mantissa, rfl⟩ := isMantissa_of_scan scanned
  obtain ⟨second, exponent, split⟩ := isExponent_of_scan mark left
  exact ⟨first ++ second, ⟨first, second, rfl, mantissa, exponent⟩, by
    rw [List.append_assoc, ← split]⟩

theorem scanNumeral_least (apart : Apart digit mark) (own : IsNumeral digit mark other)
    (tail : List Char) : ∃ whole frac left,
      scanMantissa digit (other ++ tail) = some (whole, frac, left) ∧
        (scanExponent mark left).2.length ≤ tail.length := by
  obtain ⟨first, second, rfl, mantissa, exponent⟩ := own
  rw [List.append_assoc]
  cases exponent with
  | absent =>
    obtain ⟨whole, frac, left, scanned, less⟩ := scanMantissa_least apart.point mantissa tail
    refine ⟨whole, frac, left, scanned, ?_⟩
    exact (scanExponent_least .absent left).trans less
  | @present c sign ds marked signed digits some =>
    -- the mark stops the mantissa, so the scan ends where the exponent starts
    have stop : ∀ c' ∈ (c :: (sign ++ ds) ++ tail).head?, digit c' = false ∧ c' ≠ '.' := by
      rintro c' hc
      obtain rfl : c = c' := by simpa using hc
      refine ⟨apart.digit c marked, ?_⟩
      rintro rfl
      rw [apart.mark] at marked
      exact Bool.false_ne_true marked
    obtain ⟨whole, frac, scanned⟩ := scanMantissa_stop apart.point mantissa stop
    exact ⟨whole, frac, _, scanned, scanExponent_least (.present marked signed digits some) tail⟩

theorem scanDecimal_eq (cs : List Char) :
    scanDecimal cs = (scanMantissa isDecimalDigit cs).map fun r =>
      let e := scanExponent (fun c => c == 'e' || c == 'E') r.2.2
      (⟨false, r.1, r.2.1, e.1⟩, e.2) := by
  unfold scanDecimal
  cases scanMantissa isDecimalDigit cs <;> rfl

theorem scanHex_eq {x : Char} (mark : x = 'x' ∨ x = 'X') (cs : List Char) :
    scanHex ('0' :: x :: cs) = (scanMantissa isHexDigit cs).map fun r =>
      let e := scanExponent (fun c => c == 'p' || c == 'P') r.2.2
      (⟨true, r.1, r.2.1, e.1⟩, e.2) := by
  have marked : (x == 'x' || x == 'X') = true := by simpa using mark
  rw [scanHex, if_pos marked]
  cases scanMantissa isHexDigit cs <;> rfl

theorem front_of_scanHex {l : Literal} (scanned : scanHex cs = some (l, after)) :
    ∃ x rest, (x = 'x' ∨ x = 'X') ∧ cs = '0' :: x :: rest := by
  unfold scanHex at scanned
  split at scanned
  · next x rest =>
    split_ifs at scanned with hx
    exact ⟨x, rest, by simpa using hx, rfl⟩
  · cases scanned

theorem scanLiteral_of_hex {r : Literal × List Char} (hex : scanHex cs = some r) :
    scanLiteral cs = some r := by
  rw [scanLiteral, hex]
  rfl

theorem scanLiteral_of_not_hex (none : scanHex cs = none) : scanLiteral cs = scanDecimal cs := by
  rw [scanLiteral, none]
  rfl

theorem isLiteral_of_scanLiteral {l : Literal} (scanned : scanLiteral cs = some (l, after)) :
    ∃ front, IsLiteral front ∧ cs = front ++ after := by
  cases hex : scanHex cs with
  | some r =>
    rw [scanLiteral_of_hex hex] at scanned
    obtain rfl : r = (l, after) := Option.some.inj scanned
    obtain ⟨x, rest, mark, rfl⟩ := front_of_scanHex hex
    rw [scanHex_eq mark] at hex
    obtain ⟨r, mantissa, split⟩ := Option.map_eq_some_iff.1 hex
    obtain ⟨-, rfl⟩ := Prod.mk.inj split
    obtain ⟨front, numeral, split⟩ := isNumeral_of_scan (fun c => c == 'p' || c == 'P') mantissa
    exact ⟨_, .hexadecimal mark numeral, by rw [split]; rfl⟩
  | none =>
    rw [scanLiteral_of_not_hex hex, scanDecimal_eq] at scanned
    obtain ⟨r, mantissa, split⟩ := Option.map_eq_some_iff.1 scanned
    obtain ⟨-, rfl⟩ := Prod.mk.inj split
    obtain ⟨front, numeral, split⟩ := isNumeral_of_scan (fun c => c == 'e' || c == 'E') mantissa
    exact ⟨front, .decimal numeral, split⟩

theorem scanLiteral_least (own : IsLiteral other) (tail : List Char) :
    ∃ l after, scanLiteral (other ++ tail) = some (l, after) ∧ after.length ≤ tail.length := by
  cases own with
  | decimal numeral =>
    obtain ⟨whole, frac, left, mantissa, less⟩ := scanNumeral_least apart_decimal numeral tail
    have decimal := scanDecimal_eq (other ++ tail)
    rw [mantissa, Option.map_some] at decimal
    cases hex : scanHex (other ++ tail) with
    | none => exact ⟨_, _, (scanLiteral_of_not_hex hex).trans decimal, less⟩
    | some r =>
      -- the decimal reading ends at the mark, which the hexadecimal one takes
      refine ⟨r.1, r.2, scanLiteral_of_hex hex, ?_⟩
      obtain ⟨x, rest, mark, split⟩ := front_of_scanHex hex
      rw [split, scanDecimal_zero_x mark] at decimal
      obtain ⟨-, ends⟩ := Prod.mk.inj (Option.some.inj decimal)
      rw [split, scanHex_eq mark] at hex
      obtain ⟨r', mantissa', rfl⟩ := Option.map_eq_some_iff.1 hex
      obtain ⟨front, -, split'⟩ := isNumeral_of_scan (fun c => c == 'p' || c == 'P') mantissa'
      have shorter : (scanExponent (fun c => c == 'p' || c == 'P') r'.2.2).2.length ≤
          rest.length := by
        rw [split', List.length_append]
        exact Nat.le_add_left _ _
      have longer : rest.length + 1 ≤ tail.length := by
        rw [← List.length_cons, ends]
        exact less
      exact (shorter.trans (Nat.le_succ _)).trans longer
  | @hexadecimal x cs mark numeral =>
    obtain ⟨whole, frac, left, mantissa, less⟩ := scanNumeral_least apart_hexadecimal numeral tail
    have hex := scanHex_eq mark (cs ++ tail)
    rw [mantissa, Option.map_some] at hex
    exact ⟨_, _, scanLiteral_of_hex hex, less⟩

theorem isLongest_of_scanLiteral {l : Literal} (scanned : scanLiteral cs = some (l, after)) :
    ∃ front, cs = front ++ after ∧ IsLongest IsLiteral front cs := by
  obtain ⟨front, own, rfl⟩ := isLiteral_of_scanLiteral scanned
  refine ⟨front, rfl, .of_least own fun other tail split has => ?_⟩
  obtain ⟨l', after', scanned', less⟩ := scanLiteral_least has tail
  rw [split, scanned] at scanned'
  obtain ⟨-, rfl⟩ := Prod.mk.inj (Option.some.inj scanned')
  exact less

theorem not_isLiteral_of_scanLiteral (refused : scanLiteral cs = none) {front : List Char}
    (starts : front <+: cs) : ¬ IsLiteral front := by
  intro own
  obtain ⟨tail, rfl⟩ := starts
  obtain ⟨l, after, scanned, -⟩ := scanLiteral_least own tail
  rw [refused] at scanned
  cases scanned

end Numeral

end DerivativeEngine
