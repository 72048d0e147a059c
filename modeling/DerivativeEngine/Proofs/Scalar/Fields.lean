import Mathlib
import DerivativeEngine.Scalar.Double

/-! Doubles by sign, exponent and mantissa. A double that is a number is put together from these
three fields of its bit pattern and has them again when it is taken apart, so a sign can be changed
without touching the rest: a finite double is its magnitude or the negation of it, and its shortest
text is the text of the magnitude, with a minus in front or without. What has the positive sign is
not below zero. -/

namespace DerivativeEngine.Double

open Float.Model.UnpackedFloat

theorem toNat_packComponents (s : Sign) (e : BitVec 11) (m : BitVec 52) :
    (packComponents .binary64 s e m).toNat =
      s.toBitVec.toNat * 2 ^ 63 + e.toNat * 2 ^ 52 + m.toNat := by
  have low := m.isLt
  have mid := e.isLt
  simp only [packComponents, BitVec.toNat_append]
  rw [← Nat.shiftLeft_add_eq_or_of_lt mid, ← Nat.shiftLeft_add_eq_or_of_lt low,
    Nat.shiftLeft_eq, Nat.shiftLeft_eq]
  omega

theorem toNat_unpackMantissa (b : BitVec 64) :
    (@unpackMantissa .binary64 b).toNat = b.toNat % 2 ^ 52 := by
  simp [unpackMantissa]

theorem toNat_unpackExponent (b : BitVec 64) :
    (@unpackExponent .binary64 b).toNat = b.toNat / 2 ^ 52 % 2 ^ 11 := by
  simp [unpackExponent, Nat.shiftRight_eq_div_pow]

theorem toNat_unpackSign (b : BitVec 64) : (@unpackSign .binary64 b).toNat = b.toNat / 2 ^ 63 := by
  have := b.isLt
  simp [unpackSign, Nat.shiftRight_eq_div_pow]
  omega

theorem pack_normal (s : Sign) {m : Nat} {e : BitVec 11} (normal : 2 ^ 52 ≤ m)
    (small : m < 2 ^ 53) (top : e.toNat ≠ 2047) (pos : 0 < m) :
    pack .binary64 (.finite s m ((e.toNat : Int) - 1075) pos) =
      packComponents .binary64 s e (BitVec.ofNat 52 m) := by
  have log : m.log2 = 52 := (Nat.log2_eq_iff (by omega)).2 ⟨normal, small⟩
  have mid := e.isLt
  have biased : ((e.toNat : Int) - 1075 + (1023 : Nat) + (52 : Nat)).toNat = e.toNat := by omega
  have bias : Float.Model.Format.binary64.exponentBias = 1023 := rfl
  unfold pack
  dsimp only
  rw [bias, biased, log, if_neg (by omega), if_pos (by decide), BitVec.ofNat_toNat]
  rfl

theorem pack_subnormal (s : Sign) {m : Nat} (small : m < 2 ^ 52) (pos : 0 < m) :
    pack .binary64 (.finite s m (-1074) pos) =
      packComponents .binary64 s 0 (BitVec.ofNat 52 m) := by
  have log : m.log2 < 52 := (Nat.log2_lt (by omega)).2 small
  have bits : Float.Model.Format.binary64.mantissaBits = 53 := rfl
  unfold pack
  dsimp only
  rw [bits, if_neg (by decide), if_neg (by omega)]
  rfl

theorem toNat_one_append (m : BitVec 52) : (1#1 ++ m).toNat = 2 ^ 52 + m.toNat := by
  rw [BitVec.toNat_append, ← Nat.shiftLeft_add_eq_or_of_lt m.isLt]
  rfl

def assembled (s : Sign) (e : BitVec 11) (m : BitVec 52) : Float.Model.UnpackedFloat :=
  if e = -1#11 then if m = 0#52 then .infinity s else .notANumber
  else if e = 0#11 then
    if h : m = 0#52 then .zero s
    else .finite s m.toNat (-1074) (by simpa [BitVec.toNat_pos, BitVec.pos_iff_ne_zero] using h)
  else .finite s (1#1 ++ m).toNat ((e.toNat : Int) - 1075) (by
    rw [toNat_one_append]
    omega)

theorem unpack_eq (b : BitVec 64) : unpack .binary64 b =
    assembled (.ofBitVec (@unpackSign .binary64 b))
      (@unpackExponent .binary64 b) (@unpackMantissa .binary64 b) := by
  unfold unpack assembled
  by_cases top : @unpackExponent .binary64 b = -1#11
  · exact (if_pos top).trans (if_pos top).symm
  · refine (if_neg top).trans (Eq.trans ?_ (if_neg top).symm)
    by_cases bottom : @unpackExponent .binary64 b = 0#11
    · refine (if_pos bottom).trans (Eq.trans ?_ (if_pos bottom).symm)
      rw [bottom]
      rfl
    · exact (if_neg bottom).trans (if_neg bottom).symm

theorem pack_assembled (s : Sign) {e : BitVec 11} {m : BitVec 52}
    (number : e = -1#11 → m = 0#52) :
    pack .binary64 (assembled s e m) = packComponents .binary64 s e m := by
  have low := m.isLt
  have mid := e.isLt
  unfold assembled
  by_cases top : e = -1#11
  · have empty := number top
    subst top empty
    rw [if_pos rfl, if_pos rfl]
    rfl
  · rw [if_neg top]
    by_cases bottom : e = 0#11
    · subst bottom
      rw [if_pos rfl]
      by_cases zero : m = 0#52
      · subst zero
        rfl
      · rw [dif_neg zero]
        have pos : 0 < m.toNat := by
          have : m.toNat ≠ 0 := fun h => zero (BitVec.eq_of_toNat_eq h)
          omega
        have packed := pack_subnormal s low pos
        rw [BitVec.ofNat_toNat] at packed
        exact packed
    · rw [if_neg bottom]
      have value := toNat_one_append m
      have last : e.toNat ≠ 2047 := fun h => top (BitVec.eq_of_toNat_eq h)
      have packed :=
        pack_normal s (m := (1#1 ++ m).toNat) (e := e) (by omega) (by omega) last (by omega)
      rw [show BitVec.ofNat 52 (1#1 ++ m).toNat = m by
        rw [value]
        apply BitVec.eq_of_toNat_eq
        simp; omega] at packed
      exact packed

theorem components (b : BitVec 64) :
    packComponents .binary64 (.ofBitVec (@unpackSign .binary64 b))
      (@unpackExponent .binary64 b) (@unpackMantissa .binary64 b) = b := by
  have bound := b.isLt
  have sign : (Sign.ofBitVec (@unpackSign .binary64 b)).toBitVec.toNat =
      b.toNat / 2 ^ 63 := by
    rw [← toNat_unpackSign]
    generalize @unpackSign .binary64 b = s
    revert s
    decide
  apply BitVec.eq_of_toNat_eq
  rw [toNat_packComponents, sign, toNat_unpackExponent, toNat_unpackMantissa]
  omega

theorem sign_packComponents (s : Sign) (e : BitVec 11) (m : BitVec 52) :
    Sign.ofBitVec (@unpackSign .binary64 (packComponents .binary64 s e m)) = s := by
  have field : (@unpackSign .binary64 (packComponents .binary64 s e m)).toNat =
      s.toBitVec.toNat := by
    rw [toNat_unpackSign, toNat_packComponents]
    have low := m.isLt
    have mid := e.isLt
    omega
  rw [BitVec.eq_of_toNat_eq field]
  cases s <;> rfl

def sign (x : Float) : Sign := .ofBitVec (@unpackSign .binary64 x.toModel.toBits.toBitVec)

def exponent (x : Float) : BitVec 11 := @unpackExponent .binary64 x.toModel.toBits.toBitVec

def mantissa (x : Float) : BitVec 52 := @unpackMantissa .binary64 x.toModel.toBits.toBitVec

def ofFields (s : Sign) (e : BitVec 11) (m : BitVec 52) : Float := ⟨.pack (assembled s e m)⟩

def Numeric (e : BitVec 11) (m : BitVec 52) : Prop := e = -1#11 → m = 0#52

variable {s : Sign} {e : BitVec 11} {m : BitVec 52} {x : Float}

theorem toBits_ofFields (number : Numeric e m) :
    (ofFields s e m).toModel.toBits.toBitVec = packComponents .binary64 s e m := by
  rw [← pack_assembled s number]
  rfl

theorem sign_ofFields (number : Numeric e m) : sign (ofFields s e m) = s := by
  rw [sign, toBits_ofFields number, sign_packComponents]

theorem exponent_ofFields (number : Numeric e m) : exponent (ofFields s e m) = e := by
  rw [exponent, toBits_ofFields number, unpackExponent_packComponents]

theorem mantissa_ofFields (number : Numeric e m) : mantissa (ofFields s e m) = m := by
  rw [mantissa, toBits_ofFields number, unpackMantissa_packComponents]

theorem unpack_eq_assembled (x : Float) :
    x.toModel.unpack = assembled (sign x) (exponent x) (mantissa x) :=
  unpack_eq _

theorem isNaN_iff : x.isNaN = true ↔ ¬ Numeric (exponent x) (mantissa x) := by
  rw [Float.isNaN, Float.Model.isNaN, unpack_eq_assembled, assembled, Numeric]
  split_ifs with top empty bottom <;> simp_all [Float.Model.UnpackedFloat.isNaN]

theorem isFinite_iff : x.isFinite = true ↔ exponent x ≠ -1#11 := by
  rw [Float.isFinite, Float.Model.isFinite, unpack_eq_assembled, assembled]
  split_ifs <;> simp_all [Float.Model.UnpackedFloat.isFinite]

theorem numeric_of_isFinite (h : x.isFinite = true) : Numeric (exponent x) (mantissa x) :=
  fun top => absurd top (isFinite_iff.1 h)

theorem eq_of_toBitVec_eq {y : Float}
    (h : x.toModel.toBits.toBitVec = y.toModel.toBits.toBitVec) : x = y := by
  obtain ⟨⟨⟨b⟩, _⟩⟩ := x
  obtain ⟨⟨⟨b'⟩, _⟩⟩ := y
  obtain rfl : b = b' := h
  rfl

theorem ofFields_self (number : Numeric (exponent x) (mantissa x)) :
    ofFields (sign x) (exponent x) (mantissa x) = x := by
  apply eq_of_toBitVec_eq
  rw [toBits_ofFields number]
  exact components _

theorem abs_ofFields (number : Numeric e m) : (ofFields s e m).abs = ofFields .positive e m := by
  have unpacked := unpack_eq_assembled (ofFields s e m)
  rw [sign_ofFields number, exponent_ofFields number, mantissa_ofFields number] at unpacked
  rw [Float.abs, Float.Model.abs, unpacked, ofFields]
  congr 2
  unfold assembled
  split_ifs <;> rfl

theorem neg_ofFields (number : Numeric e m) : -ofFields s e m = ofFields (-s) e m := by
  have unpacked := unpack_eq_assembled (ofFields s e m)
  rw [sign_ofFields number, exponent_ofFields number, mantissa_ofFields number] at unpacked
  change Float.ofModel (.pack (ofFields s e m).toModel.unpack.neg) = _
  rw [unpacked, ofFields]
  congr 2
  unfold assembled
  split_ifs <;> rfl

theorem eq_abs_or_eq_neg_abs (number : Numeric (exponent x) (mantissa x)) :
    x.abs = x ∧ sign x = .positive ∨ -x.abs = x ∧ sign x = .negative := by
  have whole := ofFields_self number
  cases hs : sign x with
  | positive =>
    rw [hs] at whole
    have abs := congrArg Float.abs whole
    rw [abs_ofFields number] at abs
    exact .inl ⟨abs.symm.trans whole, rfl⟩
  | negative =>
    rw [hs] at whole
    have abs := congrArg Float.abs whole
    rw [abs_ofFields number] at abs
    refine .inr ⟨?_, rfl⟩
    rw [← abs, neg_ofFields number]
    exact whole

open Numeral (datum Datum)

theorem datum_eq (x : Float) : datum x =
    if (exponent x).toNat == 2047 then
      if (mantissa x).toNat == 0 then .infinity (sign x == .negative) else .nan
    else if (exponent x).toNat == 0 then
      .finite (sign x == .negative) (mantissa x).toNat Numeral.minExponent
    else .finite (sign x == .negative) (Numeral.hiddenBit + (mantissa x).toNat)
      ((exponent x).toNat + Numeral.minExponent - 1) := by
  have bits : x.toBits.toNat = x.toModel.toBits.toBitVec.toNat := rfl
  have bound := x.toModel.toBits.toBitVec.isLt
  have negative : (x.toBits.toNat / Numeral.signBit % 2 == 1) = (sign x == .negative) := by
    have field := toNat_unpackSign x.toModel.toBits.toBitVec
    rw [sign, bits, show Numeral.signBit = 2 ^ 63 from rfl, ← field]
    generalize @unpackSign .binary64 x.toModel.toBits.toBitVec = b
    revert b
    decide
  have middle : x.toBits.toNat / Numeral.hiddenBit % 2048 = (exponent x).toNat :=
    (toNat_unpackExponent _).symm
  have low : x.toBits.toNat % Numeral.hiddenBit = (mantissa x).toNat :=
    (toNat_unpackMantissa _).symm
  rw [datum, Datum.ofWord, negative, middle, low]

theorem datum_finite (finite : x.isFinite = true) : ∃ m e,
    datum x = .finite (sign x == .negative) m e ∧ datum x.abs = .finite false m e := by
  have number := numeric_of_isFinite finite
  have top : ((exponent x).toNat == 2047) = false := by
    rw [beq_eq_false_iff_ne]
    exact fun h => isFinite_iff.1 finite (BitVec.eq_of_toNat_eq h)
  have whole := congrArg Float.abs (ofFields_self number)
  rw [abs_ofFields number] at whole
  rw [datum_eq x, ← whole, datum_eq (ofFields _ _ _), sign_ofFields number,
    exponent_ofFields number, mantissa_ofFields number, top]
  cases (exponent x).toNat == 0 with
  | true => exact ⟨_, _, rfl, rfl⟩
  | false => exact ⟨_, _, rfl, rfl⟩

theorem signedText_toList {zero : List Char} {finite : Nat → Int → List Char} {b : Bool} {m : Nat}
    {e : Int} (h : datum x = .finite b m e) :
    (Numeral.signedText x zero finite).toList =
      if b then '-' :: (if m == 0 then zero else finite m e)
      else if m == 0 then zero else finite m e := by
  unfold Numeral.signedText
  rw [h]
  exact String.toList_ofList

theorem shortest_of_negative (finite : x.isFinite = true) (negative : sign x = .negative) :
    (Numeral.shortest x).toList = '-' :: (Numeral.shortest x.abs).toList := by
  obtain ⟨m, e, hx, habs⟩ := datum_finite finite
  rw [negative] at hx
  rw [Numeral.shortest, signedText_toList hx, Numeral.shortest, signedText_toList habs]
  rfl

theorem eq_infinity (infinite : x.isFinite = false) (number : x.isNaN = false) :
    0 < x ∧ x = 1.0 / 0.0 ∨ ¬ 0 < x ∧ x = -(1.0 / 0.0) := by
  have numeric : Numeric (exponent x) (mantissa x) := by
    refine Classical.byContradiction fun h => ?_
    rw [isNaN_iff.2 h] at number
    exact Bool.noConfusion number
  have top : exponent x = -1#11 := by
    refine Decidable.byContradiction fun h => ?_
    rw [isFinite_iff.2 h] at infinite
    exact Bool.noConfusion infinite
  have whole := ofFields_self numeric
  rw [numeric top, top] at whole
  rw [← whole]
  cases sign x with
  | positive => exact .inl (by decide)
  | negative => exact .inr (by decide)

def Unsigned : Float.Model.UnpackedFloat → Prop
  | .infinity s => s = .positive
  | .notANumber => True
  | .zero s => s = .positive
  | .finite s _ _ _ => s = .positive

theorem unsigned_assembled (e : BitVec 11) (m : BitVec 52) :
    Unsigned (assembled .positive e m) := by
  unfold assembled
  split_ifs <;> trivial

theorem sign_pack {u : Float.Model.UnpackedFloat} (h : Unsigned u) :
    sign ⟨.pack u⟩ = .positive := by
  change Sign.ofBitVec (@unpackSign .binary64 (pack .binary64 u)) = .positive
  unfold pack
  rcases u with s | _ | s | ⟨s, m, e, pos⟩
  · obtain rfl : s = .positive := h
    exact sign_packComponents _ _ _
  · exact sign_packComponents _ _ _
  · obtain rfl : s = .positive := h
    exact sign_packComponents _ _ _
  · obtain rfl : s = .positive := h
    dsimp only
    split_ifs <;> exact sign_packComponents _ _ _

theorem unsigned_unpack {x : Float} (h : sign x = .positive) : Unsigned x.toModel.unpack := by
  rw [unpack_eq_assembled, h]
  exact unsigned_assembled _ _

theorem unsigned_div {u v : Float.Model.UnpackedFloat} (hu : Unsigned u) (hv : Unsigned v) :
    Unsigned (u.div .binary64 v) := by
  rcases u with s | _ | s | ⟨s, m, e, pos⟩ <;> rcases v with t | _ | t | ⟨t, n, f, pos'⟩ <;>
    simp only [Unsigned] at hu hv <;> subst_vars <;> try trivial
  unfold div roundWithAccuracy
  dsimp only
  split_ifs <;> trivial

theorem sign_div {x y : Float} (hx : sign x = .positive) (hy : sign y = .positive) :
    sign (x / y) = .positive :=
  sign_pack (unsigned_div (unsigned_unpack hx) (unsigned_unpack hy))

theorem compare_zero {u : Float.Model.UnpackedFloat} (h : Unsigned u) :
    u.compare (.zero .positive) ≠ some .lt := by
  rcases u with s | _ | s | ⟨s, m, e, pos⟩
  · obtain rfl : s = .positive := h
    nofun
  · nofun
  · nofun
  · obtain rfl : s = .positive := h
    nofun

theorem not_lt_zero {x y : Float} (h : sign x = .positive)
    (zero : y.toModel.unpack = .zero .positive) : ¬ x < y := by
  intro less
  have below : (x.toModel.unpack.compare y.toModel.unpack == some .lt) = true :=
    of_decide_eq_true less
  rw [zero, beq_iff_eq] at below
  exact compare_zero (unsigned_unpack h) below

theorem sign_ofBits {b : UInt64} (small : b.toNat < 2 ^ 63) :
    sign (Float.ofBits b) = .positive := by
  apply sign_pack
  rw [unpack_eq]
  have field : (@unpackSign .binary64 b.toBitVec).toNat = 0 := by
    rw [toNat_unpackSign]
    exact Nat.div_eq_of_lt small
  rw [show @unpackSign .binary64 b.toBitVec = 0#1 from BitVec.eq_of_toNat_eq field]
  exact unsigned_assembled _ _

theorem sign_ofBits_toBits {x : Float} (h : sign x = .positive) :
    sign (Float.ofBits x.toBits) = .positive :=
  sign_pack (unsigned_unpack h)

theorem nearestWord_lt {m : Nat} {e : Int} {w : Nat} (h : Numeral.nearestWord? m e = some w) :
    w < Numeral.infinityWord := by
  unfold Numeral.nearestWord? at h
  dsimp only at h
  split_ifs at h with zero large small fits
  · obtain rfl := Option.some.inj h
    decide
  · obtain rfl := Option.some.inj h
    decide
  · obtain rfl := Option.some.inj h
    exact fits

theorem sign_ofDyadic (m : Nat) (e : Int) : sign (Numeral.ofDyadic false m e) = .positive := by
  have bound : (Numeral.nearestWord? m e).getD Numeral.infinityWord ≤ Numeral.infinityWord := by
    cases word : Numeral.nearestWord? m e with
    | none => exact Nat.le_refl _
    | some w => exact Nat.le_of_lt (nearestWord_lt word)
  have least : Numeral.infinityWord < 2 ^ 63 := by decide
  refine sign_ofBits ?_
  rw [if_neg (by decide), UInt64.toNat_ofNat']
  omega

theorem compare_swap (u v : Float.Model.UnpackedFloat) :
    (u.compare v).map Ordering.swap = v.compare u := by
  have finite (m n : Nat) (e f : Int) : ((compare e f).then (compare m n)).swap =
      (compare f e).then (compare n m) := by
    rw [Ordering.swap_then, Int.compare_swap, Nat.compare_swap]
  rcases u with s | _ | s | ⟨s, m, e, pos⟩ <;> rcases v with t | _ | t | ⟨t, n, f, pos'⟩
  case finite.finite =>
    cases s <;> cases t
    · exact congrArg (fun o => some o.swap) (finite m n e f)
    · rfl
    · rfl
    · exact congrArg some (finite m n e f)
  case infinity.infinity => cases s <;> cases t <;> rfl
  case infinity.zero | infinity.finite | finite.zero => cases s <;> rfl
  case zero.infinity | zero.finite | finite.infinity => cases t <;> rfl
  all_goals rfl

theorem not_le_of_lt {x y : Float} (less : x < y) : ¬ y ≤ x := by
  intro le
  have below : (x.toModel.unpack.compare y.toModel.unpack == some .lt) = true :=
    of_decide_eq_true less
  have above : (y.toModel.unpack.compare x.toModel.unpack).any Ordering.isLE = true :=
    of_decide_eq_true le
  rw [← compare_swap, beq_iff_eq.1 below] at above
  exact Bool.noConfusion above

theorem eq_of_compare {u v : Float.Model.UnpackedFloat} (h : u.compare v = some .eq) :
    u = v ∨ (∃ s, u = .zero s) ∧ ∃ t, v = .zero t := by
  have finite {m n : Nat} {e f : Int} (same : (compare e f).then (compare m n) = .eq) :
      m = n ∧ e = f := by
    rw [Ordering.then_eq_eq, Int.compare_eq_eq, Nat.compare_eq_eq] at same
    exact same.symm
  rcases u with s | _ | s | ⟨s, m, e, pos⟩ <;> rcases v with t | _ | t | ⟨t, n, f, pos'⟩
  case infinity.infinity => cases s <;> cases t <;> first | exact .inl rfl | cases h
  case zero.zero => exact .inr ⟨⟨s, rfl⟩, t, rfl⟩
  case finite.finite =>
    cases s <;> cases t
    · obtain ⟨rfl, rfl⟩ := finite (Ordering.swap_eq_eq.1 (Option.some.inj h))
      exact .inl rfl
    · cases h
    · cases h
    · obtain ⟨rfl, rfl⟩ := finite (Option.some.inj h)
      exact .inl rfl
  all_goals first | (cases s <;> cases h) | (cases t <;> cases h) | cases h

theorem unpack_of_beq {x y : Float} (h : (x == y) = true) :
    x.toModel.unpack = y.toModel.unpack ∨
      (∃ s, x.toModel.unpack = .zero s) ∧ ∃ t, y.toModel.unpack = .zero t := by
  have same : (x.toModel.unpack.compare y.toModel.unpack == some .eq) = true := h
  exact eq_of_compare (beq_iff_eq.1 same)

end DerivativeEngine.Double

namespace DerivativeEngine

/-- What sums, products and quotients with zeros come to, a zero being what counts as one. -/
structure Scalar.ZeroLaws (α : Type) [Scalar α] : Prop where
  zero : ((0 : α) == 0) = true
  one : ((1 : α) == 0) = false
  two : ((2.0 : α) == 0) = false
  add : ∀ x y : α, (x == 0) = true → (y == 0) = true → (x + y == 0) = true
  sub : ∀ x y : α, (x == 0) = true → (y == 0) = true → (x - y == 0) = true
  neg : ∀ x : α, (x == 0) = true → (-x == 0) = true
  mul_right : ∀ x y : α, (x == 0) = true → Scalar.isFinite y = true → (x * y == 0) = true
  mul_left : ∀ x y : α, Scalar.isFinite x = true → (y == 0) = true → (x * y == 0) = true
  div : ∀ x y : α, (x == 0) = true → (y == 0) = false → Scalar.isNaN y = false →
    (x / y == 0) = true

namespace Double

open Float.Model.UnpackedFloat

def Zeroed (u : Float.Model.UnpackedFloat) : Prop := ∃ s, u = .zero s

theorem beq_zero_iff {x : Float} : (x == 0) = true ↔ Zeroed x.toModel.unpack := by
  constructor
  · intro h
    rcases unpack_of_beq h with same | ⟨zero, -⟩
    · exact ⟨.positive, same⟩
    · exact zero
  · rintro ⟨s, zero⟩
    change (x.toModel.unpack.compare (.zero .positive) == some .eq) = true
    rw [zero]
    rfl

theorem beq_pack {u : Float.Model.UnpackedFloat} (h : Zeroed u) :
    (Float.ofModel (.pack u) == 0) = true := by
  obtain ⟨s, rfl⟩ := h
  cases s <;> decide

theorem zeroed_add {u v : Float.Model.UnpackedFloat} (hu : Zeroed u) (hv : Zeroed v) :
    Zeroed (u.add .binary64 v) := by
  obtain ⟨s, rfl⟩ := hu
  obtain ⟨t, rfl⟩ := hv
  cases s <;> cases t <;> exact ⟨_, rfl⟩

theorem zeroed_sub {u v : Float.Model.UnpackedFloat} (hu : Zeroed u) (hv : Zeroed v) :
    Zeroed (u.sub .binary64 v) := by
  obtain ⟨s, rfl⟩ := hu
  obtain ⟨t, rfl⟩ := hv
  cases s <;> cases t <;> exact ⟨_, rfl⟩

theorem zeroed_mul_right {u v : Float.Model.UnpackedFloat} (hu : Zeroed u)
    (finite : v.isFinite = true) : Zeroed (u.mul .binary64 v) := by
  obtain ⟨s, rfl⟩ := hu
  rcases v with t | _ | t | ⟨t, m, e, pos⟩
  · cases finite
  · cases finite
  · exact ⟨_, rfl⟩
  · exact ⟨_, rfl⟩

theorem zeroed_mul_left {u v : Float.Model.UnpackedFloat} (finite : u.isFinite = true)
    (hv : Zeroed v) : Zeroed (u.mul .binary64 v) := by
  obtain ⟨t, rfl⟩ := hv
  rcases u with s | _ | s | ⟨s, m, e, pos⟩
  · cases finite
  · cases finite
  · exact ⟨_, rfl⟩
  · exact ⟨_, rfl⟩

theorem zeroed_div {u v : Float.Model.UnpackedFloat} (hu : Zeroed u) (hv : ¬ Zeroed v)
    (number : v.isNaN = false) : Zeroed (u.div .binary64 v) := by
  obtain ⟨s, rfl⟩ := hu
  rcases v with t | _ | t | ⟨t, m, e, pos⟩
  · exact ⟨_, rfl⟩
  · cases number
  · exact absurd ⟨t, rfl⟩ hv
  · exact ⟨_, rfl⟩

theorem zeroLaws : Scalar.ZeroLaws Float where
  zero := by decide
  one := by decide
  two := by decide
  add _ _ hx hy := beq_pack (zeroed_add (beq_zero_iff.1 hx) (beq_zero_iff.1 hy))
  sub _ _ hx hy := beq_pack (zeroed_sub (beq_zero_iff.1 hx) (beq_zero_iff.1 hy))
  neg x hx := by
    obtain ⟨s, zero⟩ := beq_zero_iff.1 hx
    have negated : Zeroed x.toModel.unpack.neg := ⟨-s, by rw [zero]; rfl⟩
    exact beq_pack negated
  mul_right _ _ hx finite := beq_pack (zeroed_mul_right (beq_zero_iff.1 hx) finite)
  mul_left _ _ finite hy := beq_pack (zeroed_mul_left finite (beq_zero_iff.1 hy))
  div _ y hx apart number := by
    have nonzero : ¬ Zeroed y.toModel.unpack :=
      fun zero => Bool.false_ne_true (apart.symm.trans (beq_zero_iff.2 zero))
    exact beq_pack (zeroed_div (beq_zero_iff.1 hx) nonzero number)

end Double

end DerivativeEngine
