import DerivativeEngine.Proofs.Scalar.Fields

/-! Magnitudes of doubles. Numbers are in a linear order that negation turns round, so a number
below zero that is neither below the negative of another nor of a smaller magnitude is that
negative. A number with a full mantissa is doubled without rounding, and is not zero then. The
order of two numbers makes no difference to the magnitude of their difference. -/

namespace DerivativeEngine.Double

open Float.Model Float.Model.UnpackedFloat

variable {x y : Float}

def IsNumber (x : Float) : Prop := Numeric (exponent x) (mantissa x)

theorem unpack_neg (number : IsNumber x) : (-x).toModel.unpack = x.toModel.unpack.neg := by
  have whole := ofFields_self number
  have negated : -x = ofFields (-sign x) (exponent x) (mantissa x) := by
    rw [← neg_ofFields number, whole]
  rw [negated, unpack_eq_assembled, sign_ofFields number, exponent_ofFields number,
    mantissa_ofFields number, unpack_eq_assembled x]
  unfold assembled
  split_ifs <;> rfl

theorem eq_of_unpack (hx : IsNumber x) (hy : IsNumber y)
    (same : x.toModel.unpack = y.toModel.unpack) : x = y := by
  have hx := ofFields_self hx
  have hy := ofFields_self hy
  rw [ofFields, ← unpack_eq_assembled] at hx hy
  rw [← hx, ← hy, same]

theorem compare_neg (u v : UnpackedFloat) :
    u.neg.compare v.neg = (u.compare v).map Ordering.swap := by
  rcases u with s | _ | s | ⟨s, m, e, pos⟩ <;> rcases v with t | _ | t | ⟨t, n, f, pos'⟩
  case finite.finite =>
    cases s <;> cases t
    · exact congrArg some Ordering.swap_swap.symm
    · rfl
    · rfl
    · rfl
  case infinity.infinity => cases s <;> cases t <;> rfl
  case infinity.zero | infinity.finite | finite.zero => cases s <;> rfl
  case zero.infinity | zero.finite | finite.infinity => cases t <;> rfl
  all_goals rfl

theorem isNumber_iff : IsNumber x ↔ x.toModel.unpack ≠ .notANumber := by
  rw [unpack_eq_assembled, IsNumber, Numeric]
  unfold assembled
  split_ifs <;> simp_all

theorem lt_iff : x < y ↔ x.toModel.unpack.compare y.toModel.unpack = some .lt := by
  have unfolded : x < y ↔ (x.toModel.unpack.compare y.toModel.unpack == some .lt) = true :=
    ⟨fun less => of_decide_eq_true less, fun less => decide_eq_true less⟩
  rw [unfolded, beq_iff_eq]

theorem beq_iff : (x == y) = true ↔ x.toModel.unpack.compare y.toModel.unpack = some .eq := by
  have unfolded : (x == y) = (x.toModel.unpack.compare y.toModel.unpack == some .eq) := rfl
  rw [unfolded, beq_iff_eq]

theorem isNumber_of_lt (less : x < y) : IsNumber x := by
  rw [isNumber_iff]
  intro missing
  rw [lt_iff, missing] at less
  cases less

theorem neg_lt_neg (hx : IsNumber x) (hy : IsNumber y) (less : x < y) : -y < -x := by
  rw [lt_iff] at less ⊢
  rw [unpack_neg hx, unpack_neg hy, compare_neg, ← compare_swap, less]
  rfl

theorem neg_beq_neg (hx : IsNumber x) (hy : IsNumber y) (same : (x == y) = true) :
    (-x == -y) = true := by
  rw [beq_iff] at same ⊢
  rw [unpack_neg hx, unpack_neg hy, compare_neg, same]
  rfl

theorem lt_or_beq_or_lt (hx : IsNumber x) (hy : IsNumber y) :
    x < y ∨ (x == y) = true ∨ y < x := by
  rw [lt_iff, beq_iff, lt_iff, ← compare_swap x.toModel.unpack]
  rw [isNumber_iff] at hx hy
  have some : ∃ o, x.toModel.unpack.compare y.toModel.unpack = some o := by
    generalize x.toModel.unpack = u at *
    generalize y.toModel.unpack = v at *
    rcases u with s | _ | s | ⟨s, m, e, pos⟩ <;> rcases v with t | _ | t | ⟨t, n, f, pos'⟩
    case notANumber.infinity | notANumber.notANumber | notANumber.zero | notANumber.finite =>
      exact absurd rfl hx
    case infinity.notANumber | zero.notANumber | finite.notANumber => exact absurd rfl hy
    all_goals cases s <;> cases t <;> exact ⟨_, rfl⟩
  obtain ⟨o, compared⟩ := some
  rw [compared]
  cases o with
  | lt => exact .inl rfl
  | eq => exact .inr (.inl rfl)
  | gt => exact .inr (.inr rfl)

theorem le_of_not_lt (hx : IsNumber x) (hy : IsNumber y) (notLess : ¬ y < x) : x ≤ y := by
  have ordered : (x.toModel.unpack.compare y.toModel.unpack).any Ordering.isLE = true := by
    rcases lt_or_beq_or_lt hx hy with less | same | more
    · rw [lt_iff.1 less]
      rfl
    · rw [beq_iff.1 same]
      rfl
    · exact absurd more notLess
  exact decide_eq_true ordered

theorem isNumber_abs (number : IsNumber x) : IsNumber x.abs := by
  have whole := congrArg Float.abs (ofFields_self number)
  rw [abs_ofFields number] at whole
  rw [IsNumber, ← whole, exponent_ofFields number, mantissa_ofFields number]
  exact number

theorem neg_abs_of_lt (below : x < 0) : -x.abs = x := by
  rcases eq_abs_or_eq_neg_abs (isNumber_of_lt below) with ⟨-, sign⟩ | ⟨whole, -⟩
  · exact absurd below (not_lt_zero sign rfl)
  · exact whole

theorem beq_neg_of_not_lt {t : Float} (number : IsNumber t) (below : x < 0) (above : ¬ x < -t)
    (large : ¬ x.abs < t) : (x == -t) = true := by
  have magnitude := isNumber_abs (isNumber_of_lt below)
  rw [← neg_abs_of_lt below] at above ⊢
  rcases lt_or_beq_or_lt magnitude number with less | same | more
  · exact absurd less large
  · exact neg_beq_neg magnitude number same
  · exact absurd (neg_lt_neg number magnitude more) above

theorem shiftRight_mul (k n : Nat) :
    (⟨2 ^ k * n, false, false⟩ : ExtendedMantissa) >>> k = ⟨n, false, false⟩ := by
  induction k generalizing n with
  | zero =>
    rw [Nat.pow_zero, Nat.one_mul]
    rfl
  | succ k ih =>
    have before : (⟨2 ^ k * (2 * n), false, false⟩ : ExtendedMantissa) >>> k =
        ⟨2 * n, false, false⟩ := ih (2 * n)
    rw [Nat.pow_succ, Nat.mul_assoc]
    refine (congrArg ExtendedMantissa.shiftRightOne before).trans ?_
    simp [ExtendedMantissa.shiftRightOne]

theorem shiftToTargetExponent_full {n k : Nat} {e : Int} (normal : 2 ^ 52 ≤ n)
    (small : n < 2 ^ 53) (least : -1074 ≤ e + k) :
    shiftToTargetExponent .binary64 (2 ^ k * n) e .exact = (⟨n, false, false⟩, e + k) := by
  have log : (2 ^ k * n).log2 = k + 52 := by
    refine (Nat.log2_eq_iff (by positivity)).2 ⟨?_, ?_⟩
    · rw [Nat.pow_add]
      exact Nat.mul_le_mul_left _ normal
    · rw [Nat.add_assoc, Nat.pow_add]
      exact Nat.mul_lt_mul_of_pos_left small (by positivity)
  have target : Format.targetExponent .binary64 (totalExponent (2 ^ k * n) e) = e + k := by
    have bits : Format.mantissaBits .binary64 = 53 := rfl
    have lowest : Format.minExponent .binary64 = -1074 := rfl
    rw [Format.targetExponent, totalExponent, log, bits, lowest]
    omega
  have amount : (e + k - e).toNat = k := by omega
  simp only [shiftToTargetExponent, target, shiftToExponent, amount,
    ExtendedMantissa.ofMantissaAndAccuracy, shiftRight_mul]

theorem mul_two {s : Sign} {n : Nat} {e : Int} (normal : 2 ^ 52 ≤ n) (small : n < 2 ^ 53)
    (least : -1074 ≤ e) (pos : 0 < n) :
    (UnpackedFloat.finite .positive (2 ^ 52) (-51) (by decide)).mul .binary64 (.finite s n e pos) =
      .finite s n (e + 1) pos := by
  have first := shiftToTargetExponent_full (k := 52) (e := -51 + e) normal small (by omega)
  have second := shiftToTargetExponent_full (k := 0) (e := e + 1) normal small (by omega)
  have top : -51 + e + (52 : Nat) = e + 1 := by omega
  have sign : Sign.positive * s = s := by cases s <;> rfl
  have rounded : (⟨n, false, false⟩ : ExtendedMantissa).roundedMantissa = n := rfl
  rw [top] at first
  rw [Nat.pow_zero, Nat.one_mul, Int.natCast_zero, Int.add_zero] at second
  simp only [UnpackedFloat.mul, roundWithAccuracy, first, rounded, second, sign]
  exact dif_neg (Nat.ne_of_gt pos)

theorem exponent_of_zeroed (zero : Zeroed x.toModel.unpack) : exponent x = 0#11 := by
  obtain ⟨s, zero⟩ := zero
  rw [unpack_eq_assembled] at zero
  unfold assembled at zero
  split_ifs at zero with top empty bottom
  exact bottom

theorem exponent_pack_full {s : Sign} {n : Nat} {e : Int} (normal : 2 ^ 52 ≤ n)
    (small : n < 2 ^ 53) (least : -1073 ≤ e) (pos : 0 < n) :
    exponent ⟨.pack (.finite s n e pos)⟩ ≠ 0#11 := by
  have log : n.log2 = 52 := (Nat.log2_eq_iff (by omega)).2 ⟨normal, small⟩
  change @unpackExponent .binary64 (UnpackedFloat.pack .binary64 (.finite s n e pos)) ≠ 0#11
  unfold UnpackedFloat.pack
  dsimp only
  split_ifs with large full
  · rw [packedInfinity, unpackExponent_packComponents]
    decide
  · rw [unpackExponent_packComponents]
    intro zero
    have bias : Format.exponentBias .binary64 = 1023 := rfl
    have field := congrArg BitVec.toNat zero
    rw [BitVec.toNat_ofNat, bias, show (0#11).toNat = 0 from rfl] at field
    rw [bias] at large
    omega
  · exact absurd (by rw [log]; rfl) full

theorem abs_lt_of_exponent {t : Float} {n : Nat} {e : Int} {pos : 0 < n}
    (full : t.toModel.unpack = .finite .positive n e pos) (above : -1074 < e)
    (bottom : exponent x = 0#11) : x.abs < t := by
  have number : Numeric (exponent x) (mantissa x) := by
    rw [bottom]
    nofun
  have magnitude : x.abs.toModel.unpack = assembled .positive (exponent x) (mantissa x) := by
    rw [← congrArg Float.abs (ofFields_self number), abs_ofFields number, unpack_eq_assembled,
      sign_ofFields number, exponent_ofFields number, mantissa_ofFields number]
  rw [lt_iff, magnitude, full, bottom]
  unfold assembled
  rw [if_neg (by decide), if_pos rfl]
  split_ifs
  · rfl
  · have less : compare (-1074 : Int) e = .lt := Int.compare_eq_lt.2 above
    simp only [UnpackedFloat.compare, less]
    rfl

theorem two_mul_beq_zero (full : exponent x ≠ 0#11) : ((2.0 : Float) * x == 0) = false := by
  have two : (2.0 : Float).toModel.unpack = .finite .positive (2 ^ 52) (-51) (by decide) := rfl
  rw [← Bool.not_eq_true, beq_zero_iff]
  intro zero
  have bottom := exponent_of_zeroed zero
  have product : (2.0 : Float) * x =
      ⟨.pack ((2.0 : Float).toModel.unpack.mul .binary64 x.toModel.unpack)⟩ := rfl
  rw [product, two, unpack_eq_assembled x] at bottom
  unfold assembled at bottom
  split_ifs at bottom with top empty
  · revert bottom
    cases sign x <;> decide
  · revert bottom
    decide
  · have hidden := toNat_one_append (mantissa x)
    have low := (mantissa x).isLt
    have some : (exponent x).toNat ≠ 0 := fun none => full (BitVec.eq_of_toNat_eq none)
    rw [mul_two (by omega) (by omega) (by omega)] at bottom
    exact exponent_pack_full (by omega) (by omega) (by omega) (by omega) bottom

theorem pack_finite (n : Nat) (e : Int) (pos : 0 < n) : ∃ E M, Numeric E M ∧
    ∀ s, UnpackedFloat.pack .binary64 (.finite s n e pos) = packComponents .binary64 s E M := by
  unfold UnpackedFloat.pack
  dsimp only
  split_ifs with large full
  · exact ⟨-1#11, 0#52, fun _ => rfl, fun _ => rfl⟩
  · refine ⟨_, _, fun top => ?_, fun _ => rfl⟩
    have field := congrArg BitVec.toNat top
    rw [BitVec.toNat_ofNat, show (-1#11).toNat = 2047 from rfl] at field
    omega
  · exact ⟨0#11, _, nofun, fun _ => rfl⟩

theorem abs_pack (u : UnpackedFloat) :
    (Float.ofModel (.pack u)).abs = Float.ofModel (.pack u.abs) := by
  rcases u with s | _ | s | ⟨s, n, e, pos⟩
  · cases s <;> decide
  · rfl
  · cases s <;> decide
  · obtain ⟨E, M, number, packed⟩ := pack_finite n e pos
    have fields (s : Sign) : Float.ofModel (.pack (.finite s n e pos)) = ofFields s E M :=
      eq_of_toBitVec_eq ((packed s).trans (toBits_ofFields number).symm)
    rw [fields, abs_ofFields number]
    exact (fields .positive).symm

theorem abs_round (s : Sign) (n : Nat) (e : Int) :
    (UnpackedFloat.round .binary64 s n e).abs =
      (UnpackedFloat.round .binary64 .positive n e).abs := by
  unfold UnpackedFloat.round roundWithAccuracy
  dsimp only
  split_ifs <;> rfl

theorem abs_normalize_neg (k e : Int) (s : Sign) :
    (UnpackedFloat.normalize .binary64 (-k) e s).abs =
      (UnpackedFloat.normalize .binary64 k e s).abs := by
  unfold UnpackedFloat.normalize
  rcases lt_trichotomy k 0 with below | rfl | above
  · rw [Int.compare_eq_lt.2 below, Int.compare_eq_gt.2 (Int.neg_pos_of_neg below)]
    exact (abs_round .negative _ _).symm
  · rfl
  · rw [Int.compare_eq_gt.2 above, Int.compare_eq_lt.2 (Int.neg_neg_of_pos above), Int.neg_neg]
    exact abs_round .negative _ _

theorem abs_sub_unpacked (u v : UnpackedFloat) :
    (u.sub .binary64 v).abs = (v.sub .binary64 u).abs := by
  rcases u with s | _ | s | ⟨s, m, e, pos⟩ <;> rcases v with t | _ | t | ⟨t, n, f, pos'⟩
  case finite.finite =>
    simp only [UnpackedFloat.sub]
    rw [Int.min_comm f e, ← abs_normalize_neg, Int.neg_sub]
  all_goals first | rfl | (cases s <;> cases t <;> rfl)

theorem abs_sub_swap (x y : Float) : (x - y).abs = (y - x).abs := by
  change (Float.ofModel (.pack (x.toModel.unpack.sub .binary64 y.toModel.unpack))).abs =
    (Float.ofModel (.pack (y.toModel.unpack.sub .binary64 x.toModel.unpack))).abs
  rw [abs_pack, abs_pack, abs_sub_unpacked]

theorem abs_sub_self (x : Float) :
    (x - x).abs = if x.isFinite then 0 else 0 / 0 := by
  change (Float.ofModel (.pack (x.toModel.unpack.sub .binary64 x.toModel.unpack))).abs =
    if x.toModel.unpack.isFinite then _ else _
  rcases x.toModel.unpack with s | _ | s | ⟨s, n, e, pos⟩
  · cases s <;> decide
  · decide
  · cases s <;> decide
  · have none : (UnpackedFloat.finite s n e pos).sub .binary64 (.finite s n e pos) =
        .zero .positive := by
      simp only [UnpackedFloat.sub, Int.sub_self]
      rfl
    have finite : (UnpackedFloat.finite s n e pos).isFinite = true := rfl
    rw [none, if_pos finite]
    decide

end DerivativeEngine.Double
