import DerivativeEngine.Bytes.LittleEndian

/-! Numbers and their bytes, both ways. Bytes of the right length are those of exactly one number;
what was written completely is one run of bytes, put together from those of its parts. -/

namespace DerivativeEngine

namespace LittleEndian

variable {bs : List UInt8}

theorem toNat_lt (bs : List UInt8) : toNat bs < Nat.pow 256 bs.length := by
  induction bs with
  | nil => exact Nat.one_pos
  | cons b bs ih =>
    have power : Nat.pow 256 (b :: bs).length = Nat.pow 256 bs.length * 256 := rfl
    have low := b.toNat_lt
    simp only [toNat]
    omega

theorem bytes_toNat (bs : List UInt8) : bytes bs.length (toNat bs) = bs := by
  induction bs with
  | nil => rfl
  | cons b bs ih =>
    have low := b.toNat_lt
    have digit : (b.toNat + 256 * toNat bs) % 256 = b.toNat := by omega
    have others : (b.toNat + 256 * toNat bs) / 256 = toNat bs := by omega
    simp only [List.length_cons, bytes, toNat, digit, others, ih, UInt8.ofNat_toNat]

theorem eq_bytes_iff {width n : Nat} (bound : n < Nat.pow 256 width) :
    bs = bytes width n ↔ bs.length = width ∧ toNat bs = n := by
  constructor
  · rintro rfl
    exact ⟨length_bytes width n, (toNat_bytes width n).trans (Nat.mod_eq_of_lt bound)⟩
  · rintro ⟨rfl, rfl⟩
    exact (bytes_toNat bs).symm

theorem eq_word_iff {x : UInt64} : bs = word x ↔ bs.length = 8 ∧ toWord bs = x := by
  rw [word, eq_bytes_iff x.toNat_lt, toWord, ← UInt64.toNat_inj, UInt64.toNat_ofNat']
  refine and_congr_right fun length => ?_
  have bound := toNat_lt bs
  rw [length] at bound
  have same : toNat bs % 2 ^ 64 = toNat bs := Nat.mod_eq_of_lt bound
  rw [same]

theorem fitsInt32_iff {n : Int} : fitsInt32 n = true ↔ -0x80000000 ≤ n ∧ n < 0x80000000 := by
  simp [fitsInt32]

theorem toInt32_eq_iff {n : Int} :
    toInt32 bs = n ↔ fitsInt32 n = true ∧ n % 0x100000000 = toNat bs % 0x100000000 := by
  have low : -0x80000000 ≤ toInt32 bs := Int.le_bmod (x := toNat bs) (m := 0x100000000) (by decide)
  have high : toInt32 bs < 0x80000000 := Int.bmod_lt (x := toNat bs) (m := 0x100000000) (by decide)
  have residue : toInt32 bs % 0x100000000 = toNat bs % 0x100000000 :=
    Int.bmod_emod (x := toNat bs) (m := 0x100000000)
  rw [fitsInt32_iff]
  omega

theorem eq_int32_iff {n : Int} :
    fitsInt32 n = true ∧ bs = int32 n ↔ bs.length = 4 ∧ toInt32 bs = n := by
  rw [toInt32_eq_iff]
  refine ⟨fun ⟨fits, eq⟩ => ?_, fun ⟨length, fits, residue⟩ => ⟨fits, ?_⟩⟩
  · have number : toNat bs = (n % 0x100000000).toNat % 0x100000000 := by
      rw [eq]
      exact toNat_bytes 4 _
    have length : bs.length = 4 := by
      rw [eq]
      exact length_bytes 4 _
    exact ⟨length, fits, by omega⟩
  · have bound : toNat bs < 0x100000000 := by
      have bound := toNat_lt bs
      rwa [length] at bound
    have number : (n % 0x100000000).toNat = toNat bs := by omega
    rw [int32, number, ← length, bytes_toNat]

end LittleEndian

namespace Written

open LittleEndian (fitsInt32 int32)

variable {a b : Written} {bs : List UInt8}

theorem ofBytes_inj {bs bs' : List UInt8} : ofBytes bs = ofBytes bs' ↔ bs = bs' := by
  simp [ofBytes]

theorem append_eq_ofBytes :
    a ++ b = ofBytes bs ↔ ∃ f g, a = ofBytes f ∧ b = ofBytes g ∧ bs = f ++ g := by
  obtain ⟨f, complete⟩ := a
  obtain ⟨g, complete'⟩ := b
  change (if complete = true then (⟨f ++ g, complete'⟩ : Written) else ⟨f, complete⟩) = _ ↔ _
  cases complete <;> simp [ofBytes]
  grind

theorem ofInts_eq_ofBytes {ns : List Int} : ofInts ns = ofBytes bs ↔
    (∀ n ∈ ns, fitsInt32 n = true) ∧ bs = ns.flatMap int32 := by
  unfold ofInts
  rw [← List.all_eq_true]
  cases ns.all fitsInt32 with
  | true => simp [ofBytes, eq_comm]
  | false => simp [ofBytes]

theorem concat_cons (w : Written) (ws : List Written) : concat (w :: ws) = w ++ concat ws := rfl

end Written

end DerivativeEngine
