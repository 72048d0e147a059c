/-!
Numbers as bytes, the lowest byte first, and what a writer leaves behind when a number does not
fit.
-/

namespace DerivativeEngine

namespace LittleEndian

/-- The lowest `width` bytes of a number. -/
def bytes : Nat → Nat → List UInt8
  | 0, _ => []
  | width + 1, n => UInt8.ofNat (n % 256) :: bytes width (n / 256)

def toNat : List UInt8 → Nat
  | [] => 0
  | b :: bs => b.toNat + 256 * toNat bs

theorem length_bytes (width n : Nat) : (bytes width n).length = width := by
  induction width generalizing n with
  | zero => rfl
  | succ w ih => simp [bytes, ih]

theorem toNat_bytes (width n : Nat) : toNat (bytes width n) = n % Nat.pow 256 width := by
  induction width generalizing n with
  | zero => simp [bytes, toNat, Nat.mod_one]
  | succ w ih =>
    have h := Nat.mod_mul (x := n) (a := 256) (b := Nat.pow 256 w)
    have e : Nat.pow 256 (w + 1) = 256 * Nat.pow 256 w := Nat.mul_comm _ _
    simp only [bytes, toNat, ih, UInt8.toNat_ofNat']
    rw [e, h]
    omega

def word (w : UInt64) : List UInt8 := bytes 8 w.toNat

def toWord (bs : List UInt8) : UInt64 := UInt64.ofNat (toNat bs)

/-- In the signed range of 32 bits. -/
def fitsInt32 (n : Int) : Bool := -0x80000000 ≤ n && n < 0x80000000

/-- Two's complement. -/
def int32 (n : Int) : List UInt8 := bytes 4 (n % 0x100000000).toNat

def toInt32 (bs : List UInt8) : Int := Int.bmod (toNat bs) 0x100000000

end LittleEndian

/-- Bytes that were written, up to the first number that did not fit. -/
structure Written where
  bytes : List UInt8
  complete : Bool
  deriving DecidableEq, Repr

namespace Written

def ofBytes (bytes : List UInt8) : Written := ⟨bytes, true⟩

/-- A group of integers is written as a whole or not at all. -/
def ofInts (ns : List Int) : Written :=
  if ns.all LittleEndian.fitsInt32 then ofBytes (ns.flatMap LittleEndian.int32) else ⟨[], false⟩

/-- Nothing follows what did not fit. -/
def append (a b : Written) : Written :=
  if a.complete then ⟨a.bytes ++ b.bytes, b.complete⟩ else a

instance : Append Written := ⟨append⟩

def concat (ws : List Written) : Written := ws.foldr (· ++ ·) (ofBytes [])

end Written

end DerivativeEngine
