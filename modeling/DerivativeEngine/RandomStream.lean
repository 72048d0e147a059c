/-!
The stream of uniform draws behind `RANDOM`. It is the Mersenne twister MT19937: a state of
624 words that is renewed as a whole whenever it is used up. A draw takes two words and keeps
53 bits of them, so it is a multiple of `2 ^ -53` in `[0, 1)`.
-/

namespace DerivativeEngine

structure RandomStream where
  words : Array UInt32
  used : Nat
  deriving DecidableEq

namespace RandomStream

def size : Nat := 624

def offset : Nat := 397

def word (ws : Array UInt32) (i : Nat) : UInt32 := ws.getD (i % size) 0

/-- Mixes a word into its successor; both seeding passes and the base state use it. -/
def mix (w : UInt32) : UInt32 := w ^^^ (w >>> 30)

def baseWords (s : UInt32) : Array UInt32 :=
  (List.range (size - 1)).foldl
    (fun ws i => ws.push (1812433253 * mix (word ws i) + UInt32.ofNat (i + 1))) #[s]

/-- The index runs over `1, …, 623` and then starts again, copying the last word to the front. -/
def stepIndex (ws : Array UInt32) (i : Nat) : Array UInt32 × Nat :=
  if i + 1 < size then (ws, i + 1) else (ws.setIfInBounds 0 (word ws (size - 1)), 1)

/-- The state for a key of one word. -/
def seedWords (key : UInt32) : Array UInt32 :=
  let first := (List.range size).foldl
    (fun (ws, i) _ =>
      stepIndex (ws.setIfInBounds i
        ((word ws i ^^^ (mix (word ws (i - 1)) * 1664525)) + key)) i)
    (baseWords 19650218, 1)
  let second := (List.range (size - 1)).foldl
    (fun (ws, i) _ =>
      stepIndex (ws.setIfInBounds i
        ((word ws i ^^^ (mix (word ws (i - 1)) * 1566083941)) - UInt32.ofNat i)) i)
    first
  second.1.setIfInBounds 0 0x80000000

def ofSeed (n : Nat) : RandomStream := ⟨seedWords (UInt32.ofNat (n % 0x100000000)), size⟩

/-- Each new word joins the top bit of one old word with the rest of the next. -/
def renew (ws : Array UInt32) : Array UInt32 :=
  (List.range size).foldl
    (fun ws i =>
      let y := (word ws i &&& 0x80000000) ||| (word ws (i + 1) &&& 0x7fffffff)
      let low := if y &&& 1 == 0 then (0 : UInt32) else 0x9908b0df
      ws.setIfInBounds i (word ws (i + offset) ^^^ (y >>> 1) ^^^ low))
    ws

def temper (y : UInt32) : UInt32 :=
  let y := y ^^^ (y >>> 11)
  let y := y ^^^ ((y <<< 7) &&& 0x9d2c5680)
  let y := y ^^^ ((y <<< 15) &&& 0xefc60000)
  y ^^^ (y >>> 18)

def nextWord (s : RandomStream) : UInt32 × RandomStream :=
  let s := if s.used < size then s else ⟨renew s.words, 0⟩
  (temper (word s.words s.used), ⟨s.words, s.used + 1⟩)

/-- The next 53 random bits. -/
def draw (s : RandomStream) : Nat × RandomStream :=
  let (a, s) := s.nextWord
  let (b, s) := s.nextWord
  ((a >>> 5).toNat * 0x4000000 + (b >>> 6).toNat, s)

end RandomStream

end DerivativeEngine
