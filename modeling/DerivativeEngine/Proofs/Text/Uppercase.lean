import DerivativeEngine.Proofs.Source.Lexing

/-! Upper case is upper case already. The small code points are those that the tables, or the rule
for ASCII, send to something else; everything else is its own upper case, and nothing is sent to a
small code point. Sets of code points are held as the bits of a number, so that two of them are
compared at once. So the canonical form of a name is its own canonical form. -/

namespace DerivativeEngine

namespace Text

def bits : List Nat → Nat
  | [] => 0
  | n :: ns => 1 <<< n ||| bits ns

theorem testBit_bits (ns : List Nat) (n : Nat) : (bits ns).testBit n = decide (n ∈ ns) := by
  induction ns with
  | nil => simp [bits]
  | cons m ns ih =>
    simp [bits, Nat.one_shiftLeft, Nat.testBit_or, Nat.testBit_two_pow, ih, eq_comm]

theorem not_mem_of_bits {ms ns : List Nat} (apart : bits ms &&& bits ns = 0) {n : Nat}
    (h : n ∈ ms) : n ∉ ns := by
  have none := congrArg (·.testBit n) apart
  simpa [Nat.testBit_and, testBit_bits, h] using none

def points (r : Nat × Nat × Nat × Int) : List Nat :=
  (List.range' r.1 (r.2.1 + 1 - r.1)).filter fun n => (n - r.1) % r.2.2.1 == 0

def small : List Nat :=
  List.range' 97 26 ++ upperSequences.toList.map Prod.fst ++ upperRuns.toList.flatMap points

def capital : List Nat :=
  (upperSequences.toList.flatMap Prod.snd ++
    upperRuns.toList.flatMap fun r => (points r).map fun n : Nat => (n + r.2.2.2).toNat).map
      fun n => (Char.ofNat n).toNat

theorem mem_points {r : Nat × Nat × Nat × Int} {n : Nat} :
    n ∈ points r ↔ (r.1 ≤ n ∧ n ≤ r.2.1) ∧ (n - r.1) % r.2.2.1 = 0 := by
  rw [points, List.mem_filter, List.mem_range'_1, beq_iff_eq]
  omega

theorem capital_apart_small : bits capital &&& bits small = 0 := by decide +kernel

theorem toUpper_apart_small :
    ∀ n < 128, (bits small).testBit (Char.ofNat n).toUpper.toNat = false := by decide +kernel

theorem toUpper_of_not_small {c : Char} (ascii : c.toNat < 128) (h : c.toNat ∉ small) :
    c.toUpper = c := by
  have letter : ∀ n < 128, n ∈ List.range' 97 26 ∨ (Char.ofNat n).toUpper = Char.ofNat n := by
    decide +kernel
  have hc := letter c.toNat ascii
  rw [Char.ofNat_toNat] at hc
  exact hc.resolve_left fun within => h (by simp [small, within])

theorem mem_points_of_find {n : Nat} {r : Nat × Nat × Nat × Int}
    (found : (upperRuns.find? fun r => r.1 ≤ n && n ≤ r.2.1 && (n - r.1) % r.2.2.1 == 0) = some r) :
    r ∈ upperRuns.toList ∧ n ∈ points r := by
  have within := Array.find?_some found
  simp only [Bool.and_eq_true, decide_eq_true_eq, beq_iff_eq] at within
  exact ⟨(Array.mem_of_find?_eq_some found).val, mem_points.2 within⟩

theorem upperChar_of_not_small {c : Char} (h : c.toNat ∉ small) : upperChar c = [c] := by
  unfold upperChar
  dsimp only
  split
  · next ascii => rw [toUpper_of_not_small ascii h]
  · split
    · next s found =>
      have key : s.1 = c.toNat := by simpa using Array.find?_some found
      have listed : s.1 ∈ upperSequences.toList.map Prod.fst :=
        List.mem_map_of_mem (Array.mem_of_find?_eq_some found).val
      rw [key] at listed
      exact absurd (List.mem_append_left _ (List.mem_append_right _ listed)) h
    · split
      · next r found =>
        obtain ⟨listed, within⟩ := mem_points_of_find found
        exact absurd (List.mem_append_right _ (List.mem_flatMap.2 ⟨r, listed, within⟩)) h
      · rfl

theorem not_small_of_find {n : Nat} (wide : ¬ n < 128)
    (sequence : (upperSequences.find? fun s => s.1 == n) = none)
    (run : (upperRuns.find? fun r => r.1 ≤ n && n ≤ r.2.1 && (n - r.1) % r.2.2.1 == 0) = none) :
    n ∉ small := by
  rw [Array.find?_eq_none] at sequence run
  intro h
  rcases List.mem_append.1 h with h | h
  · rcases List.mem_append.1 h with h | h
    · have letter := List.mem_range'_1.1 h
      omega
    · obtain ⟨s, listed, rfl⟩ := List.mem_map.1 h
      exact sequence s (Array.mem_toList_iff.1 listed) BEq.rfl
  · obtain ⟨r, listed, within⟩ := List.mem_flatMap.1 h
    refine run r (Array.mem_toList_iff.1 listed) ?_
    simpa using mem_points.1 within

theorem not_small_of_mem {c d : Char} (h : d ∈ upperChar c) : d.toNat ∉ small := by
  unfold upperChar at h
  dsimp only at h
  split at h
  · next ascii =>
    obtain rfl := List.mem_singleton.1 h
    have apart := toUpper_apart_small c.toNat ascii
    rw [Char.ofNat_toNat, testBit_bits] at apart
    exact of_decide_eq_false apart
  · next wide =>
    split at h
    · next s found =>
      obtain ⟨n, within, rfl⟩ := List.mem_map.1 h
      refine not_mem_of_bits capital_apart_small (List.mem_map_of_mem ?_)
      exact List.mem_append_left _
        (List.mem_flatMap.2 ⟨s, (Array.mem_of_find?_eq_some found).val, within⟩)
    · next sequence =>
      split at h
      · next r found =>
        obtain ⟨listed, within⟩ := mem_points_of_find found
        obtain rfl := List.mem_singleton.1 h
        refine not_mem_of_bits capital_apart_small (List.mem_map_of_mem ?_)
        exact List.mem_append_right _
          (List.mem_flatMap.2 ⟨r, listed, List.mem_map_of_mem within⟩)
      · next run =>
        obtain rfl := List.mem_singleton.1 h
        exact not_small_of_find wide sequence run

theorem flatMap_upperChar_of_not_small {cs : List Char} (h : ∀ c ∈ cs, c.toNat ∉ small) :
    cs.flatMap upperChar = cs := by
  induction cs with
  | nil => rfl
  | cons c cs ih =>
    rw [List.flatMap_cons, upperChar_of_not_small (h c List.mem_cons_self),
      ih fun d mem => h d (List.mem_cons_of_mem c mem)]
    rfl

end Text

@[simp]
theorem canonicalName_canonicalName (x : String) :
    canonicalName (canonicalName x) = canonicalName x := by
  have kept : ∀ d ∈ (canonicalName x).toList, d.toNat ∉ Text.small := by
    intro d mem
    rw [canonicalName, Text.upper, String.toList_ofList, String.toList_ofList] at mem
    obtain ⟨c, -, hd⟩ := List.mem_flatMap.1 (List.mem_of_mem_take mem)
    exact Text.not_small_of_mem hd
  have short : (canonicalName x).toList.length ≤ maxNameLength := by
    rw [canonicalName, String.toList_ofList]
    exact List.length_take_le _ _
  apply String.toList_injective
  rw [canonicalName, Text.upper, String.toList_ofList, String.toList_ofList,
    Text.flatMap_upperChar_of_not_small kept, List.take_of_length_le short]

end DerivativeEngine
