import DerivativeEngine.Proofs.Arena.Blocks

/-! The same requests after a reset. What the requests of an iteration add to an arena is there from
the start when they are made again, empty and behind all that was there before. A request then goes
into the very chunk that it made the arena grow by, or into the one that had room for it in the
first place. So the blocks are laid out as they were, and the arena is the same in all but its
generation, however often the iteration is repeated. -/

namespace DerivativeEngine

def Block.inGeneration (b : Block) (g : Nat) : Block := { b with generation := g }

namespace Arena

def allocAll : List Int → Arena → List (Option Block) × Arena
  | [], a => ([], a)
  | n :: ns, a =>
    let (b, a) := a.alloc n
    let (bs, a) := allocAll ns a
    (b :: bs, a)

def ahead (a : Arena) (more : List Chunk) (g : Nat) : Arena :=
  { a with chunks := a.chunks ++ more, generation := g }

def grownFor (a : Arena) (size : Nat) : List Chunk :=
  if a.findRoom size < a.chunks.length then [] else [.fresh (max a.chunkSize (2 * size))]

def growth (a : Arena) (n : Int) : List Chunk :=
  if n ≤ 0 then [] else a.grownFor (align n.toNat)

def growthAll : List Int → Arena → List Chunk
  | [], _ => []
  | n :: ns, a => a.growth n ++ growthAll ns (a.alloc n).2

variable {a : Arena} {more : List Chunk} {g : Nat}

theorem chunks_roomy (a : Arena) (size : Nat) :
    (a.roomy size).chunks = a.chunks ++ a.grownFor size := by
  unfold roomy grownFor
  split
  · exact (List.append_nil _).symm
  · rfl

theorem findRoom_lt_roomy (a : Arena) (size : Nat) :
    a.findRoom size < (a.roomy size).chunks.length := by
  rw [chunks_roomy, List.length_append, grownFor]
  split
  · assumption
  · exact Nat.lt_succ_of_le (a.findRoom_le size)

theorem findRoom_ahead (current : a.current ≤ a.chunks.length) (size : Nat) :
    (a.ahead (a.grownFor size ++ more) g).findRoom size = a.findRoom size := by
  have passed : (a.chunks ++ (a.grownFor size ++ more)).drop a.current =
      a.chunks.drop a.current ++ (a.grownFor size ++ more) :=
    List.drop_append_of_le_length current
  unfold findRoom
  simp only [ahead]
  rw [passed, List.findIdx?_append]
  cases found : (a.chunks.drop a.current).findIdx? fun c => size ≤ c.remaining with
  | some i => rfl
  | none =>
    have last : a.findRoom size = a.chunks.length := by
      simp only [findRoom, found]
    have fresh : size ≤ (Chunk.fresh (max a.chunkSize (2 * size))).remaining := by
      change size ≤ max a.chunkSize (2 * size) - 0
      omega
    have new : a.grownFor size = [.fresh (max a.chunkSize (2 * size))] :=
      if_neg (Nat.not_lt.2 (Nat.le_of_eq last.symm))
    rw [new, List.singleton_append, List.findIdx?_cons, decide_eq_true fresh, List.length_drop]
    simp only [Option.none_or, if_true, Option.map_some]
    omega

theorem roomy_ahead (current : a.current ≤ a.chunks.length) (size : Nat) :
    (a.ahead (a.grownFor size ++ more) g).roomy size = (a.roomy size).ahead more g := by
  have room := findRoom_lt_roomy a size
  have there : (a.ahead (a.grownFor size ++ more) g).findRoom size <
      (a.ahead (a.grownFor size ++ more) g).chunks.length := by
    rw [findRoom_ahead current]
    simp only [chunks_roomy, ahead, List.length_append] at room ⊢
    omega
  rw [roomy, if_pos there]
  unfold ahead
  rw [chunks_roomy, List.append_assoc]
  unfold roomy
  split <;> rfl

theorem modify_append {β : Type} (f : β → β) (ys : List β) {xs : List β} {i : Nat}
    (inside : i < xs.length) : (xs ++ ys).modify i f = xs.modify i f ++ ys := by
  induction xs generalizing i with
  | nil => cases inside
  | cons x xs ih =>
    cases i with
    | zero => rfl
    | succ i =>
      rw [List.cons_append, List.modify_succ_cons, List.modify_succ_cons,
        ih (Nat.lt_of_succ_lt_succ inside)]
      rfl

theorem bump_ahead {i : Nat} (inside : i < a.chunks.length) (size : Nat) :
    (a.ahead more g).bump i size = (a.bump i size).ahead more g := by
  unfold bump ahead
  rw [modify_append _ _ inside]

theorem reserve_ahead (current : a.current ≤ a.chunks.length) (n : Nat) :
    (a.ahead (a.grownFor (align n) ++ more) g).reserve n =
      ((a.reserve n).1.inGeneration g, (a.reserve n).2.ahead more g) := by
  have inside := findRoom_lt_roomy a (align n)
  have there := List.getElem?_eq_getElem inside
  have same : (a.ahead (a.grownFor (align n) ++ more) g).findRoom (align n) =
      a.findRoom (align n) := findRoom_ahead current (align n)
  have wider : ((a.ahead (a.grownFor (align n) ++ more) g).roomy (align n)).chunks[
      (a.ahead (a.grownFor (align n) ++ more) g).findRoom (align n)]? =
        some (a.roomy (align n)).chunks[a.findRoom (align n)] := by
    rw [roomy_ahead current, same]
    exact (List.getElem?_append_left inside).trans there
  rw [reserve_eq _ n wider, reserve_eq a n there, same, roomy_ahead current, bump_ahead inside]
  rfl

theorem alloc_ahead (current : a.current ≤ a.chunks.length) (n : Int) :
    (a.ahead (a.growth n ++ more) g).alloc n =
      ((a.alloc n).1.map (·.inGeneration g), (a.alloc n).2.ahead more g) := by
  unfold alloc growth
  split
  · rfl
  · rw [reserve_ahead current]
    rfl

theorem reserve_snd (a : Arena) (n : Nat) :
    (a.reserve n).2 = (a.roomy (align n)).bump (a.findRoom (align n)) (align n) := rfl

theorem current_alloc (current : a.current ≤ a.chunks.length) (n : Int) :
    (a.alloc n).2.current ≤ (a.alloc n).2.chunks.length := by
  unfold alloc
  split
  · exact current
  · dsimp only
    rw [reserve_snd]
    have inside := findRoom_lt_roomy a (align n.toNat)
    simp only [bump, List.length_modify]
    exact Nat.le_of_lt inside

theorem allocAll_ahead (ns : List Int) : ∀ {a : Arena}, a.current ≤ a.chunks.length →
    (allocAll ns (a.ahead (growthAll ns a) g)) =
      ((allocAll ns a).1.map (Option.map (·.inGeneration g)),
        { (allocAll ns a).2 with generation := g }) := by
  induction ns with
  | nil =>
    intro a current
    simp [allocAll, growthAll, ahead]
  | cons n ns ih =>
    intro a current
    have rest := ih (current_alloc current n)
    simp only [allocAll, growthAll, alloc_ahead current, rest, List.map_cons]

theorem rewound_reserve (a : Arena) (n : Nat) :
    (a.reserve n).2.chunks.map rewind = a.chunks.map rewind ++ a.grownFor (align n) := by
  have used (size : Nat) (cs : List Chunk) (i : Nat) :
      (cs.modify i fun c => { c with used := c.used + size }).map rewind = cs.map rewind := by
    refine List.ext_getElem? fun j => ?_
    rw [List.getElem?_map, List.getElem?_map, List.getElem?_modify]
    cases cs[j]? with
    | none => rfl
    | some c => split <;> rfl
  have empty : (a.grownFor (align n)).map rewind = a.grownFor (align n) := by
    unfold grownFor
    split <;> rfl
  rw [reserve_snd, bump, used, chunks_roomy, List.map_append, empty]

theorem rewound_allocAll (ns : List Int) : ∀ a : Arena,
    (allocAll ns a).2.chunks.map rewind = a.chunks.map rewind ++ growthAll ns a ∧
      (allocAll ns a).2.chunkSize = a.chunkSize := by
  induction ns with
  | nil => exact fun a => ⟨(List.append_nil _).symm, rfl⟩
  | cons n ns ih =>
    intro a
    obtain ⟨chunks, size⟩ := ih (a.alloc n).2
    have first : (a.alloc n).2.chunks.map rewind = a.chunks.map rewind ++ a.growth n ∧
        (a.alloc n).2.chunkSize = a.chunkSize := by
      unfold alloc growth
      split
      · exact ⟨(List.append_nil _).symm, rfl⟩
      · refine ⟨rewound_reserve a n.toNat, ?_⟩
        change (a.roomy _).chunkSize = a.chunkSize
        unfold roomy
        split <;> rfl
    refine ⟨?_, size.trans first.2⟩
    simp only [allocAll, growthAll]
    rw [chunks, first.1, List.append_assoc]

theorem reset_allocAll (a : Arena) (ns : List Int) (g : Nat) :
    reset { (allocAll ns a.reset).2 with generation := g } =
      a.reset.ahead (growthAll ns a.reset) (g + 1) := by
  obtain ⟨chunks, size⟩ := rewound_allocAll ns a.reset
  have once : a.reset.chunks.map rewind = a.reset.chunks := by
    simp only [reset, List.map_map]
    rfl
  rw [once] at chunks
  unfold ahead
  rw [← chunks, ← size]
  rfl

/-- The requests made once and `k` times more, each time after a reset: the blocks of the last
time, and the arena after it. -/
def repeated (ns : List Int) (a : Arena) : Nat → List (Option Block) × Arena
  | 0 => allocAll ns a.reset
  | k + 1 => allocAll ns (repeated ns a k).2.reset

/-- However often the same requests are made after a reset, each block is in the same chunk, at the
same offset and of the same size as the first time, and the arena has no chunk more: nothing but its
generation is another. -/
theorem allocAll_repeated (a : Arena) (ns : List Int) (k : Nat) :
    let first := allocAll ns a.reset
    let later := repeated ns a k
    later.1.map (Option.map fun b => (b.chunk, b.offset, b.size)) =
        first.1.map (Option.map fun b => (b.chunk, b.offset, b.size)) ∧
      later.2 = { first.2 with generation := first.2.generation + k } := by
  intro first later
  induction k with
  | zero => exact ⟨rfl, rfl⟩
  | succ k ih =>
    have next : later = allocAll ns (repeated ns a k).2.reset := rfl
    rw [ih.2, reset_allocAll, allocAll_ahead ns (Nat.zero_le _)] at next
    rw [next]
    refine ⟨?_, rfl⟩
    rw [List.map_map]
    refine List.map_congr_left fun b _ => ?_
    cases b <;> rfl

example : ((repeated [20, 0, 8, 9] (ofChunkSize 24) 1).1, (ofChunkSize 24).chunks.length,
    (repeated [20, 0, 8, 9] (ofChunkSize 24) 0).2.chunks.length,
    (repeated [20, 0, 8, 9] (ofChunkSize 24) 5).2.chunks.length) =
      ([some ⟨0, 0, 24, 2⟩, none, some ⟨1, 0, 8, 2⟩, some ⟨1, 8, 16, 2⟩], 1, 2, 2) := by decide

end Arena

end DerivativeEngine
