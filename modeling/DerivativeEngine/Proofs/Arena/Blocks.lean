import DerivativeEngine.Arena.Basic
import Mathlib.Algebra.GroupWithZero.Nat

/-! Where the blocks of an arena lie. A history keeps all blocks that were handed out, and those of
them handed out since the memory was last given back; between its actions the holders of blocks may
write what they like. The valid blocks are those of the second kind. They lie in chunks that are
there, below the part of the chunk that is still free, so a new block is disjoint from all of them
and leaves their bytes alone. -/

namespace DerivativeEngine

/-- A block with the number of bytes it was asked for. -/
structure Grant where
  request : Int
  block : Block

def Block.Apart (b b' : Block) : Prop :=
  b.chunk = b'.chunk → b.offset + b.size ≤ b'.offset ∨ b'.offset + b'.size ≤ b.offset

namespace Arena

variable {a : Arena} {gs : List Grant}

/-- What holders of blocks can see: where the blocks are, and how much of the arena they fill. -/
structure Laid (a : Arena) (gs : List Grant) : Prop where
  inside : ∀ g ∈ gs, ∃ c, a.chunks[g.block.chunk]? = some c ∧
    g.block.offset + g.block.size ≤ c.size
  aligned : ∀ g ∈ gs, 8 ∣ g.block.offset
  rounded : ∀ g ∈ gs, 0 < g.request ∧ 8 ∣ g.block.size ∧ g.request ≤ g.block.size ∧
    g.block.size < g.request + 8
  disjoint : gs.Pairwise fun g g' => g.block.Apart g'.block
  used : a.used = (gs.map fun g => g.block.size).sum
  bounded : a.used ≤ a.allocated

/-- What the arena keeps to itself: each chunk is in use up to a multiple of eight, and the blocks
in it lie below. -/
structure Packed (a : Arena) (gs : List Grant) : Prop where
  chunks : ∀ c ∈ a.chunks, c.used ≤ c.size ∧ 8 ∣ c.used
  placed : ∀ g ∈ gs, ∃ c, a.chunks[g.block.chunk]? = some c ∧
    g.block.offset + g.block.size ≤ c.used
  aligned : ∀ g ∈ gs, 8 ∣ g.block.offset
  rounded : ∀ g ∈ gs, 0 < g.request ∧ 8 ∣ g.block.size ∧ g.request ≤ g.block.size ∧
    g.block.size < g.request + 8
  disjoint : gs.Pairwise fun g g' => g.block.Apart g'.block
  used : a.used = (gs.map fun g => g.block.size).sum

theorem used_le_allocated {cs : List Chunk} (h : ∀ c ∈ cs, c.used ≤ c.size) :
    cs.foldr (·.used + ·) 0 ≤ cs.foldr (·.size + ·) 0 := by
  induction cs with
  | nil => exact Nat.le_refl _
  | cons c cs ih => exact Nat.add_le_add (h c (by simp)) (ih fun d hd => h d (by simp [hd]))

theorem Packed.laid (h : a.Packed gs) : a.Laid gs where
  inside g hg := by
    obtain ⟨c, hc, below⟩ := h.placed g hg
    exact ⟨c, hc, Nat.le_trans below (h.chunks c (List.mem_of_getElem? hc)).1⟩
  aligned := h.aligned
  rounded := h.rounded
  disjoint := h.disjoint
  used := h.used
  bounded := used_le_allocated fun c hc => (h.chunks c hc).1

theorem align_spec (n : Nat) : 8 ∣ align n ∧ n ≤ align n ∧ align n < n + 8 := by
  unfold align alignment
  omega

theorem used_append (cs : List Chunk) (c : Chunk) (fresh : c.used = 0) :
    (cs ++ [c]).foldr (·.used + ·) 0 = cs.foldr (·.used + ·) 0 := by
  simp [List.foldr_append, fresh]

theorem used_modify {cs : List Chunk} {i : Nat} {c : Chunk} (there : cs[i]? = some c) (n : Nat) :
    (cs.modify i fun c => { c with used := c.used + n }).foldr (·.used + ·) 0 =
      n + cs.foldr (·.used + ·) 0 := by
  induction cs generalizing i with
  | nil => simp at there
  | cons d cs ih =>
    cases i with
    | zero =>
      simp only [List.modify_zero_cons, List.foldr_cons]
      omega
    | succ i =>
      have rest := ih (by simpa using there)
      simp only [List.modify_succ_cons, List.foldr_cons, rest]
      omega

def roomy (a : Arena) (size : Nat) : Arena :=
  if a.findRoom size < a.chunks.length then a else a.grow size

theorem roomy_generation (a : Arena) (size : Nat) : (a.roomy size).generation = a.generation := by
  unfold roomy
  split <;> rfl

theorem Packed.roomy (h : a.Packed gs) (size : Nat) : (a.roomy size).Packed gs := by
  unfold Arena.roomy
  split
  · exact h
  · refine { h with chunks := ?_, placed := ?_, used := ?_ }
    · intro c hc
      rcases List.mem_append.1 hc with old | new
      · exact h.chunks c old
      · obtain rfl := List.mem_singleton.1 new
        exact ⟨Nat.zero_le _, 0, rfl⟩
    · intro g hg
      obtain ⟨c, hc, below⟩ := h.placed g hg
      exact ⟨c, List.getElem?_append_left (List.getElem?_eq_some_iff.1 hc).1 ▸ hc, below⟩
    · exact (used_append _ _ rfl).trans h.used

theorem findRoom_le (a : Arena) (size : Nat) : a.findRoom size ≤ a.chunks.length := by
  unfold findRoom
  split
  · next i found =>
    have bound := (List.findIdx?_eq_some_iff_getElem.1 found).1
    rw [List.length_drop] at bound
    omega
  · exact Nat.le_refl _

theorem remaining_findRoom {size : Nat} (inside : a.findRoom size < a.chunks.length) :
    size ≤ (a.chunks[a.findRoom size]).remaining := by
  cases found : (a.chunks.drop a.current).findIdx? fun c => size ≤ c.remaining with
  | none =>
    have last : a.findRoom size = a.chunks.length := by
      simp only [findRoom, found]
    omega
  | some i =>
    have index : a.findRoom size = a.current + i := by
      simp only [findRoom, found]
    obtain ⟨bound, room, -⟩ := List.findIdx?_eq_some_iff_getElem.1 found
    simp only [List.getElem_drop, decide_eq_true_eq] at room
    simpa only [index] using room

theorem exists_room (h : a.Packed gs) (size : Nat) :
    ∃ c, (a.roomy size).chunks[a.findRoom size]? = some c ∧ c.used + size ≤ c.size ∧
      8 ∣ c.used := by
  by_cases inside : a.findRoom size < a.chunks.length
  · have same : a.roomy size = a := if_pos inside
    have room := remaining_findRoom inside
    obtain ⟨bound, multiple⟩ := h.chunks _ (List.getElem_mem inside)
    refine ⟨_, by rw [same]; exact List.getElem?_eq_getElem inside, ?_, multiple⟩
    unfold Chunk.remaining at room
    omega
  · have grown : a.roomy size = a.grow size := if_neg inside
    have last : a.findRoom size = a.chunks.length :=
      Nat.le_antisymm (a.findRoom_le size) (Nat.le_of_not_lt inside)
    refine ⟨.fresh (max a.chunkSize (2 * size)), ?_, ?_, 0, rfl⟩
    · rw [grown, last]
      exact List.getElem?_concat_length
    · change 0 + size ≤ max a.chunkSize (2 * size)
      omega

theorem reserve_eq (a : Arena) (n : Nat) {c : Chunk}
    (there : (a.roomy (align n)).chunks[a.findRoom (align n)]? = some c) :
    a.reserve n = (⟨a.findRoom (align n), c.used, align n, a.generation⟩,
      (a.roomy (align n)).bump (a.findRoom (align n)) (align n)) := by
  have offset : ((a.roomy (align n)).chunks.map Chunk.used).getD (a.findRoom (align n)) 0 =
      c.used := by
    rw [List.getD_eq_getElem?_getD, List.getElem?_map, there]
    rfl
  rw [← offset, ← roomy_generation a (align n)]
  rfl

theorem getElem?_bump (a : Arena) (i size j : Nat) :
    (a.bump i size).chunks[j]? = if i = j then
      a.chunks[j]?.map fun c => { c with used := c.used + size } else a.chunks[j]? := by
  unfold bump
  rw [List.getElem?_modify]
  split
  · rfl
  · simp

theorem Packed.bump (h : a.Packed gs) {i : Nat} {c : Chunk} (there : a.chunks[i]? = some c)
    {g : Grant} (positive : 0 < g.request)
    (rounded : 8 ∣ g.block.size ∧ g.request ≤ g.block.size ∧ g.block.size < g.request + 8)
    (room : c.used + g.block.size ≤ c.size) (chunk : g.block.chunk = i)
    (offset : g.block.offset = c.used) : (a.bump i g.block.size).Packed (g :: gs) := by
  have new : (a.bump i g.block.size).chunks[i]? =
      some { c with used := c.used + g.block.size } := by
    rw [getElem?_bump, if_pos rfl, there]
    rfl
  have multiple := (h.chunks c (List.mem_of_getElem? there)).2
  exact
    { chunks := by
        intro d hd
        obtain ⟨j, hj⟩ := List.mem_iff_getElem?.1 hd
        by_cases same : i = j
        · rw [← same, new] at hj
          obtain rfl := Option.some.inj hj
          exact ⟨room, Nat.dvd_add multiple rounded.1⟩
        · rw [getElem?_bump, if_neg same] at hj
          exact h.chunks d (List.mem_of_getElem? hj)
      placed := by
        refine List.forall_mem_cons.2 ⟨?_, fun g' hg' => ?_⟩
        · rw [chunk, offset]
          exact ⟨_, new, Nat.le_refl _⟩
        · obtain ⟨d, hd, below⟩ := h.placed g' hg'
          by_cases same : i = g'.block.chunk
          · rw [← same, there] at hd
            obtain rfl := Option.some.inj hd
            rw [← same]
            exact ⟨_, new, Nat.le_trans below (Nat.le_add_right _ _)⟩
          · exact ⟨d, by rw [getElem?_bump, if_neg same, hd], below⟩
      aligned := List.forall_mem_cons.2 ⟨offset ▸ multiple, h.aligned⟩
      rounded := List.forall_mem_cons.2 ⟨⟨positive, rounded⟩, h.rounded⟩
      disjoint := by
        -- A valid block of this chunk ends where the chunk is still free, where the new one starts.
        refine List.pairwise_cons.2 ⟨fun g' hg' together => .inr ?_, h.disjoint⟩
        obtain ⟨d, hd, below⟩ := h.placed g' hg'
        rw [← together, chunk, there] at hd
        obtain rfl := Option.some.inj hd
        exact offset ▸ below
      used := by
        have sum : (a.bump i g.block.size).used = g.block.size + a.used := used_modify there _
        rw [sum, h.used]
        rfl }

/-- Nothing was written to these blocks. -/
def Keeps (a : Arena) (gs : List Grant) (a' : Arena) : Prop :=
  ∀ g ∈ gs, a'.read g.block = a.read g.block

theorem read_eq (a : Arena) (b : Block) : a.read b = (a.check b).map fun _ =>
    (a.chunks[b.chunk]?.map fun c => c.read b.offset b.size).getD [] := by
  unfold read
  cases a.check b with
  | error e => rfl
  | ok u => cases a.chunks[b.chunk]? <;> rfl

theorem read_congr {a a' : Arena} {b : Block} (generation : a'.generation = a.generation)
    (bytes : (a'.chunks[b.chunk]?.map fun c => c.read b.offset b.size) =
      a.chunks[b.chunk]?.map fun c => c.read b.offset b.size) : a'.read b = a.read b := by
  rw [read_eq, read_eq, bytes]
  unfold check isValid
  rw [generation]

theorem Packed.reserve (h : a.Packed gs) {n : Int} (positive : 0 < n) :
    (a.reserve n.toNat).2.Packed (⟨n, (a.reserve n.toNat).1⟩ :: gs) ∧
      (a.reserve n.toNat).2.generation = a.generation ∧
      (a.reserve n.toNat).1.generation = a.generation ∧
      a.Keeps gs (a.reserve n.toNat).2 := by
  obtain ⟨c, there, room, -⟩ := exists_room h (align n.toNat)
  obtain ⟨multiple, above, below⟩ := align_spec n.toNat
  rw [reserve_eq a n.toNat there]
  have rounded : 8 ∣ align n.toNat ∧ n ≤ align n.toNat ∧ (align n.toNat : Int) < n + 8 := by
    omega
  let g : Grant := ⟨n, ⟨a.findRoom (align n.toNat), c.used, align n.toNat, a.generation⟩⟩
  have packed := (h.roomy (align n.toNat)).bump there (g := g) positive rounded room rfl rfl
  refine ⟨packed, roomy_generation a _, rfl, ?_⟩
  · intro g hg
    refine read_congr (roomy_generation a _) ?_
    obtain ⟨d, hd, -⟩ := h.placed g hg
    have grown : (a.roomy (align n.toNat)).chunks[g.block.chunk]? = some d := by
      unfold Arena.roomy
      split
      · exact hd
      · exact List.getElem?_append_left (List.getElem?_eq_some_iff.1 hd).1 ▸ hd
    rw [getElem?_bump, grown, hd]
    split <;> rfl

theorem getElem?_writeBlock (a : Arena) (b : Block) (f : Nat → UInt8) (j : Nat) :
    (a.writeBlock b f).chunks[j]? = if b.chunk = j then
      a.chunks[j]?.map fun c => c.write b.offset b.size f else a.chunks[j]? := by
  unfold writeBlock
  rw [List.getElem?_modify]
  split
  · rfl
  · simp

theorem used_writeBlock (a : Arena) (b : Block) (f : Nat → UInt8) :
    (a.writeBlock b f).used = a.used := by
  unfold writeBlock used
  generalize b.chunk = i
  generalize a.chunks = cs
  induction cs generalizing i with
  | nil => simp
  | cons c cs ih =>
    cases i with
    | zero => rfl
    | succ i =>
      have rest := ih i
      simp only [List.modify_succ_cons, List.foldr_cons] at rest ⊢
      rw [rest]

theorem Packed.writeBlock (h : a.Packed gs) (b : Block) (f : Nat → UInt8) :
    (a.writeBlock b f).Packed gs := by
  refine { h with chunks := ?_, placed := ?_, used := (a.used_writeBlock b f).trans h.used }
  · intro c hc
    obtain ⟨j, hj⟩ := List.mem_iff_getElem?.1 hc
    rw [getElem?_writeBlock] at hj
    split at hj
    · obtain ⟨d, hd, rfl⟩ := Option.map_eq_some_iff.1 hj
      exact h.chunks d (List.mem_of_getElem? hd)
    · exact h.chunks c (List.mem_of_getElem? hj)
  · intro g hg
    obtain ⟨d, hd, below⟩ := h.placed g hg
    rw [getElem?_writeBlock, hd]
    split
    · exact ⟨_, rfl, below⟩
    · exact ⟨d, rfl, below⟩

theorem Chunk.read_write_apart (c : Chunk) (f : Nat → UInt8) {start n start' n' : Nat}
    (apart : start + n ≤ start' ∨ start' + n' ≤ start) :
    (c.write start n f).read start' n' = c.read start' n' := by
  refine List.map_congr_left fun i hi => ?_
  have inside := List.mem_range.1 hi
  have outside : ¬ (start ≤ start' + i ∧ start' + i < start + n) := by omega
  have unwritten : (c.write start n f).bytes (start' + i) = c.bytes (start' + i) :=
    if_neg (by simpa using outside)
  exact unwritten

theorem Chunk.read_write_zero (c : Chunk) (start n : Nat) :
    (c.write start n fun _ => 0).read start n = List.replicate n 0 := by
  refine List.eq_replicate_iff.2 ⟨by simp [Chunk.read], fun x hx => ?_⟩
  obtain ⟨i, hi, rfl⟩ := List.mem_map.1 hx
  simp [Chunk.write, List.mem_range.1 hi]

theorem keeps_writeBlock {b : Block} (apart : ∀ g ∈ gs, b.Apart g.block) (f : Nat → UInt8) :
    a.Keeps gs (a.writeBlock b f) := by
  intro g hg
  refine read_congr rfl ?_
  rw [getElem?_writeBlock]
  split
  · next same =>
    rw [Option.map_map]
    congr 1
    funext c
    exact Chunk.read_write_apart c f (apart g hg same)
  · rfl

structure Serves (a : Arena) (gs : List Grant) (n : Int) (r : Option Block × Arena) : Prop where
  served : r.1.isSome = true ↔ 0 < n
  generation : r.2.generation = a.generation
  block : ∀ b ∈ r.1, b.generation = a.generation
  packed : r.2.Packed (r.1.toList.map (⟨n, ·⟩) ++ gs)
  keeps : a.Keeps gs r.2

theorem Packed.alloc (h : a.Packed gs) (n : Int) : a.Serves gs n (a.alloc n) := by
  unfold Arena.alloc
  split
  · next none =>
    exact ⟨by simpa using none, rfl, by simp, h, fun _ _ => rfl⟩
  · next some =>
    obtain ⟨packed, generation, block, keeps⟩ := h.reserve (Int.not_le.1 some)
    exact ⟨by simpa using some, generation, by simpa using block, packed, keeps⟩

theorem Packed.calloc (h : a.Packed gs) (count size : Int) :
    a.Serves gs (count * size) (a.calloc count size) := by
  have plain := h.alloc (count * size)
  unfold Arena.calloc
  cases eq : a.alloc (count * size) with
  | mk b? a₁ =>
    rw [eq] at plain
    cases b? with
    | none => exact plain
    | some b =>
      have disjoint := List.pairwise_cons.1 plain.packed.disjoint
      refine { plain with packed := plain.packed.writeBlock b _, keeps := fun g hg => ?_ }
      have written (f : Nat → UInt8) : a₁.Keeps gs (a₁.writeBlock b f) :=
        keeps_writeBlock disjoint.1 f
      exact (written _ g hg).trans (plain.keeps g hg)

theorem read_calloc (h : a.Packed gs) {count size : Int} {b : Block}
    (served : (a.calloc count size).1 = some b) :
    (a.calloc count size).2.read b = .ok (List.replicate b.size 0) := by
  have plain := h.alloc (count * size)
  unfold Arena.calloc at served ⊢
  cases eq : a.alloc (count * size) with
  | mk b? a₁ =>
    rw [eq] at plain served
    cases b? with
    | none => cases served
    | some b' =>
      obtain rfl := Option.some.inj served
      obtain ⟨c, hc, -⟩ := plain.packed.placed ⟨count * size, b'⟩ (by simp)
      have valid : (a₁.writeBlock b' fun _ => 0).isValid b' = true := by
        have now : b'.generation = a₁.generation :=
          (plain.block b' rfl).trans plain.generation.symm
        exact beq_iff_eq.2 now
      have bytes : (a₁.writeBlock b' fun _ => 0).chunks[b'.chunk]? =
          some (c.write b'.offset b'.size fun _ => 0) := by
        rw [getElem?_writeBlock, if_pos rfl, hc]
        rfl
      rw [read_eq, bytes, check, if_pos valid]
      exact congrArg Except.ok (Chunk.read_write_zero c _ _)

inductive Action where
  | alloc (n : Int)
  | calloc (count size : Int)
  /-- What the holder of a block writes, as long as the block is valid. -/
  | fill (b : Block) (f : Nat → UInt8)
  | reset
  | resetAggressive
  | destroy

/-- An arena with the blocks it handed out, ever and since it last took its memory back. -/
structure History where
  arena : Arena
  granted : List Grant
  recent : List Grant

namespace History

def start (a : Arena) : History := ⟨a, [], []⟩

def grant (h : History) (n : Int) (r : Option Block × Arena) : History :=
  let new := r.1.toList.map (⟨n, ·⟩)
  ⟨r.2, new ++ h.granted, new ++ h.recent⟩

def renew (h : History) (a : Arena) : History := ⟨a, h.granted, []⟩

def step (h : History) : Action → History
  | .alloc n => h.grant n (h.arena.alloc n)
  | .calloc count size => h.grant (count * size) (h.arena.calloc count size)
  | .fill b f =>
    match h.arena.fill b f with
    | .ok a => { h with arena := a }
    | .error _ => h
  | .reset => h.renew h.arena.reset
  | .resetAggressive => h.renew h.arena.resetAggressive
  | .destroy => h.renew h.arena.destroy

def run (h : History) (actions : List Action) : History := actions.foldl step h

def valid (h : History) : List Grant := h.granted.filter fun g => h.arena.isValid g.block

structure Sound (h : History) : Prop where
  packed : h.arena.Packed h.recent
  past : ∀ g ∈ h.granted, g.block.generation ≤ h.arena.generation
  valid : h.valid = h.recent

variable {h : History}

theorem Sound.grant (s : h.Sound) {n : Int} {r : Option Block × Arena}
    (serves : h.arena.Serves h.recent n r) : (h.grant n r).Sound where
  packed := serves.packed
  past g hg := by
    have same := serves.generation
    rcases List.mem_append.1 hg with new | old
    · obtain ⟨b, hb, rfl⟩ := List.mem_map.1 new
      have now := serves.block b (Option.mem_toList.1 hb)
      exact Nat.le_of_eq (now.trans same.symm)
    · exact Nat.le_trans (s.past g old) (Nat.le_of_eq same.symm)
  valid := by
    have same := serves.generation
    have old : h.granted.filter (fun g => r.2.isValid g.block) = h.recent := by
      rw [← s.valid]
      unfold History.valid isValid
      rw [same]
    have new : (r.1.toList.map (Grant.mk n)).filter (fun g => r.2.isValid g.block) =
        r.1.toList.map (Grant.mk n) := by
      refine List.filter_eq_self.2 fun g hg => ?_
      obtain ⟨b, hb, rfl⟩ := List.mem_map.1 hg
      have now := serves.block b (Option.mem_toList.1 hb)
      simpa [isValid] using now.trans same.symm
    unfold History.valid History.grant
    rw [List.filter_append, new, old]

theorem Sound.renew (s : h.Sound) {a : Arena} (next : a.generation = h.arena.generation + 1)
    (empty : a.Packed []) : (h.renew a).Sound where
  packed := empty
  past g hg := Nat.le_trans (s.past g hg) (next ▸ Nat.le_succ _)
  valid := by
    refine List.filter_eq_nil_iff.2 fun g hg => ?_
    have before := s.past g hg
    have later : g.block.generation ≠ a.generation := by omega
    simpa [History.renew, isValid] using later

theorem packed_rewound (cs : List Chunk) {a : Arena} (rewound : a.chunks = cs.map rewind) :
    a.Packed [] := by
  refine ⟨?_, by simp, by simp, by simp, .nil, ?_⟩
  · intro c hc
    rw [rewound] at hc
    obtain ⟨d, -, rfl⟩ := List.mem_map.1 hc
    exact ⟨Nat.zero_le _, 0, rfl⟩
  · unfold used
    rw [rewound]
    clear rewound
    induction cs with
    | nil => rfl
    | cons c cs ih => simpa [rewind] using ih

theorem Sound.step (s : h.Sound) (action : Action) : (h.step action).Sound := by
  cases action with
  | alloc n => exact s.grant (s.packed.alloc n)
  | calloc count size => exact s.grant (s.packed.calloc count size)
  | fill b f =>
    change Sound (match h.arena.fill b f with
      | .ok a => { h with arena := a }
      | .error _ => h)
    unfold Arena.fill
    cases h.arena.check b with
    | error e => exact s
    | ok u => exact ⟨s.packed.writeBlock b f, s.past, s.valid⟩
  | reset => exact s.renew rfl (packed_rewound _ rfl)
  | resetAggressive => exact s.renew rfl (packed_rewound _ rfl)
  | destroy => exact s.renew rfl (packed_rewound [] rfl)

theorem Sound.run (s : h.Sound) (actions : List Action) : (h.run actions).Sound := by
  induction actions generalizing h with
  | nil => exact s
  | cons action actions ih => exact ih (s.step action)

theorem sound_start (n : Nat) : (start (.ofChunkSize n)).Sound where
  packed := packed_rewound [.fresh (align n)] rfl
  past g hg := by cases hg
  valid := rfl

/-- Whatever was done with it, the valid blocks of an arena are those handed out since it last took
its memory back. They are laid out side by side and fill what is in use. A request leaves their
bytes alone, and one for zeros gives zeros. -/
theorem laid_run {n : Int} (positive : 0 < n) :
    ∃ a, ofSize? n = .ok a ∧ ∀ actions,
      let h := (start a).run actions
      h.valid = h.recent ∧ h.arena.Laid h.recent ∧
        (∀ m, ((h.arena.alloc m).1.isSome = true ↔ 0 < m) ∧
          h.arena.Keeps h.recent (h.arena.alloc m).2) ∧
        ∀ count size, ((h.arena.calloc count size).1.isSome = true ↔ 0 < count * size) ∧
          h.arena.Keeps h.recent (h.arena.calloc count size).2 ∧
          ∀ b ∈ (h.arena.calloc count size).1,
            (h.arena.calloc count size).2.read b = .ok (List.replicate b.size 0) := by
  refine ⟨.ofChunkSize n.toNat, if_neg (Int.not_le.2 positive), fun actions => ?_⟩
  have s := (sound_start n.toNat).run actions
  refine ⟨s.valid, s.packed.laid, fun m => ?_, fun count size => ?_⟩
  · have serves := s.packed.alloc m
    exact ⟨serves.served, serves.keeps⟩
  · have serves := s.packed.calloc count size
    exact ⟨serves.served, serves.keeps, fun b hb => read_calloc s.packed hb⟩

theorem laid_run_reused :
    let actions := [.alloc 10, .fill ⟨0, 0, 16, 0⟩ fun _ => 7, .reset, .calloc 3 4, .alloc 10,
      .alloc 8]
    (0 : Int) < 20 ∧ ∃ a, ofSize? 20 = .ok a ∧
      let h := (start a).run actions
      h.valid = h.recent ∧ h.arena.Laid h.recent ∧
        h.recent.map Grant.block = [⟨1, 16, 8, 1⟩, ⟨1, 0, 16, 1⟩, ⟨0, 0, 16, 1⟩] ∧
        (h.arena.used, h.arena.allocated) = (40, 56) ∧
        h.arena.read ⟨0, 0, 16, 1⟩ = .ok (List.replicate 16 0) := by
  refine ⟨by decide, .ofChunkSize 20, rfl, ?_⟩
  obtain ⟨a, made, laid⟩ := laid_run (n := 20) (by decide)
  obtain rfl : .ofChunkSize 20 = a := Except.ok.inj made
  obtain ⟨valid, sound, -⟩ := laid [.alloc 10, .fill ⟨0, 0, 16, 0⟩ fun _ => 7, .reset,
    .calloc 3 4, .alloc 10, .alloc 8]
  exact ⟨valid, sound, by decide, by decide, by rfl⟩

end History

end Arena

end DerivativeEngine
