import Mathlib.Algebra.Ring.Int.Defs
import DerivativeEngine.Proofs.Expr.Bindings

/-! What bindings hold after any writes. However they were built, a name has the value that was
written last under a name with the same canonical form. With a map, the canonical names stand for
the positions in the row, in the order in which they were first written; without one, a letter has
the value zero until it is written, and a write under any other name is refused. Bindings made from
two lists are made from the pairs with each spelling once, at its first place: this is where they
begin, and among names that agree it may not be the value that was listed last. -/

namespace DerivativeEngine

section LastValues

variable {κ β : Type} [BEq κ] [LawfulBEq κ]

theorem keys_lastValues_eq (pairs : List (κ × β)) :
    (lastValues pairs).map Prod.fst = (pairs.map Prod.fst).eraseDups := by
  induction pairs using List.reverseRecOn with
  | nil => rfl
  | append_singleton pairs p ih =>
    rw [lastValues_concat, List.map_append, List.eraseDups_append, ← ih]
    by_cases old : p.1 ∈ (lastValues pairs).map Prod.fst
    · have known : p.1 ∈ pairs.map Prod.fst := ((keys_lastValues pairs).2 p.1).1 old
      rw [keys_assign_of_mem old]
      simp [List.removeAll, known]
    · have fresh : p.1 ∉ pairs.map Prod.fst := fun known =>
        old (((keys_lastValues pairs).2 p.1).2 known)
      rw [assign_of_fresh old]
      simp [List.removeAll, fresh, List.eraseDups_cons]

theorem lookup_lastValues (pairs : List (κ × β)) (k : κ) :
    (lastValues pairs).lookup k = pairs.reverse.lookup k := by
  induction pairs using List.reverseRecOn with
  | nil => rfl
  | append_singleton pairs p ih =>
    rw [lastValues_concat, Bindings.lookup_assign, ih, List.reverse_concat, List.lookup_cons]
    cases k == p.1 <;> rfl

theorem lookup_eq_getElem? {pairs : List (κ × β)} (once : (pairs.map Prod.fst).Nodup) {i : Nat}
    {k : κ} (h : (pairs.map Prod.fst)[i]? = some k) :
    pairs.lookup k = (pairs.map Prod.snd)[i]? := by
  induction pairs generalizing i with
  | nil => simp at h
  | cons p pairs ih =>
    obtain ⟨apart, once⟩ := List.nodup_cons.1 once
    cases i with
    | zero =>
      obtain ⟨k', v⟩ := p
      obtain rfl : k' = k := by simpa using h
      rw [List.lookup_cons_self, List.map_cons, List.getElem?_cons_zero]
    | succ i =>
      rw [List.map_cons, List.getElem?_cons_succ] at h
      have other : (k == p.1) = false :=
        beq_false_of_ne fun same => apart (same ▸ List.mem_of_getElem? h)
      rw [List.lookup_cons, other, List.map_cons, List.getElem?_cons_succ]
      exact ih once h

theorem values_assign {pairs : List (κ × β)} (once : (pairs.map Prod.fst).Nodup) {i : Nat} {k : κ}
    (v : β) (h : (pairs.map Prod.fst)[i]? = some k) :
    (assign k v pairs).map Prod.snd = (pairs.map Prod.snd).set i v := by
  induction pairs generalizing i with
  | nil => simp at h
  | cons p pairs ih =>
    obtain ⟨apart, once⟩ := List.nodup_cons.1 once
    cases i with
    | zero =>
      obtain rfl : p.1 = k := by simpa using h
      simp [assign]
    | succ i =>
      rw [List.map_cons, List.getElem?_cons_succ] at h
      have other : (p.1 == k) = false :=
        beq_false_of_ne fun same => apart (same ▸ List.mem_of_getElem? h)
      rw [assign, other, List.map_cons, List.set_cons_succ]
      exact congrArg _ (ih once h)

end LastValues

namespace Bindings

variable {α : Type}

/-- The value that was written last under a name that agrees with `x` in canonical form. -/
def lastWrite? (ws : List (String × α)) (x : String) : Option α :=
  (ws.reverse.find? fun p => canonicalName p.1 == canonicalName x).map Prod.snd

/-- The canonical names that were written, in the order of their first writing. -/
def written (ws : List (String × α)) : List String :=
  (ws.map fun p => canonicalName p.1).eraseDups

theorem lastWrite?_concat (ws : List (String × α)) (p : String × α) (x : String) :
    lastWrite? (ws ++ [p]) x =
      if canonicalName p.1 = canonicalName x then some p.2 else lastWrite? ws x := by
  unfold lastWrite?
  rw [List.reverse_concat, List.find?_cons]
  by_cases same : canonicalName p.1 = canonicalName x
  · rw [beq_iff_eq.2 same, if_pos same]
    rfl
  · rw [beq_false_of_ne same, if_neg same]

theorem lastWrite?_of_ne {ws : List (String × α)} {x y : String} {v : α}
    (other : canonicalName y ≠ canonicalName x) :
    lastWrite? (ws ++ [(x, v)]) y = lastWrite? ws y := by
  rw [lastWrite?_concat, if_neg (Ne.symm other)]

theorem lastWrite?_append (ws more : List (String × α)) (x : String) :
    lastWrite? (ws ++ more) x = (lastWrite? more x).or (lastWrite? ws x) := by
  unfold lastWrite?
  rw [List.reverse_append, List.find?_append, Option.map_or]

theorem lastWrite?_eq_lookup {ws : List (String × α)} {x y : String}
    (agree : canonicalName y = canonicalName x)
    (alike : ∀ z ∈ ws.map Prod.fst, canonicalName z = canonicalName x → z = y) :
    lastWrite? ws x = ws.reverse.lookup y := by
  induction ws using List.reverseRecOn with
  | nil => rfl
  | append_singleton ws p ih =>
    -- the last write comes first in the reversed list
    rw [lastWrite?_concat, List.reverse_concat, List.lookup_cons]
    by_cases same : y = p.1
    · rw [if_pos (same ▸ agree), same, beq_self_eq_true]
    · have other : canonicalName p.1 ≠ canonicalName x := fun h =>
        same (alike p.1 (by simp) h).symm
      rw [if_neg other, beq_false_of_ne same]
      exact ih fun z mem => alike z (by simp [mem])

theorem lastWrite?_lastValues {pairs : List (String × α)}
    (alike : ∀ x ∈ pairs.map Prod.fst, ∀ y ∈ pairs.map Prod.fst,
      canonicalName x = canonicalName y → x = y) (x : String) :
    lastWrite? (lastValues pairs) x = lastWrite? pairs x := by
  obtain ⟨once, same⟩ := keys_lastValues pairs
  -- both sides are lookups of one spelling, `y`: the one that stands for `x` if there is any
  have agreed : ∀ y, canonicalName y = canonicalName x →
      (∀ z ∈ pairs.map Prod.fst, canonicalName z = canonicalName x → z = y) →
      lastWrite? (lastValues pairs) x = lastWrite? pairs x := by
    intro y agree spelled
    have spelled' : ∀ z ∈ (lastValues pairs).map Prod.fst,
        canonicalName z = canonicalName x → z = y := fun z mem => spelled z ((same z).1 mem)
    rw [lastWrite?_eq_lookup agree spelled, lastWrite?_eq_lookup agree spelled',
      ← lookup_lastValues pairs, ← lookup_lastValues (lastValues pairs), lastValues_of_nodup once]
  by_cases found : ∃ y ∈ pairs.map Prod.fst, canonicalName y = canonicalName x
  · obtain ⟨y, mem, agree⟩ := found
    exact agreed y agree fun z mem' h => alike z mem' y mem (h.trans agree.symm)
  · exact agreed x rfl fun z mem h => absurd ⟨z, mem, h⟩ found

def lastWrites (ws : List (String × α)) : List (String × α) :=
  lastValues (ws.map fun p => (canonicalName p.1, p.2))

theorem lastWrites_concat (ws : List (String × α)) (p : String × α) :
    lastWrites (ws ++ [p]) = assign (canonicalName p.1) p.2 (lastWrites ws) := by
  rw [lastWrites, List.map_append]
  exact lastValues_concat _ _

theorem keys_lastWrites (ws : List (String × α)) : (lastWrites ws).map Prod.fst = written ws := by
  rw [lastWrites, keys_lastValues_eq, List.map_map]
  rfl

theorem nodup_written (ws : List (String × α)) : (written ws).Nodup := by
  rw [← keys_lastWrites]
  exact (keys_lastValues _).1

theorem written_concat (ws : List (String × α)) (p : String × α) :
    written (ws ++ [p]) = if canonicalName p.1 ∈ written ws then written ws
      else written ws ++ [canonicalName p.1] := by
  rw [← keys_lastWrites, lastWrites_concat, ← keys_lastWrites]
  split
  · next known => exact keys_assign_of_mem known
  · next fresh => rw [assign_of_fresh fresh, List.map_append]; rfl

theorem written_append {ws ws' : List (String × α)} (same : written ws = written ws')
    (more : List (String × α)) : written (ws ++ more) = written (ws' ++ more) := by
  induction more using List.reverseRecOn with
  | nil => simpa using same
  | append_singleton more p ih =>
    rw [← List.append_assoc, ← List.append_assoc, written_concat, written_concat, ih]

theorem written_of_keys {ws ws' : List (String × α)}
    (keys : ws.map Prod.fst = ws'.map Prod.fst) : written ws = written ws' := by
  have canonical := congrArg (List.map canonicalName) keys
  rw [List.map_map, List.map_map] at canonical
  exact congrArg List.eraseDups canonical

theorem written_lastValues (pairs : List (String × α)) :
    written (lastValues pairs) = written pairs := by
  induction pairs using List.reverseRecOn with
  | nil => rfl
  | append_singleton pairs p ih =>
    rw [lastValues_concat]
    by_cases old : p.1 ∈ (lastValues pairs).map Prod.fst
    · have known : canonicalName p.1 ∈ written pairs := by
        obtain ⟨q, mem, own⟩ := List.mem_map.1 (((keys_lastValues pairs).2 p.1).1 old)
        exact List.mem_eraseDups.2 (List.mem_map.2 ⟨q, mem, congrArg canonicalName own⟩)
      rw [written_concat, if_pos known, ← ih]
      exact written_of_keys (keys_assign_of_mem old)
    · rw [assign_of_fresh old]
      exact written_append ih [p]

theorem lookup_lastWrites (ws : List (String × α)) (x : String) :
    (lastWrites ws).lookup (canonicalName x) = lastWrite? ws x := by
  induction ws using List.reverseRecOn with
  | nil => rfl
  | append_singleton ws p ih =>
    rw [lastWrites_concat, lookup_assign, ih, lastWrite?_concat]
    exact if_congr (beq_iff_eq.trans eq_comm) rfl rfl

def ofWrites (ws : List (String × α)) : Bindings α :=
  ⟨(lastWrites ws).map Prod.snd, some (places (written ws))⟩

theorem ofWrites_names (ws : List (String × α)) :
    (ofWrites ws).names = some (places (written ws)) := rfl

theorem length_values_ofWrites (ws : List (String × α)) :
    (ofWrites ws).values.length = (written ws).length := by
  rw [← keys_lastWrites, ofWrites, List.length_map, List.length_map]

theorem position?_ofWrites {ws : List (String × α)} {k : String} {i : Nat} :
    (ofWrites ws).position? k = some i ↔ (written ws)[i]? = some k := by
  have length := length_values_ofWrites ws
  constructor
  · intro h
    by_cases known : k ∈ written ws
    · obtain ⟨j, hj⟩ := List.mem_iff_getElem?.1 known
      have within : j < (ofWrites ws).values.length :=
        length ▸ (List.getElem?_eq_some_iff.1 hj).1
      have here : (ofWrites ws).position? k = some j := by
        simp [position?, ofWrites_names, lookup_places (nodup_written ws) hj, within]
      obtain rfl := Option.some.inj (here.symm.trans h)
      exact hj
    · simp [position?, ofWrites_names, lookup_places_eq_none known] at h
  · intro h
    have within : i < (ofWrites ws).values.length :=
      length ▸ (List.getElem?_eq_some_iff.1 h).1
    simp [position?, ofWrites_names, lookup_places (nodup_written ws) h, within]

theorem position?_ofWrites_eq_none {ws : List (String × α)} {k : String} :
    (ofWrites ws).position? k = none ↔ k ∉ written ws := by
  rw [Option.eq_none_iff_forall_ne_some, List.mem_iff_getElem?, not_exists]
  exact forall_congr' fun i => not_congr position?_ofWrites

theorem insert_ofWrites (ws : List (String × α)) (p : String × α) :
    (ofWrites ws).insert p = ofWrites (ws ++ [p]) := by
  cases place : (ofWrites ws).position? (canonicalName p.1) with
  | some i =>
    have here := position?_ofWrites.1 place
    have known : canonicalName p.1 ∈ written ws := List.mem_of_getElem? here
    rw [← keys_lastWrites] at here
    have once : ((lastWrites ws).map Prod.fst).Nodup := keys_lastWrites ws ▸ nodup_written ws
    rw [insert, place]
    simp only [ofWrites, lastWrites_concat, values_assign once p.2 here, written_concat, known,
      if_true]
  | none =>
    have fresh := position?_ofWrites_eq_none.1 place
    have unplaced : canonicalName p.1 ∉ (places (written ws)).map Prod.fst := by rwa [keys_places]
    have unwritten : canonicalName p.1 ∉ (lastWrites ws).map Prod.fst := by rwa [keys_lastWrites]
    rw [insert, place]
    simp only [length_values_ofWrites]
    simp only [ofWrites, lastWrites_concat, assign_of_fresh unwritten, written_concat, fresh,
      if_false, List.map_append, List.map_cons, List.map_nil, places_concat, Option.map_some,
      assign_of_fresh unplaced]

theorem ofPairs_eq_ofWrites (pairs : List (String × α)) : ofPairs pairs = ofWrites pairs := by
  induction pairs using List.reverseRecOn with
  | nil => rfl
  | append_singleton pairs p ih =>
    rw [ofPairs, List.foldl_append, ← ofPairs, ih]
    exact insert_ofWrites pairs p

theorem set_ofWrites (ws : List (String × α)) (x : String) (v : α) :
    (ofWrites ws).set x v = .ok (ofWrites (ws ++ [(x, v)])) := by
  rw [← insert_ofWrites, set, insert, index?]
  cases (ofWrites ws).position? (canonicalName x) <;> rfl

theorem lookup?_ofWrites (ws : List (String × α)) (x : String) :
    (ofWrites ws).lookup? x = lastWrite? ws x := by
  rw [lookup?, index?, ← lookup_lastWrites]
  cases place : (ofWrites ws).position? (canonicalName x) with
  | some i =>
    have here := position?_ofWrites.1 place
    rw [← keys_lastWrites] at here
    have once : ((lastWrites ws).map Prod.fst).Nodup := by
      rw [keys_lastWrites]
      exact nodup_written ws
    rw [lookup_eq_getElem? once here]
    rfl
  | none =>
    have fresh := position?_ofWrites_eq_none.1 place
    rw [← keys_lastWrites] at fresh
    symm
    rw [Option.bind_none, List.lookup_eq_none_iff]
    intro p mem
    exact bne_iff_ne.2 fun same => fresh (same ▸ List.mem_map_of_mem mem)

theorem letterIndex?_lt {x : String} {i : Nat} (h : letterIndex? x = some i) : i < letterSlots := by
  unfold letterIndex? at h
  split at h
  · next c _ =>
    rw [Option.ite_none_right_eq_some] at h
    obtain ⟨between, here⟩ := h
    have upper : c.toNat ≤ 90 := by
      simp only [Bool.and_eq_true, decide_eq_true_eq] at between
      exact between.2
    have := Option.some.inj here
    have : ('A' : Char).toNat = 65 := rfl
    unfold letterSlots
    omega
  · cases h

theorem letterIndex?_inj {x y : String} {i : Nat} (hx : letterIndex? x = some i)
    (hy : letterIndex? y = some i) : x = y := by
  have letter : ∀ z, letterIndex? z = some i →
      ∃ c : Char, z.toList = [c] ∧ c.toNat = i + ('A' : Char).toNat := by
    intro z h
    unfold letterIndex? at h
    split at h
    · next c one =>
      rw [Option.ite_none_right_eq_some] at h
      obtain ⟨between, here⟩ := h
      have lower : ('A' : Char).toNat ≤ c.toNat := by
        simp only [Bool.and_eq_true, decide_eq_true_eq] at between
        exact between.1
      have := Option.some.inj here
      exact ⟨c, one, by omega⟩
    · cases h
  obtain ⟨c, one, code⟩ := letter x hx
  obtain ⟨d, other, code'⟩ := letter y hy
  obtain rfl : c = d := Char.toNat_inj.1 (code.trans code'.symm)
  exact String.toList_inj.1 (one.trans other.symm)

variable [Zero α]

structure OfLetters (b : Bindings α) (ws : List (String × α)) : Prop where
  unnamed : b.names = none
  length : b.values.length = letterSlots
  slot : ∀ x i, letterIndex? (canonicalName x) = some i →
    b.values[i]? = some ((lastWrite? ws x).getD 0)

theorem ofLetters_letters : OfLetters (letters : Bindings α) [] := by
  refine ⟨rfl, List.length_replicate, fun x i h => ?_⟩
  exact List.getElem?_replicate_of_lt (letterIndex?_lt h)

namespace OfLetters

variable {b : Bindings α} {ws : List (String × α)}

theorem index? (held : b.OfLetters ws) (x : String) :
    b.index? x = letterIndex? (canonicalName x) := by
  rw [Bindings.index?, position?, held.unnamed]
  cases place : letterIndex? (canonicalName x) with
  | none => simp
  | some i => simp [held.length, letterIndex?_lt place]

theorem lookup? (held : b.OfLetters ws) (x : String) :
    b.lookup? x = (letterIndex? (canonicalName x)).map fun _ => (lastWrite? ws x).getD 0 := by
  rw [Bindings.lookup?, held.index?]
  cases place : letterIndex? (canonicalName x) with
  | none => rfl
  | some i => exact held.slot x i place

theorem refused (held : b.OfLetters ws) {x : String} (v : α)
    (slotless : letterIndex? (canonicalName x) = none) :
    b.set x v = .error (.noSlot x) ∧ b.OfLetters (ws ++ [(x, v)]) := by
  refine ⟨?_, held.unnamed, held.length, fun y i slot => ?_⟩
  · rw [set, held.index?, slotless, held.unnamed]
  · have other : canonicalName y ≠ canonicalName x := fun same => by
      rw [same, slotless] at slot
      cases slot
    rw [lastWrite?_of_ne other, held.slot y i slot]

theorem accepted (held : b.OfLetters ws) {x : String} {i : Nat} (v : α)
    (here : letterIndex? (canonicalName x) = some i) :
    ∃ b', b.set x v = .ok b' ∧ b'.OfLetters (ws ++ [(x, v)]) := by
  refine ⟨{ b with values := b.values.set i v }, ?_, held.unnamed, ?_, fun y j slot => ?_⟩
  · rw [set, held.index?, here]
  · rw [List.length_set, held.length]
  · have within : i < b.values.length := held.length ▸ letterIndex?_lt here
    by_cases same : j = i
    · subst same
      have agree := letterIndex?_inj here slot
      simp [lastWrite?_concat, agree, within]
    · have other : canonicalName y ≠ canonicalName x := fun agree => by
        rw [agree, here] at slot
        exact same (Option.some.inj slot).symm
      rw [lastWrite?_of_ne other, List.getElem?_set_ne (Ne.symm same), held.slot y j slot]

end OfLetters

theorem ofLetters_of_ok {pairs : List (String × α)} {b : Bindings α}
    (built : ofLetters pairs = .ok b) : b.OfLetters pairs := by
  induction pairs using List.reverseRecOn generalizing b with
  | nil =>
    obtain rfl : letters = b := by simpa [ofLetters, pure, Except.pure] using built
    exact ofLetters_letters
  | append_singleton pairs p ih =>
    rw [ofLetters, List.foldlM_append, ← ofLetters] at built
    cases before : ofLetters pairs with
    | error e => simp [before, bind, Except.bind] at built
    | ok c =>
      have last : c.set p.1 p.2 = .ok b := by
        simp only [before, List.foldlM_cons, List.foldlM_nil, bind_pure] at built
        exact built
      cases place : letterIndex? (canonicalName p.1) with
      | none => simp [((ih before).refused p.2 place).1] at last
      | some i =>
        obtain ⟨b', accepted, held⟩ := (ih before).accepted p.2 place
        obtain rfl := Except.ok.inj (accepted.symm.trans last)
        exact held

def write (b : Bindings α) (p : String × α) : Bindings α :=
  match b.set p.1 p.2 with
  | .ok b' => b'
  | .error _ => b

/-- The bindings hold these writes, in either layout. -/
def Holds (b : Bindings α) (hasMap : Bool) (ws : List (String × α)) : Prop :=
  if hasMap then b = ofWrites ws else b.OfLetters ws

namespace Holds

variable {b : Bindings α} {hasMap : Bool} {ws : List (String × α)}

theorem isSome_names (held : b.Holds hasMap ws) : b.names.isSome = hasMap := by
  cases hasMap with
  | true => rw [show b = ofWrites ws from held]; rfl
  | false => rw [OfLetters.unnamed held]; rfl

theorem lookup? (held : b.Holds hasMap ws) (x : String) :
    b.lookup? x = if hasMap then lastWrite? ws x
      else (letterIndex? (canonicalName x)).map fun _ => (lastWrite? ws x).getD 0 := by
  cases hasMap with
  | true => rw [show b = ofWrites ws from held, lookup?_ofWrites]; rfl
  | false => exact OfLetters.lookup? held x

theorem set (held : b.Holds hasMap ws) (x : String) (v : α) :
    b.set x v = .error (.noSlot x) ∧ hasMap = false ∧ letterIndex? (canonicalName x) = none ∧
        b.Holds hasMap (ws ++ [(x, v)]) ∨
      ∃ b', b.set x v = .ok b' ∧ b'.Holds hasMap (ws ++ [(x, v)]) ∧
        (hasMap = true ∨ (letterIndex? (canonicalName x)).isSome) := by
  cases hasMap with
  | true =>
    refine .inr ⟨_, ?_, rfl, .inl rfl⟩
    rw [show b = ofWrites ws from held, set_ofWrites]
  | false =>
    cases place : letterIndex? (canonicalName x) with
    | none =>
      obtain ⟨refused, still⟩ := OfLetters.refused held v place
      exact .inl ⟨refused, rfl, rfl, still⟩
    | some i =>
      obtain ⟨b', accepted, still⟩ := OfLetters.accepted held v place
      exact .inr ⟨b', accepted, still, .inr rfl⟩

theorem write (held : b.Holds hasMap ws) (p : String × α) :
    (b.write p).Holds hasMap (ws ++ [p]) := by
  rw [Bindings.write]
  rcases held.set p.1 p.2 with ⟨refused, -, -, still⟩ | ⟨b', accepted, still, -⟩
  · rw [refused]
    exact still
  · rw [accepted]
    exact still

theorem foldl_write (held : b.Holds hasMap ws) (more : List (String × α)) :
    (more.foldl Bindings.write b).Holds hasMap (ws ++ more) := by
  induction more generalizing b ws with
  | nil => simpa using held
  | cons p more ih => simpa using ih (held.write p)

end Holds

end Bindings

/-- The three ways to make bindings. -/
inductive Origin (α : Type) where
  | mapping (pairs : List (String × α))
  | lists (names : List String) (values : List α)
  | letters (pairs : List (String × α))

namespace Origin

open Bindings

variable {α : Type}

def build [Zero α] : Origin α → Except BindingError (Bindings α)
  | mapping pairs => .ok (ofPairs pairs)
  | lists names values => ofNames names values
  | letters pairs => ofLetters pairs

def hasMap : Origin α → Bool
  | letters _ => false
  | _ => true

def given : Origin α → List (String × α)
  | mapping pairs => pairs
  | lists names values => names.zip values
  | letters pairs => pairs

/-- The writes that make the bindings. Of two lists each spelling is written once, at its first
place and with its last value. -/
def entered : Origin α → List (String × α)
  | mapping pairs => pairs
  | lists names values => lastValues (names.zip values)
  | letters pairs => pairs

/-- No spelling is given twice in a list of names, or each canonical name has one spelling there. -/
def Unmixed : Origin α → Prop
  | lists names _ => names.Nodup ∨
      ∀ x ∈ names, ∀ y ∈ names, canonicalName x = canonicalName y → x = y
  | _ => True

theorem holds_of_build [Zero α] {origin : Origin α} {b : Bindings α}
    (built : origin.build = .ok b) : b.Holds origin.hasMap origin.entered := by
  cases origin with
  | mapping pairs =>
    obtain rfl : ofPairs pairs = b := Except.ok.inj built
    exact ofPairs_eq_ofWrites pairs
  | lists names values =>
    rw [build, ofNames] at built
    split at built
    · obtain rfl := Except.ok.inj built
      exact ofPairs_eq_ofWrites _
    · cases built
  | letters pairs => exact ofLetters_of_ok built

theorem written_entered (origin : Origin α) : written origin.entered = written origin.given := by
  cases origin with
  | lists names values => exact written_lastValues _
  | _ => rfl

theorem lastWrite?_entered [Zero α] {origin : Origin α} {b : Bindings α}
    (built : origin.build = .ok b) (unmixed : origin.Unmixed) (x : String) :
    lastWrite? origin.entered x = lastWrite? origin.given x := by
  cases origin with
  | lists names values =>
    have length : names.length = values.length := by
      rw [build, ofNames] at built
      split at built
      · next same => exact beq_iff_eq.1 same
      · cases built
    have keys : (names.zip values).map Prod.fst = names := List.map_fst_zip (Nat.le_of_eq length)
    rcases unmixed with once | alike
    · rw [entered, lastValues_of_nodup (keys.symm ▸ once), given]
    · exact lastWrite?_lastValues (keys.symm ▸ alike) x
  | _ => rfl

/-- After any writes a name has the value written last under a name that agrees with it, a letter
zero before its first write; a write leaves the other names alone, and is refused just for want
of a letter slot, changing nothing. A map takes the written names one to one to the positions, in
the order of their first writing. The one thing in which the making of bindings departs from the
order given is a list that mixes spellings of one name and repeats one of them. -/
theorem lookup_foldl_write [Zero α] {origin : Origin α} {b : Bindings α}
    (built : origin.build = .ok b) (sets : List (String × α)) :
    let b' := sets.foldl write b
    let ws := origin.entered ++ sets
    let names := written (origin.given ++ sets)
    (∀ x, b'.lookup? x = if origin.hasMap then lastWrite? ws x
      else (letterIndex? (canonicalName x)).map fun _ => (lastWrite? ws x).getD 0) ∧
    (origin.Unmixed → ∀ x, lastWrite? ws x = lastWrite? (origin.given ++ sets) x) ∧
    (∀ x v b'', b'.set x v = .ok b'' → b''.lookup? x = some v ∧
      ∀ y, canonicalName y ≠ canonicalName x → b''.lookup? y = b'.lookup? y) ∧
    (∀ x v e, b'.set x v = .error e ↔ e = .noSlot x ∧ origin.hasMap = false ∧
      letterIndex? (canonicalName x) = none) ∧
    (∀ x v e, b'.set x v = .error e → b'.write (x, v) = b') ∧
    b'.names.isSome = origin.hasMap ∧
    (∀ map, b'.names = some map → map = places names ∧ names.Nodup ∧
      b'.values.length = names.length ∧
      ∀ x i, b'.index? x = some i ↔ names[i]? = some (canonicalName x)) := by
  intro b' ws names
  have held : b'.Holds origin.hasMap ws := (holds_of_build built).foldl_write sets
  refine ⟨held.lookup?, fun unmixed x => ?_, fun x v b'' ok => ?_, fun x v e => ?_,
    fun x v e refused => ?_, held.isSome_names, fun map named => ?_⟩
  · rw [lastWrite?_append, lastWrite?_append, lastWrite?_entered built unmixed]
  · rcases held.set x v with ⟨refused, -⟩ | ⟨c, accepted, still, slot⟩
    · rw [refused] at ok
      cases ok
    · obtain rfl := Except.ok.inj (accepted.symm.trans ok)
      refine ⟨?_, fun y other => ?_⟩
      · rw [still.lookup?, lastWrite?_concat, if_pos rfl]
        cases mapped : origin.hasMap with
        | true => rfl
        | false =>
          obtain ⟨i, here⟩ := Option.isSome_iff_exists.1 (slot.resolve_left (by simp [mapped]))
          simp [here]
      · rw [still.lookup?, held.lookup?, lastWrite?_of_ne other]
  · rcases held.set x v with ⟨refused, unmapped, slotless, -⟩ | ⟨c, accepted, -, slot⟩
    · rw [refused, Except.error.injEq, eq_comm]
      exact ⟨fun h => ⟨h, unmapped, slotless⟩, fun h => h.1⟩
    · rw [accepted]
      refine ⟨fun h => (by cases h), fun ⟨_, unmapped, slotless⟩ => ?_⟩
      simp [unmapped, slotless] at slot
  · rw [write, refused]
  · have mapped : origin.hasMap = true := by rw [← held.isSome_names, named]; rfl
    rw [mapped] at held
    have whole : b' = ofWrites ws := held
    have same : written ws = names := written_append origin.written_entered sets
    rw [whole, ofWrites_names, Option.some.injEq] at named
    refine ⟨by rw [← named, same], same ▸ nodup_written ws, ?_, fun x i => ?_⟩
    · rw [whole, length_values_ofWrites, same]
    · rw [whole, index?, position?_ofWrites, same]

theorem lookup_foldl_write_time :
    (lists ["rate", "Time"] [2, 3] : Origin Int).build =
      .ok (ofPairs (lastValues [("rate", 2), ("Time", 3)])) ∧
    ([("TIME", 5)].foldl write (ofPairs (lastValues [("rate", (2 : Int)), ("Time", 3)]))).lookup?
      "time" = some 5 := by
  have built : (lists ["rate", "Time"] [2, 3] : Origin Int).build =
      .ok (ofPairs (lastValues [("rate", 2), ("Time", 3)])) := rfl
  refine ⟨built, ?_⟩
  rw [(lookup_foldl_write built [("TIME", 5)]).1]
  decide +kernel

/-- The last `x` of the list is given after `X` and goes in before it. -/
theorem lookup_mixed_lists : ∃ b, (lists ["x", "X", "x"] [1, 2, 3] : Origin Int).build = .ok b ∧
    lastWrite? (lists ["x", "X", "x"] [1, 2, 3] : Origin Int).given "x" = some 3 ∧
    b.lookup? "x" = some 2 :=
  ⟨_, rfl, by decide +kernel, by decide +kernel⟩

end Origin

end DerivativeEngine
