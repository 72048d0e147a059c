import Mathlib.Data.List.Induction
import Mathlib.Data.List.Nodup
import Mathlib.Data.List.Perm.Subperm
import DerivativeEngine.Expr.Evaluation
import DerivativeEngine.Proofs.Text.Uppercase

/-! What bindings look up. A name is bound exactly where its canonical form has a position, and the
positions lie inside the row. -/

namespace DerivativeEngine.Bindings

variable {α : Type}

theorem position?_lt {b : Bindings α} {x : String} {i : Nat} (h : b.position? x = some i) :
    i < b.values.length := by
  unfold position? at h
  split at h
  · split at h
    · simp only [Option.ite_none_right_eq_some, Option.some.injEq, Bool.and_eq_true,
        decide_eq_true_eq] at h
      omega
    · simp at h
  · split at h
    · simp only [Option.ite_none_right_eq_some, Option.some.injEq] at h
      omega
    · simp at h

theorem lookup_assign {κ β : Type} [BEq κ] [LawfulBEq κ] (k k' : κ) (v : β) :
    ∀ pairs : List (κ × β), (assign k v pairs).lookup k' =
      if k' == k then some v else pairs.lookup k'
  | [] => by cases same : k' == k <;> simp [assign, List.lookup_cons, same]
  | (k₁, v₁) :: pairs => by
    by_cases here : k₁ = k
    · subst here
      cases same : k' == k₁ <;> simp [assign, List.lookup_cons, same]
    · cases same : k' == k₁ with
      | true =>
        have other : k' ≠ k := by rwa [beq_iff_eq.1 same]
        simp [assign, here, other, List.lookup_cons, same]
      | false => simp [assign, here, List.lookup_cons, same, lookup_assign k k' v pairs]

theorem isSome_lookup? (b : Bindings α) (name : String) :
    (b.lookup? name).isSome = b.contains name := by
  unfold lookup? contains index?
  cases position : b.position? (canonicalName name) with
  | none => rfl
  | some i => simp [position?_lt position]

variable [Scalar α]

theorem valueOf_eq (b : Bindings α) {y : String} (canonical : canonicalName y = y) :
    Expr.valueOf (some b) y = ((b.position? y).bind fun i => b.values[i]?).getD 0 := by
  simp [Expr.valueOf, lookup?, index?, canonical]

variable {x : String} (canonical : canonicalName x = x) (v : α)
include canonical

theorem valueOf_named : Expr.valueOf (some ⟨[v], some [(x, 0)]⟩) x = v := by
  simp [valueOf_eq _ canonical, position?]

theorem valueOf_single : Expr.valueOf (some (single x v)) x = v := by
  have named : single x v = ⟨[v], some [(x, 0)]⟩ := by
    simp [single, ofPairs, insert, empty, position?, canonical, assign]
  rw [named, valueOf_named canonical]

end DerivativeEngine.Bindings

namespace DerivativeEngine

section LastValues

variable {κ β : Type} [BEq κ] [LawfulBEq κ]

theorem assign_of_fresh {k : κ} {v : β} {pairs : List (κ × β)} (fresh : k ∉ pairs.map Prod.fst) :
    assign k v pairs = pairs ++ [(k, v)] := by
  induction pairs with
  | nil => rfl
  | cons p pairs ih =>
    rw [List.map_cons, List.mem_cons, not_or] at fresh
    have other : (p.1 == k) = false := beq_false_of_ne (Ne.symm fresh.1)
    rw [assign, other, ih fresh.2]
    rfl

theorem keys_assign_of_mem {k : κ} {v : β} {pairs : List (κ × β)} (h : k ∈ pairs.map Prod.fst) :
    (assign k v pairs).map Prod.fst = pairs.map Prod.fst := by
  induction pairs with
  | nil => cases h
  | cons p pairs ih =>
    rw [assign]
    split
    · rfl
    · next other =>
      have later := (List.mem_cons.1 h).resolve_left fun same => other (beq_iff_eq.2 same.symm)
      rw [List.map_cons, List.map_cons, ih later]

omit [LawfulBEq κ] in
theorem lastValues_concat (pairs : List (κ × β)) (p : κ × β) :
    lastValues (pairs ++ [p]) = assign p.1 p.2 (lastValues pairs) := by
  rw [lastValues, List.foldl_append]
  rfl

theorem keys_lastValues (pairs : List (κ × β)) :
    ((lastValues pairs).map Prod.fst).Nodup ∧
      ∀ k, k ∈ (lastValues pairs).map Prod.fst ↔ k ∈ pairs.map Prod.fst := by
  induction pairs using List.reverseRecOn with
  | nil => exact ⟨.nil, fun _ => .rfl⟩
  | append_singleton pairs p ih =>
    obtain ⟨once, same⟩ := ih
    rw [lastValues_concat]
    by_cases h : p.1 ∈ (lastValues pairs).map Prod.fst
    · rw [keys_assign_of_mem h]
      refine ⟨once, fun k => ?_⟩
      rw [same, List.map_append, List.mem_append, List.map_singleton, List.mem_singleton]
      exact ⟨.inl, fun mem => mem.elim id fun own => own ▸ (same p.1).1 h⟩
    · rw [assign_of_fresh h, List.map_append, List.map_append]
      refine ⟨List.nodup_append.2 ⟨once, List.nodup_singleton _, ?_⟩, fun k => ?_⟩
      · rintro k mem _ own rfl
        exact h (List.mem_singleton.1 own ▸ mem)
      · rw [List.mem_append, List.mem_append, same]

theorem lastValues_of_nodup {pairs : List (κ × β)} (h : (pairs.map Prod.fst).Nodup) :
    lastValues pairs = pairs := by
  induction pairs using List.reverseRecOn with
  | nil => rfl
  | append_singleton pairs p ih =>
    rw [List.map_append] at h
    obtain ⟨once, -, apart⟩ := List.nodup_append.1 h
    have fresh : p.1 ∉ pairs.map Prod.fst := fun mem => apart _ mem _ (List.mem_singleton.2 rfl) rfl
    rw [lastValues_concat, ih once, assign_of_fresh fresh]

theorem subperm_keys_lastValues (pairs : List (κ × β)) :
    List.Subperm ((lastValues pairs).map Prod.fst) (pairs.map Prod.fst) := by
  obtain ⟨once, same⟩ := keys_lastValues pairs
  exact List.subperm_of_subset once fun k => (same k).1

theorem length_lastValues_le (pairs : List (κ × β)) :
    (lastValues pairs).length ≤ pairs.length := by
  simpa using (subperm_keys_lastValues pairs).length_le

theorem length_lastValues_eq (pairs : List (κ × β)) :
    (lastValues pairs).length = pairs.length ↔ (pairs.map Prod.fst).Nodup := by
  constructor
  · intro h
    have perm := (subperm_keys_lastValues pairs).perm_of_length_le (by simp [h])
    exact perm.nodup_iff.1 (keys_lastValues pairs).1
  · intro h
    rw [lastValues_of_nodup h]

end LastValues

namespace Bindings

variable {α : Type}

/-- Each name with its place in the row. -/
def places (names : List String) : List (String × Int) :=
  names.zipIdx.map fun p => (p.1, (p.2 : Int))

theorem places_concat (names : List String) (x : String) :
    places (names ++ [x]) = places names ++ [(x, (names.length : Int))] := by
  simp [places, List.zipIdx_append]

theorem keys_places (names : List String) : (places names).map Prod.fst = names := by
  rw [places, List.map_map]
  exact List.zipIdx_map_fst 0 names

theorem lookup_places_eq_none {names : List String} {x : String} (fresh : x ∉ names) :
    (places names).lookup x = none := by
  rw [List.lookup_eq_none_iff]
  intro p mem
  have own : p.1 ∈ (places names).map Prod.fst := List.mem_map_of_mem mem
  rw [keys_places] at own
  exact bne_iff_ne.2 fun same => fresh (same ▸ own)

theorem lookup_places {names : List String} (once : names.Nodup) {i : Nat} {x : String}
    (h : names[i]? = some x) : (places names).lookup x = some (i : Int) := by
  induction names using List.reverseRecOn with
  | nil => cases h
  | append_singleton names y ih =>
    obtain ⟨once, -, apart⟩ := List.nodup_append.1 once
    rw [places_concat, List.lookup_append]
    rcases Nat.lt_or_ge i names.length with within | last
    · rw [List.getElem?_append_left within] at h
      rw [ih once h, Option.some_or]
    · rw [List.getElem?_append_right last, List.getElem?_singleton] at h
      obtain ⟨here, own⟩ := Option.ite_none_right_eq_some.1 h
      obtain rfl := Option.some.inj own
      have fresh : y ∉ names := fun mem => apart _ mem _ (List.mem_singleton.2 rfl) rfl
      rw [lookup_places_eq_none fresh, Option.none_or, List.lookup_cons_self]
      congr 2
      omega

theorem ofPairs_eq {pairs : List (String × α)} (once : (pairs.map Prod.fst).Nodup)
    (canonical : ∀ x ∈ pairs.map Prod.fst, canonicalName x = x) :
    ofPairs pairs = ⟨pairs.map Prod.snd, some (places (pairs.map Prod.fst))⟩ := by
  induction pairs using List.reverseRecOn with
  | nil => rfl
  | append_singleton pairs p ih =>
    rw [List.map_append] at once canonical
    obtain ⟨once, -, apart⟩ := List.nodup_append.1 once
    have fresh : p.1 ∉ pairs.map Prod.fst := fun mem => apart _ mem _ (List.mem_singleton.2 rfl) rfl
    have own : canonicalName p.1 = p.1 := canonical _ (List.mem_append_right _ (by simp))
    have unbound := lookup_places_eq_none fresh
    have unplaced : p.1 ∉ (places (pairs.map Prod.fst)).map Prod.fst := by rwa [keys_places]
    rw [ofPairs, List.foldl_append, ← ofPairs,
      ih once fun x mem => canonical x (List.mem_append_left _ mem)]
    simp only [List.foldl_cons, List.foldl_nil, insert, own, position?, unbound, Option.map_some,
      assign_of_fresh unplaced, List.length_map, List.map_append, List.map_cons, List.map_nil,
      places_concat]

/-- The row has a value for each of the names, at the place of the name. -/
def Lists (b : Bindings α) (names : List String) : Prop :=
  b.values.length = names.length ∧ ∀ i x, names[i]? = some x → b.index? x = some i

theorem lists_congr {b b' : Bindings α} {names : List String} (map : b'.names = b.names)
    (length : b'.values.length = b.values.length) : b'.Lists names ↔ b.Lists names := by
  simp only [Lists, index?, position?, map, length]

theorem lists_ofPairs {pairs : List (String × α)} {names : List String}
    (keys : pairs.map Prod.fst = names.map canonicalName)
    (once : (names.map canonicalName).Nodup) : (ofPairs pairs).Lists names := by
  have canonical : ∀ x ∈ pairs.map Prod.fst, canonicalName x = x := by
    intro x mem
    rw [keys] at mem
    obtain ⟨y, -, rfl⟩ := List.mem_map.1 mem
    exact canonicalName_canonicalName y
  have length : pairs.length = names.length := by
    rw [← List.length_map Prod.fst, keys, List.length_map]
  rw [ofPairs_eq (keys ▸ once) canonical, keys]
  refine ⟨by rw [List.length_map, length], fun i x h => ?_⟩
  have place : (names.map canonicalName)[i]? = some (canonicalName x) := by
    rw [List.getElem?_map, h, Option.map_some]
  have within : i < names.length := (List.getElem?_eq_some_iff.1 h).1
  simp [index?, position?, lookup_places once place, length, within]

end Bindings

end DerivativeEngine
