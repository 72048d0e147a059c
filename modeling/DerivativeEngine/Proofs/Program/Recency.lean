import DerivativeEngine.Program.Compiled
import DerivativeEngine.Proofs.Source.Acceptance
import Mathlib.Data.List.Nodup

/-! What the cache of compiled sources holds after any calls. Of the calls since the last reset
those count whose source compiles, each source once, at its last use; the last used ones up to the
capacity are held. The step that carries this is about lists alone: what was dropped beyond the
capacity before is dropped again after one source has moved to the front. -/

namespace DerivativeEngine

namespace CompileCache

section LastUses

variable {κ : Type} [DecidableEq κ]

theorem eraseDups_filter_ne (a : κ) :
    ∀ calls : List κ, (calls.filter fun t => !(t == a)).eraseDups =
      calls.eraseDups.filter fun t => !(t == a)
  | [] => rfl
  | t :: calls => by
    have shorter : (calls.filter fun u => !(u == t)).length < calls.length + 1 :=
      Nat.lt_succ_of_le (List.length_filter_le _ _)
    have rest := eraseDups_filter_ne a (calls.filter fun u => !(u == t))
    by_cases same : t = a
    · subst same
      simp only [List.filter_filter, Bool.and_self] at rest
      simp [List.eraseDups_cons, ← rest]
    · rw [List.filter_cons_of_pos (by simp [same]), List.eraseDups_cons, List.eraseDups_cons,
        List.filter_cons_of_pos (by simp [same]), ← rest]
      simp only [List.filter_filter, Bool.and_comm]
  termination_by calls => calls.length

theorem nodup_eraseDups : ∀ calls : List κ, calls.eraseDups.Nodup
  | [] => .nil
  | t :: calls => by
    rw [List.eraseDups_cons, eraseDups_filter_ne, List.nodup_cons]
    exact ⟨by simp, (nodup_eraseDups calls).filter _⟩

theorem take_filter_ne {entries : List κ} (distinct : entries.Nodup) (a : κ) (n : Nat) :
    ((entries.take (n + 1)).filter fun t => !(t == a)).take n =
      (entries.filter fun t => !(t == a)).take n := by
  induction entries generalizing n with
  | nil => rfl
  | cons t rest ih =>
    obtain ⟨other, distinct⟩ := List.nodup_cons.1 distinct
    by_cases same : t = a
    · subst same
      have whole : (rest.filter fun u => !(u == t)) = rest :=
        List.filter_eq_self.2 fun u h => by simpa using ne_of_mem_of_not_mem h other
      have part : ((rest.take n).filter fun u => !(u == t)) = rest.take n :=
        List.filter_eq_self.2 fun u h => by
          simpa using ne_of_mem_of_not_mem (List.mem_of_mem_take h) other
      simp [List.take_succ_cons, whole, part, List.take_take]
    · cases n with
      | zero => simp
      | succ n => simp [List.take_succ_cons, same, ih distinct n]

end LastUses

section Fresh

variable (α : Type) [Scalar α] [NumberText α]

def verdict (source : String) : Except CompileFailure (Compiled α) :=
  (fresh source Engine.start).1

def compiles (source : String) : Bool := (verdict α source).isOk

def recent (calls : List String) : List String :=
  ((calls.filter (compiles α)).eraseDups).take capacity

variable {α}

theorem fresh_value (source : String) (s : Engine) :
    (fresh (α := α) source s).1 = verdict α source := by
  have tree : (Source.parse (α := α) source none {} s).1 =
      (Source.parse (α := α) source none {} Engine.start).1 := by
    unfold Source.parse
    cases Source.refusal? (some source) {} with
    | some e => rfl
    | none =>
      dsimp only
      rw [Source.value_bind, Source.value_bind, Source.readTree_value, Source.readTree_value]
      generalize ParseRun.ofTokens (α := α) _ _ _ _ _ = r
      rcases r.tree with (_ | _ | _) | e <;> rcases r.errors with _ | ⟨first, others⟩ <;> rfl
  rw [verdict, fresh, Source.value_bind, Source.value_bind, tree]
  generalize (Source.parse (α := α) source none {} Engine.start).1 = r
  rcases r with e | t
  · rfl
  · dsimp only
    cases Compiled.ofTree t (some source) <;> rfl

theorem recent_of_fails {source : String} (fails : compiles α source = false)
    (calls : List String) : recent α (source :: calls) = recent α calls := by
  rw [recent, List.filter_cons_of_neg (by simp [fails]), recent]

theorem recent_of_compiles {source : String} (ok : compiles α source = true)
    (calls : List String) :
    recent α (source :: calls) =
      (source :: (recent α calls).filter fun t => !(t == source)).take capacity := by
  rw [recent, List.filter_cons_of_pos ok, List.eraseDups_cons, eraseDups_filter_ne]
  exact congrArg (source :: ·) (take_filter_ne (nodup_eraseDups _) source (capacity - 1)).symm

theorem compiles_of_mem_recent {source : String} {calls : List String}
    (h : source ∈ recent α calls) : compiles α source = true := by
  have kept := List.mem_eraseDups.1 (List.mem_of_mem_take h)
  exact (List.mem_filter.1 kept).2

end Fresh

variable {α : Type}

theorem map_fst_without (source : String) (entries : List (String × Compiled α)) :
    (without source entries).map Prod.fst =
      (entries.map Prod.fst).filter fun t => !(t == source) := by
  rw [without, List.filter_map]
  rfl

theorem hold_entries (c : CompileCache α) (source : String) (compiled : Compiled α) :
    (c.hold source compiled).entries =
      ((source, compiled) :: without source c.entries).take capacity := rfl

theorem map_fst_hold (c : CompileCache α) (source : String) (compiled : Compiled α) :
    (c.hold source compiled).entries.map Prod.fst =
      (source :: (c.entries.map Prod.fst).filter fun t => !(t == source)).take capacity := by
  rw [hold_entries, List.map_take, List.map_cons, map_fst_without]

theorem not_mem_of_lookup {c : CompileCache α} {source : String}
    (missing : c.entries.lookup source = none) : source ∉ c.entries.map Prod.fst := by
  intro held
  obtain ⟨entry, mem, rfl⟩ := List.mem_map.1 held
  simpa using List.lookup_eq_none_iff.1 missing _ mem

variable [Scalar α] [NumberText α]

/-- A cache as these calls leave it, the last one first. -/
structure Recalls (c : CompileCache α) (calls : List String) : Prop where
  held : c.entries.map Prod.fst = recent α calls
  compiled : ∀ entry ∈ c.entries, verdict α entry.1 = .ok entry.2
  counted : c.hits + c.misses = calls.length

theorem recalls_empty : Recalls (α := α) .empty [] := ⟨rfl, by simp [empty], rfl⟩

def called (c : CompileCache α) (source : String) : CompileCache α :=
  match verdict α source with
  | .error _ => { c with misses := c.misses + 1 }
  | .ok compiled =>
    if source ∈ c.entries.map Prod.fst then
      { c.hold source compiled with hits := c.hits + 1 }
    else { c.hold source compiled with misses := c.misses + 1 }

theorem Recalls.lookup {c : CompileCache α} {calls : List String} (h : Recalls c calls)
    {source : String} {compiled : Compiled α} (found : c.entries.lookup source = some compiled) :
    source ∈ c.entries.map Prod.fst ∧ verdict α source = .ok compiled := by
  obtain ⟨before, after, split, -⟩ := List.lookup_eq_some_iff.1 found
  have mem : (source, compiled) ∈ c.entries := by simp [split]
  exact ⟨List.mem_map.2 ⟨_, mem, rfl⟩, h.compiled _ mem⟩

theorem Recalls.compile {c : CompileCache α} {calls : List String} (h : Recalls c calls)
    (source : String) (s : Engine) :
    (c.compile source s).1 = (verdict α source, c.called source) := by
  unfold CompileCache.compile called
  cases found : c.entries.lookup source with
  | some compiled =>
    obtain ⟨mem, ok⟩ := h.lookup found
    simp only [ok, if_pos mem]
    rfl
  | none =>
    simp only [if_neg (not_mem_of_lookup found)]
    rw [Source.value_bind, fresh_value]
    cases verdict α source <;> rfl

theorem Recalls.called {c : CompileCache α} {calls : List String} (h : Recalls c calls)
    (source : String) : Recalls (c.called source) (source :: calls) := by
  unfold CompileCache.called
  cases result : verdict α source with
  | error e =>
    have fails : compiles α source = false := by rw [compiles, result]; rfl
    refine ⟨h.held.trans (recent_of_fails fails calls).symm, h.compiled, ?_⟩
    show c.hits + (c.misses + 1) = calls.length + 1
    rw [← h.counted, Nat.add_assoc]
  | ok compiled =>
    have ok : compiles α source = true := by rw [compiles, result]; rfl
    have held : (c.hold source compiled).entries.map Prod.fst = recent α (source :: calls) := by
      rw [map_fst_hold, h.held, recent_of_compiles ok]
    have whole : ∀ entry ∈ (c.hold source compiled).entries,
        verdict α entry.1 = .ok entry.2 := by
      intro entry mem
      rcases List.mem_cons.1 (List.mem_of_mem_take mem) with rfl | old
      · exact result
      · exact h.compiled entry (List.mem_of_mem_filter old)
    have counted := h.counted
    dsimp only
    split_ifs
    · refine ⟨held, whole, ?_⟩
      show c.hits + 1 + c.misses = calls.length + 1
      omega
    · refine ⟨held, whole, ?_⟩
      show c.hits + (c.misses + 1) = calls.length + 1
      omega

end CompileCache

/-- What happens to the cache, and to the engine between the calls. -/
inductive CacheAction where
  | compile (source : String)
  | reset
  | other (change : Engine → Engine)

namespace CacheAction

variable {α : Type} [Scalar α] [NumberText α]

def run (c : CompileCache α) : CacheAction → Run (CompileCache α)
  | compile source => return (← c.compile source).2
  | reset => return .empty
  | other change => do
    modify change
    return c

/-- The calls since the last reset, the last one first. -/
def calls (earlier : List String) : CacheAction → List String
  | compile source => source :: earlier
  | reset => []
  | other _ => earlier

theorem recalls_run {c : CompileCache α} {earlier : List String} (h : c.Recalls earlier)
    (a : CacheAction) (s : Engine) : (run c a s).1.Recalls (a.calls earlier) := by
  cases a with
  | compile source =>
    have left : (run c (compile source) s).1 = (c.compile source s).1.2 := rfl
    rw [left, h.compile]
    exact h.called source
  | reset => exact CompileCache.recalls_empty
  | other change => exact h

theorem recalls_foldlM {c : CompileCache α} {earlier : List String} (h : c.Recalls earlier)
    (actions : List CacheAction) (s : Engine) :
    (actions.foldlM run c s).1.Recalls (actions.foldl calls earlier) := by
  induction actions generalizing c earlier s with
  | nil => exact h
  | cons a rest ih =>
    rw [List.foldlM_cons, Source.value_bind]
    exact ih (recalls_run h a s) _

end CacheAction

namespace CompileCache

variable {α : Type} [Scalar α] [NumberText α]

/-- After any calls and resets the cache holds the last used of the sources that compiled since the
last reset, the last one first, at most as many as its capacity, and has counted every call. The
next call gives what a fresh compilation gives, is a hit exactly when its source is held, and
changes nothing but the misses when its source does not compile. -/
theorem compile_least_recently_used (actions : List CacheAction) (s : Engine) :
    let c : CompileCache α := (actions.foldlM CacheAction.run .empty s).1
    let calls := actions.foldl CacheAction.calls []
    capacity = 256 ∧
      c.entries.map Prod.fst = ((calls.filter (compiles α)).eraseDups).take capacity ∧
      (∀ entry ∈ c.entries, verdict α entry.1 = .ok entry.2) ∧
      c.hits + c.misses = calls.length ∧
      ∀ (source : String) (s' s'' : Engine),
        let (result, c') := (c.compile source s').1
        result = (fresh source s'').1 ∧
          c'.hits = (if source ∈ c.entries.map Prod.fst then c.hits + 1 else c.hits) ∧
          ((∃ e, result = .error e) → c' = { c with misses := c.misses + 1 }) := by
  intro c calls
  have recalls : c.Recalls calls := CacheAction.recalls_foldlM recalls_empty actions s
  refine ⟨rfl, recalls.held, recalls.compiled, recalls.counted, fun source s' s'' => ?_⟩
  rw [recalls.compile, fresh_value]
  refine ⟨rfl, ?_, ?_⟩
  · unfold called
    split
    · rename_i e result
      rw [if_neg]
      intro mem
      rw [recalls.held] at mem
      have ok := compiles_of_mem_recent mem
      rw [compiles, result] at ok
      cases ok
    · split_ifs <;> rfl
  · rintro ⟨e, result⟩
    unfold called
    rw [result]

end CompileCache

end DerivativeEngine
