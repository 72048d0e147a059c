import DerivativeEngine.Expr.Basic
import DerivativeEngine.Scalar.Basic
import DerivativeEngine.Text.Quoted

/-!
What variables stand for. Bindings are a row of values reached in one of two ways: through a map
from canonical names to positions, kept in order of first writing, or, without a map, through
the single letters `A` to `Z` as the first twenty-six positions.
-/

namespace DerivativeEngine

/-- Writes to a key in place, or adds the pair at the end. -/
def assign {κ β : Type} [BEq κ] (key : κ) (value : β) : List (κ × β) → List (κ × β)
  | [] => [(key, value)]
  | (k, v) :: rest => if k == key then (k, value) :: rest else (k, v) :: assign key value rest

/-- The pairs with each key once: at its first place and with its last value. -/
def lastValues {κ β : Type} [BEq κ] (pairs : List (κ × β)) : List (κ × β) :=
  pairs.foldl (fun acc p => assign p.1 p.2 acc) []

structure Bindings (α : Type) where
  values : List α
  names : Option (List (String × Int))
  deriving Repr

inductive BindingError where
  | lengthMismatch (names values : Nat)
  | noSlot (name : String)
  deriving DecidableEq, Repr

def BindingError.message : BindingError → String
  | lengthMismatch n v => s!"Expected {n} values, got {v}"
  | noSlot name => s!"Variable {Text.quoted name} has no letter slot in this context"

namespace Bindings

variable {α : Type}

def letterSlots : Nat := 26

def letterIndex? (name : String) : Option Nat :=
  match name.toList with
  | [c] => if 'A' ≤ c && c ≤ 'Z' then some (c.toNat - 'A'.toNat) else none
  | _ => none

/-- The position of a canonical name, if it lies inside the row. -/
def position? (b : Bindings α) (key : String) : Option Nat :=
  match b.names with
  | some names =>
    match names.lookup key with
    | some i => if 0 ≤ i && i < b.values.length then some i.toNat else none
    | none => none
  | none =>
    match letterIndex? key with
    | some i => if i < b.values.length then some i else none
    | none => none

def index? (b : Bindings α) (name : String) : Option Nat := b.position? (canonicalName name)

def lookup? (b : Bindings α) (name : String) : Option α :=
  (b.index? name).bind fun i => b.values[i]?

/-- Positions outside the row hold zero. -/
def valueAt [Zero α] (b : Bindings α) (i : Int) : α :=
  if i < 0 then 0 else b.values.getD i.toNat 0

def contains (b : Bindings α) (name : String) : Bool := (b.index? name).isSome

/-- A name without a position gets the next one, unless only letters are bound. -/
def set (b : Bindings α) (name : String) (value : α) : Except BindingError (Bindings α) :=
  match b.index? name with
  | some i => .ok { b with values := b.values.set i value }
  | none =>
    match b.names with
    | none => .error (.noSlot name)
    | some names => .ok
        { values := b.values ++ [value]
          names := some (assign (canonicalName name) (b.values.length : Int) names) }

def empty : Bindings α := ⟨[], some []⟩

def insert (b : Bindings α) (p : String × α) : Bindings α :=
  let key := canonicalName p.1
  match b.position? key with
  | some i => { b with values := b.values.set i p.2 }
  | none =>
    { values := b.values ++ [p.2]
      names := b.names.map (assign key (b.values.length : Int)) }

/-- Names that agree in canonical form share a position, and the last value wins. -/
def ofPairs (pairs : List (String × α)) : Bindings α := pairs.foldl insert empty

def ofNames (names : List String) (values : List α) : Except BindingError (Bindings α) :=
  if names.length == values.length then .ok (ofPairs (lastValues (names.zip values)))
  else .error (.lengthMismatch names.length values.length)

def letters [Zero α] : Bindings α := ⟨List.replicate letterSlots 0, none⟩

def ofLetters [Zero α] (pairs : List (String × α)) : Except BindingError (Bindings α) :=
  pairs.foldlM (fun b p => b.set p.1 p.2) letters

/-- One variable, at position zero. -/
def single (name : String) (value : α) : Bindings α := ofPairs [(name, value)]

end Bindings

end DerivativeEngine
