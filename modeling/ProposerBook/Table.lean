/-
Tables: finite maps with their keys in ascending order.

A table answers `get?`.  Inserting replaces, erasing forgets, and no operation
depends on the order in which the entries arrived, except that of two entries
with one key the later one stays.
-/
import ProposerBook.Sorted

namespace ProposerBook

/-- A finite map from `κ` to `α`, its entries in ascending order of their keys. -/
structure Table (κ α : Type) [Ord κ] where
  entries : List (κ × α)
  ascending : Sorted.Ascending Prod.fst entries := by decide

namespace Table

variable {κ α β : Type} [Ord κ]

instance [DecidableEq κ] [DecidableEq α] : DecidableEq (Table κ α) := fun s t =>
  decidable_of_iff (s.entries = t.entries) <| by cases s; cases t; simp

instance [Repr κ] [Repr α] : Repr (Table κ α) := ⟨fun t n => reprPrec t.entries n⟩

def empty : Table κ α := ⟨[], Sorted.ascending_nil _⟩

instance : EmptyCollection (Table κ α) := ⟨empty⟩

instance : Inhabited (Table κ α) := ⟨empty⟩

/-- The value under `k`. -/
def get? (t : Table κ α) (k : κ) : Option α :=
  (t.entries.find? fun e => compare k e.1 == .eq).map Prod.snd

def contains (t : Table κ α) (k : κ) : Bool := (t.get? k).isSome

def keys (t : Table κ α) : List κ := t.entries.map Prod.fst

def values (t : Table κ α) : List α := t.entries.map Prod.snd

def size (t : Table κ α) : Nat := t.entries.length

def isEmpty (t : Table κ α) : Bool := t.entries.isEmpty

/-- Forgets `k`. -/
def erase (t : Table κ α) (k : κ) : Table κ α :=
  ⟨t.entries.filter fun e => compare k e.1 != .eq, Sorted.ascending_filter t.ascending _⟩

variable [Std.TransOrd κ] [Std.LawfulEqOrd κ]

/-- Puts `x` under `k`, in place of what was there. -/
def insert (t : Table κ α) (k : κ) (x : α) : Table κ α :=
  ⟨Sorted.place Prod.fst (k, x) t.entries, Sorted.ascending_place t.ascending _⟩

/-- Inserts the entries in the order given. -/
def insertAll (t : Table κ α) (es : List (κ × α)) : Table κ α :=
  es.foldl (fun t e => t.insert e.1 e.2) t

/-- The table of the entries given; of two with one key the later one counts. -/
def ofList (es : List (κ × α)) : Table κ α := insertAll empty es

/-- `t`, with `u` laid over it. -/
def override (t u : Table κ α) : Table κ α := t.insertAll u.entries

end Table

end ProposerBook
