/-
What the lines of a TOML text say.

An entry adds a value to the table under the last header, and a header names a table or
begins the next table of an array.  Tables come into being in three ways, and how one
came is what may still be done with it:

  named    by its own header, or as the whole text: no header may name it again
  passed   on the way of a header to a table below it: one header may still name it
  dotted   by the keys of an entry: more such keys may enter it, but no header names it

No value is ever replaced.  Of the tables of an array only the last can still grow, so
only that one is kept.
-/

namespace ProposerBook

namespace Toml

abbrev Path := List String

/-- A value; of those that are no texts only that they are there is kept. -/
inductive Value
  | text (s : String)
  | other
  deriving DecidableEq, Repr

inductive Line
  | empty
  | header (p : Path)
  | arrayHeader (p : Path)
  | entry (p : Path) (v : Value)

/-- How a table came into being. -/
inductive Origin
  | named
  | passed
  | dotted
  deriving DecidableEq, Repr

/-- What stands under a key. -/
inductive Node
  | value (v : Value)
  | table (origin : Origin) (entries : List (String × Node))
  | tables (last : List (String × Node))

abbrev Entries := List (String × Node)

/-! ### One step down -/

/-- Puts under a key what `f` makes of what stood there. -/
def update (k : String) (f : Option Node → Option Node) : Entries → Option Entries
  | [] => (f none).map fun n => [(k, n)]
  | (j, m) :: es =>
    if j = k then (f (some m)).map fun n => (k, n) :: es
    else (update k f es).map ((j, m) :: ·)

/-- Adds a value under keys that lead down from a table.  The tables on the way may be ones that
no header has named, and the last of them has to be one that such keys have made. -/
def insertEntry (v : Value) : Path → Entries → Option Entries
  | [], _ => none
  | [k], es => update k (fun | none => some (.value v) | some _ => none) es
  | k :: ks, es =>
    let below (es : Entries) := insertEntry v ks es
    update k (fun
      | none => (below []).map (.table .dotted)
      | some (.table .dotted es) => (below es).map (.table .dotted)
      | some (.table .passed es) => if ks.length = 1 then none else (below es).map (.table .passed)
      | some (.tables es) => if ks.length = 1 then none else (below es).map .tables
      | some (.table .named _) | some (.value _) => none) es

def insertEntries : List (Path × Value) → Entries → Option Entries
  | [], es => some es
  | (p, v) :: rest, es => (insertEntry v p es).bind (insertEntries rest)

/-- Follows the path of a header and puts at its end what `f` makes of what stood there. -/
def follow (f : Option Node → Option Node) : Path → Entries → Option Entries
  | [], _ => none
  | [k], es => update k f es
  | k :: ks, es =>
    let below (es : Entries) := follow f ks es
    update k (fun
      | none => (below []).map (.table .passed)
      | some (.table o es) => (below es).map (.table o)
      | some (.tables es) => (below es).map .tables
      | some (.value _) => none) es

/-! ### Lines -/

/-- What a header makes of what stands at the end of its path. -/
def named : Option Node → Option Node
  | none => some (.table .named [])
  | some (.table .passed es) => some (.table .named es)
  | some _ => none

/-- What the header of an array's next table makes of what stands at the end of its path. -/
def extended : Option Node → Option Node
  | none | some (.tables _) => some (.tables [])
  | some _ => none

/-- Changes the entries of the table at the end of a path. -/
def inside (f : Entries → Option Entries) : Path → Entries → Option Entries
  | [], es => f es
  | p, es => follow (fun
      | some (.table o es) => (f es).map (.table o)
      | some (.tables es) => (f es).map .tables
      | none | some (.value _) => none) p es

/-- Takes the lines in their order; `here` is the path of the last header. -/
def addLines : List Line → (here : Path) → Entries → Option Entries
  | [], _, es => some es
  | .empty :: ls, here, es => addLines ls here es
  | .header p :: ls, _, es => (follow named p es).bind (addLines ls p)
  | .arrayHeader p :: ls, _, es => (follow extended p es).bind (addLines ls p)
  | .entry p v :: ls, here, es => (inside (insertEntry v p) here es).bind (addLines ls here)

def ofLines (ls : List Line) : Option Entries := addLines ls [] []

end Toml

end ProposerBook
