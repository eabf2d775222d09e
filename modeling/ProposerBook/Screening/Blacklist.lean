/-
The operator's blacklist.

It is a list of entries, each with the kind of account, a wallet and a reason.  Only
entries of kind `evm` (in any case) with a wallet that is an address block anything;
the others are kept and looked at for reasons only.
-/
import ProposerBook.Screening.JsonForm
import ProposerBook.Text.Lowercase

namespace ProposerBook

open Json (Decoder Refusal Tree)

namespace Blacklist

structure Entry where
  accountType : String
  wallet : String
  reason : String
  deriving DecidableEq, Repr

/-- The address of the wallet, blanks at both ends aside. -/
def Entry.address? (e : Entry) : Option Address := (Address.parse (Text.trim e.wallet)).toOption

/-- The address that the entry blocks. -/
def Entry.blocked? (e : Entry) : Option Address :=
  if Text.equalIgnoringAsciiCase e.accountType "evm" then e.address? else none

end Blacklist

/-- The blocked addresses, and the entries that may tell why. -/
structure Blacklist where
  blocked : AddressSet
  entries : List Blacklist.Entry
  deriving DecidableEq, Repr

namespace Blacklist

def empty : Blacklist := ⟨{}, []⟩

instance : Inhabited Blacklist := ⟨empty⟩

def ofEntries (es : List Entry) : Blacklist :=
  ⟨AddressSet.ofList (es.filterMap Entry.blocked?), es⟩

/-- Addresses blocked for no recorded reason. -/
def ofSet (s : AddressSet) : Blacklist := ⟨s, []⟩

def contains (b : Blacklist) (a : Address) : Bool := b.blocked.contains a

def size (b : Blacklist) : Nat := b.blocked.size

/-- Why `a` is blocked: the reason of the first entry with this wallet, of whatever kind. -/
def reason? (b : Blacklist) (a : Address) : Option String :=
  if b.contains a then
    (b.entries.find? fun e => e.address? == some a).map Entry.reason
  else none

/-! ### Reading -/

/-- An entry of which some fields have been read. -/
structure Partial where
  accountType : Option String := none
  wallet : Option String := none
  reason : Option String := none

def Partial.step (p : Partial) (key : String) (t : Tree) : Except (Refusal Empty) Partial :=
  match key with
  | "account_type" => do
    let x ← Json.once key p.accountType Json.string t
    return { p with accountType := x }
  | "wallet" => do
    let x ← Json.once key p.wallet Json.string t
    return { p with wallet := x }
  | "reason" => do
    let x ← Json.once key p.reason Json.string t
    return { p with reason := x }
  | _ => do
    Json.ignored t
    return p

def entry : Decoder Empty Entry
  | .object es stop => do
    let p ← Json.fields Partial.step {} es
    Json.closing stop
    let accountType ← Json.required "account_type" p.accountType
    let wallet ← Json.required "wallet" p.wallet
    let reason ← Json.required "reason" p.reason
    return { accountType, wallet, reason }
  | .array ts stop => do
    let expected := "struct BlacklistEntry with 3 elements"
    let (accountType, row) ← Json.Row.next ⟨ts, stop⟩ 0 expected Json.string
    let (wallet, row) ← row.next 1 expected Json.string
    let (reason, row) ← row.next 2 expected Json.string
    row.finish
    return { accountType, wallet, reason }
  | t => Json.refuse "struct BlacklistEntry" t

/-- Reads a blacklist. -/
def parse (s : String) : Except (Refusal Empty) Blacklist :=
  (Json.read (Json.list entry) (Bytes.ofString s)).map ofEntries

end Blacklist

end ProposerBook
