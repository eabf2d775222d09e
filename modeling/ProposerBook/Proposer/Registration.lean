/-
Registrations, as a relay publishes them.

The proposer of a slot signs where the fees of its block go and how much gas the
block may use, and may name a list that the block is screened against.  Nothing of
this is checked here: a registration says what the relay said.
-/
import ProposerBook.Json.Decode
import ProposerBook.Json.Value
import ProposerBook.Text.Blank
import ProposerBook.Text.Decimal

namespace ProposerBook

open Json (Decoder Refusal Tree Value)

/-- What the proposer signs. -/
structure RegistrationMessage where
  feeRecipient : String
  gasLimit : UInt64
  timestamp : UInt64
  pubkey : String
  deriving DecidableEq, Repr

structure SignedRegistration where
  message : RegistrationMessage
  signature : String
  deriving DecidableEq, Repr

structure Registration where
  slot : UInt64
  entry : SignedRegistration
  complianceList : Option String
  deriving DecidableEq, Repr

namespace Registration

/-! ### Reading

Numbers are written with quotes around them or without; blanks inside the quotes do
not count.
-/

/-- What a field that should hold a number has against its text. -/
abbrev Fault := Decimal.ParseError

/-- A word in either spelling, inside `depth` arrays and objects. -/
def word (depth : Nat) : Decoder Fault UInt64
  | .string s => do
    let s ← Json.liftFault s
    (Decimal.parseWord (Text.trim s)).mapError .invalid
  | t => do
    Json.guardFault (t.keep (Json.maxDepth - depth))
    match t with
    | .number l =>
      match l.number with
      | .ok (.natural n) => return UInt64.ofNat n
      | _ => .error (.mismatch (.noVariant "Quoted"))
    | _ => .error (.mismatch (.noVariant "Quoted"))

/-- A message of which some fields have been read. -/
structure PartialMessage where
  feeRecipient : Option String := none
  gasLimit : Option UInt64 := none
  timestamp : Option UInt64 := none
  pubkey : Option String := none

def PartialMessage.step (p : PartialMessage) (key : String) (t : Tree) :
    Except (Refusal Fault) PartialMessage :=
  match key with
  | "fee_recipient" => do
    let x ← Json.once key p.feeRecipient Json.string t
    return { p with feeRecipient := x }
  | "gas_limit" => do
    let x ← Json.once key p.gasLimit (word 4) t
    return { p with gasLimit := x }
  | "timestamp" => do
    let x ← Json.once key p.timestamp (word 4) t
    return { p with timestamp := x }
  | "pubkey" => do
    let x ← Json.once key p.pubkey Json.string t
    return { p with pubkey := x }
  | _ => do
    Json.ignored t
    return p

/-- Reads a message; a missing time stamp is zero. -/
def message : Decoder Fault RegistrationMessage
  | .object es stop => do
    let p ← Json.fields PartialMessage.step {} es
    Json.closing stop
    let feeRecipient ← Json.required "fee_recipient" p.feeRecipient
    let gasLimit ← Json.required "gas_limit" p.gasLimit
    let pubkey ← Json.required "pubkey" p.pubkey
    return { feeRecipient, gasLimit, timestamp := p.timestamp.getD 0, pubkey }
  | .array ts stop => do
    let expected := "struct RegistrationMessage with 4 elements"
    let (feeRecipient, row) ← Json.Row.next ⟨ts, stop⟩ 0 expected Json.string
    let (gasLimit, row) ← row.next 1 expected (word 4)
    let (timestamp, row) ← row.next? (word 4)
    let (pubkey, row) ← row.next 3 expected Json.string
    row.finish
    return { feeRecipient, gasLimit, timestamp := timestamp.getD 0, pubkey }
  | t => Json.refuse "struct RegistrationMessage" t

structure PartialEntry where
  message : Option RegistrationMessage := none
  signature : Option String := none

def PartialEntry.step (p : PartialEntry) (key : String) (t : Tree) :
    Except (Refusal Fault) PartialEntry :=
  match key with
  | "message" => do
    let x ← Json.once key p.message Registration.message t
    return { p with message := x }
  | "signature" => do
    let x ← Json.once key p.signature Json.string t
    return { p with signature := x }
  | _ => do
    Json.ignored t
    return p

def signed : Decoder Fault SignedRegistration
  | .object es stop => do
    let p ← Json.fields PartialEntry.step {} es
    Json.closing stop
    let message ← Json.required "message" p.message
    let signature ← Json.required "signature" p.signature
    return { message, signature }
  | .array ts stop => do
    let expected := "struct SignedRegistration with 2 elements"
    let (message, row) ← Json.Row.next ⟨ts, stop⟩ 0 expected Registration.message
    let (signature, row) ← row.next 1 expected Json.string
    row.finish
    return { message, signature }
  | t => Json.refuse "struct SignedRegistration" t

structure PartialRegistration where
  slot : Option UInt64 := none
  entry : Option SignedRegistration := none
  complianceList : Option (Option String) := none

def PartialRegistration.step (p : PartialRegistration) (key : String) (t : Tree) :
    Except (Refusal Fault) PartialRegistration :=
  match key with
  | "slot" => do
    let x ← Json.once key p.slot (word 2) t
    return { p with slot := x }
  | "entry" => do
    let x ← Json.once key p.entry signed t
    return { p with entry := x }
  | "compliance_list" => do
    let x ← Json.once key p.complianceList (Json.optional Json.string) t
    return { p with complianceList := x }
  | _ => do
    Json.ignored t
    return p

/-- Reads a registration; a missing list name is none. -/
def registration : Decoder Fault Registration
  | .object es stop => do
    let p ← Json.fields PartialRegistration.step {} es
    Json.closing stop
    let slot ← Json.required "slot" p.slot
    let entry ← Json.required "entry" p.entry
    return { slot, entry, complianceList := p.complianceList.getD none }
  | .array ts stop => do
    let expected := "struct ValidatorRegistration with 3 elements"
    let (slot, row) ← Json.Row.next ⟨ts, stop⟩ 0 expected (word 2)
    let (entry, row) ← row.next 1 expected signed
    let (complianceList, row) ← row.next? (Json.optional Json.string)
    row.finish
    return { slot, entry, complianceList := complianceList.getD none }
  | t => Json.refuse "struct ValidatorRegistration" t

/-- Reads the registrations of a relay's answer. -/
def registrations : Decoder Fault (List Registration) := Json.list registration

/-- Reads a relay's answer. -/
def parse (b : Bytes) : Except (Refusal Fault) (List Registration) := Json.read registrations b

/-! ### Writing -/

def toValue (r : Registration) : Value :=
  .object [
    ("slot", .nat r.slot.toNat),
    ("entry", .object [
      ("message", .object [
        ("fee_recipient", .string r.entry.message.feeRecipient),
        ("gas_limit", .nat r.entry.message.gasLimit.toNat),
        ("timestamp", .nat r.entry.message.timestamp.toNat),
        ("pubkey", .string r.entry.message.pubkey)]),
      ("signature", .string r.entry.signature)]),
    ("compliance_list", match r.complianceList with
      | some name => .string name
      | none => .null)]

/-- Writes registrations the way a relay does. -/
def write (rs : List Registration) : Bytes := (Value.array (rs.map toValue)).write

end Registration

end ProposerBook
