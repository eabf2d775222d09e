/-
The settings of the screening: which files the registry is made from.

They are read from a TOML text, where each of the two paths may be given as a text and
all other keys are passed over.  Without a path to the settings, the first of three
places that holds anything is taken, and if none does, nothing is set.
-/
import ProposerBook.Screening.Setup
import ProposerBook.Toml.Line

namespace ProposerBook

/-- The files that a registry is made from. -/
structure ScreeningSettings where
  blacklist? : Option String
  snapshot? : Option String
  deriving DecidableEq, Repr

namespace ScreeningSettings

/-- Nothing is set. -/
def unset : ScreeningSettings := ⟨none, none⟩

/-- The text under a key, if the key is there. -/
def textAt (es : Toml.Entries) (key : String) : Except ScreeningError (Option String) :=
  match es.lookup key with
  | none => .ok none
  | some (.value (.text s)) => .ok (some s)
  | some _ => .error .settingsMalformed

/-- What a text sets. -/
def parse (s : String) : Except ScreeningError ScreeningSettings :=
  match Toml.parse s with
  | none => .error .settingsMalformed
  | some es => do
    let blacklist? ← textAt es "blacklist_path"
    let snapshot? ← textAt es "snapshot_path"
    return { blacklist?, snapshot? }

def ofFile (c : FileContent) : Except ScreeningError ScreeningSettings := do
  let s ← c.text.mapError .settingsUnreadable
  parse s

/-- Where settings are looked for, in this order. -/
def places : List String := ["config/compliance.toml", "compliance.toml", ".compliance.toml"]

/-- The settings found from a directory. -/
def find (d : Directory) : Except ScreeningError ScreeningSettings :=
  match places.find? d.holds with
  | some p => ofFile (d.read p)
  | none => .ok unset

end ScreeningSettings

/-- The registry that the files make to which settings point, as `look` finds them. -/
def Registry.ofSettings (made : Timestamp) (times : Arrivals) (s : ScreeningSettings)
    (look : String → FileContent) : Except ScreeningError Registry :=
  ofFiles made times (s.blacklist?.map look) (s.snapshot?.map look)

end ProposerBook
