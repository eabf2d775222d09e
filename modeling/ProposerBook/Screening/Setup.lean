/-
Setting up a registry from files.

Two files may be configured: a blacklist in JSON and a snapshot in the binary form.
A blacklist has to be there; a snapshot need not, since the first one is written when
the program ends.  The blacklist comes first, and the first fault is the one reported.
-/
import ProposerBook.Screening.Registry
import ProposerBook.Files

namespace ProposerBook

/-- What went wrong with lists or settings. -/
inductive ScreeningError
  | blacklistUnreadable (f : FileFault)
  | blacklistRefused (r : Json.Refusal Empty)
  | settingsUnreadable (f : FileFault)
  | settingsMalformed
  | snapshot (e : Snapshot.DecodeError)
  | file (f : FileFault)
  deriving DecidableEq, Repr

/-- What is told about an error; of a fault in a JSON text or in the settings nothing is. -/
def ScreeningError.message? : ScreeningError → Option String
  | .blacklistUnreadable f =>
    some s!"Failed to load compliance list: Failed to read blacklist file: {f.message}"
  | .blacklistRefused r =>
    (r.message? (fun e => nomatch e)).map
      ("Failed to load compliance list: Failed to parse blacklist JSON: " ++ ·)
  | .settingsUnreadable f => some s!"Configuration error: Failed to read config file: {f.message}"
  | .settingsMalformed => none
  | .snapshot e => some s!"Failed to decode compliance registry: {e.message}"
  | .file f => some s!"IO error: {f.message}"

/-- Reads a blacklist from a file. -/
def Blacklist.ofFile (c : FileContent) : Except ScreeningError Blacklist := do
  let s ← c.text.mapError .blacklistUnreadable
  (Blacklist.parse s).mapError .blacklistRefused

namespace Registry

/-- Registers the lists of a snapshot file. -/
def loadFile (r : Registry) (times : Arrivals) (c : FileContent) :
    Except ScreeningError (Nat × Registry) := do
  let b ← c.mapError .file
  (r.load times b).mapError .snapshot

/-- The registry that the configured files make, where it is made at some time and the lists of the
snapshot come in later. -/
def ofFiles (made : Timestamp) (times : Arrivals) (blacklist snapshot : Option FileContent) :
    Except ScreeningError Registry := do
  let r ← match blacklist with
    | none => .ok (fresh made)
    | some c => do
      let b ← Blacklist.ofFile c
      pure ((fresh made).withBlacklist b)
  match snapshot with
  | none => return r
  | some c =>
    if c.isThere then do
      let (_, r) ← r.loadFile times c
      return r
    else return r

end Registry

end ProposerBook
