/-
HTTP responses, as the bytes that come down a connection until it is closed.

A response has a status line, header lines, an empty line and a body.  Informational
responses that precede it are passed over.  The body is in chunks, or as long as a
header says, or all there is until the connection is closed; some statuses have none.
A response whose head is broken is none; one whose body is cut short has its status
all the same.
-/
import ProposerBook.Bytes.Basic

namespace ProposerBook

structure HttpResponse where
  status : Nat
  /-- Headers by their names in lower case. -/
  headers : List (List Char × List Char)
  /-- Nothing if the body was cut short. -/
  body : Option Bytes

namespace HttpResponse

/-! ### The head -/

/-- A line without the carriage return at its end; `rev` has its characters in reverse. -/
def finishLine (rev : List Char) : List Char :=
  match rev with
  | '\r' :: rest => rest.reverse
  | rest => rest.reverse

/-- The lines up to the first empty one, and what follows it.  Empty lines before the first do not
count. -/
def splitHead (lines : List (List Char)) (rev : List Char) :
    Bytes → Option (List (List Char) × Bytes)
  | [] => none
  | b :: bs =>
    if b = 0x0a then
      match finishLine rev, lines with
      | [], [] => splitHead [] [] bs
      | [], _ => some (lines.reverse, bs)
      | line, _ => splitHead (line :: lines) [] bs
    else splitHead lines (Char.ofUInt8 b :: rev) bs

def isDigit (c : Char) : Bool := '0' ≤ c && c ≤ '9'

/-- Characters of a line of text. -/
def isTextual (c : Char) : Bool := c == '\t' || (0x20 ≤ c.toNat && c.toNat != 0x7f)

/-- Characters of a header name. -/
def isNameChar (c : Char) : Bool :=
  c.isAlphanum || "!#$%&*+-.^_`|~".toList.contains c || c.toNat == 0x27

/-- The minor version and the status. -/
def statusLine? : List Char → Option (Nat × Nat)
  | 'H' :: 'T' :: 'T' :: 'P' :: '/' :: '1' :: '.' :: v :: ' ' :: a :: b :: c :: rest =>
    let reason := match rest with
      | [] => true
      | r :: rs => r == ' ' && rs.all isTextual
    let value (d : Char) : Nat := d.toNat - '0'.toNat
    let status := value a * 100 + value b * 10 + value c
    if (v == '0' || v == '1') && isDigit a && isDigit b && isDigit c && reason && 100 ≤ status then
      some (value v, status)
    else none
  | _ => none

def isSpace (c : Char) : Bool := c == ' ' || c == '\t'

def trimSpaces (cs : List Char) : List Char :=
  ((cs.dropWhile isSpace).reverse.dropWhile isSpace).reverse

/-- A header: its name in lower case, and its value without spaces around it. -/
def header? (line : List Char) : Option (List Char × List Char) :=
  let name := line.takeWhile isNameChar
  match line.dropWhile isNameChar with
  | ':' :: value =>
    if name.isEmpty || !value.all isTextual then none
    else some (name.map Char.toLower, trimSpaces value)
  | _ => none

structure Head where
  minor : Nat
  status : Nat
  headers : List (List Char × List Char)

/-- The head of a response, and what follows it. -/
def head? (b : Bytes) : Option (Head × Bytes) := do
  match ← splitHead [] [] b with
  | ([], _) => none
  | (first :: rest, body) =>
    let (minor, status) ← statusLine? first
    let headers ← rest.mapM header?
    return ({ minor, status, headers }, body)

def Head.values (h : Head) (name : String) : List (List Char) :=
  (h.headers.filter fun e => e.1 == name.toList).map Prod.snd

/-! ### The body -/

/-- How far the reading of a body in chunks has come. -/
inductive ChunkState
  /-- In the length of a chunk, and whether it has a digit yet. -/
  | size (n : Nat) (started : Bool)
  /-- In what follows the length on its line. -/
  | extension (n : Nat)
  | sizeEnd (n : Nat)
  | data (left : Nat)
  | dataReturn
  | dataEnd
  /-- At the beginning of a line after the last chunk, or inside it. -/
  | trailerStart
  | trailer
  | finish

def hexValue? (b : UInt8) : Option Nat :=
  if 0x30 ≤ b ∧ b ≤ 0x39 then some (b.toNat - 0x30)
  else if 0x41 ≤ b ∧ b ≤ 0x46 then some (b.toNat - 0x41 + 10)
  else if 0x61 ≤ b ∧ b ≤ 0x66 then some (b.toNat - 0x61 + 10)
  else none

/-- What comes after the line with a length. -/
def afterSize (n : Nat) : ChunkState := if n = 0 then .trailerStart else .data n

/-- Reads a body in chunks, after those bytes of it that `rev` has in reverse. -/
def readChunks (rev : Bytes) : ChunkState → Bytes → Option Bytes
  | _, [] => none
  | .size n started, b :: bs =>
    match hexValue? b with
    | some d => readChunks rev (.size (n * 16 + d) true) bs
    | none =>
      if !started then none
      else if b = 0x0d then readChunks rev (.sizeEnd n) bs
      else if b = 0x3b ∨ b = 0x20 ∨ b = 0x09 then readChunks rev (.extension n) bs
      else none
  | .extension n, b :: bs =>
    if b = 0x0d then readChunks rev (.sizeEnd n) bs
    else if b = 0x0a then none else readChunks rev (.extension n) bs
  | .sizeEnd n, b :: bs => if b = 0x0a then readChunks rev (afterSize n) bs else none
  | .data left, b :: bs =>
    if left ≤ 1 then readChunks (b :: rev) .dataReturn bs
    else readChunks (b :: rev) (.data (left - 1)) bs
  | .dataReturn, b :: bs => if b = 0x0d then readChunks rev .dataEnd bs else none
  | .dataEnd, b :: bs => if b = 0x0a then readChunks rev (.size 0 false) bs else none
  | .trailerStart, b :: bs =>
    if b = 0x0d then readChunks rev .finish bs else readChunks rev .trailer bs
  | .trailer, b :: bs => readChunks rev (if b = 0x0a then .trailerStart else .trailer) bs
  | .finish, b :: _ => if b = 0x0a then some rev.reverse else none

/-- The one length that headers agree on. -/
def length? (values : List (List Char)) : Option Nat :=
  let ns := (values.flatMap (·.splitOn ',')).map fun v =>
    let ds := trimSpaces v
    if ds.isEmpty || !ds.all isDigit then none
    else some (ds.foldl (fun n d => n * 10 + (d.toNat - '0'.toNat)) 0)
  match ns with
  | some n :: rest => if rest.all (· == some n) then some n else none
  | _ => none

/-- Whether chunked is the last of the encodings. -/
def isChunked (values : List (List Char)) : Bool :=
  match values.getLast? with
  | none => false
  | some v =>
    match (v.splitOn ',').getLast? with
    | none => false
    | some last => (trimSpaces last).map Char.toLower == "chunked".toList

/-- The body of a response, if what should follow the head follows it; nothing is in the way of
taking the status. -/
def body? (h : Head) (rest : Bytes) : Option (Option Bytes) :=
  let encodings := h.values "transfer-encoding"
  let lengths := h.values "content-length"
  if h.status = 101 ∨ h.status = 204 ∨ h.status = 304 then some (some [])
  else if !encodings.isEmpty then
    if h.minor = 0 then none
    else if isChunked encodings then some (readChunks [] (.size 0 false) rest)
    else some (some rest)
  else if lengths.isEmpty then some (some rest)
  else
    match length? lengths with
    | none => none
    | some n => some (if n ≤ rest.length then some (rest.take n) else none)

/-- Whether another response follows. -/
def isInformational (status : Nat) : Bool := status < 200 && status != 101

/-- Reads a response, passing over at most `n` informational ones. -/
def readAfter : Nat → Bytes → Option HttpResponse
  | 0, _ => none
  | n + 1, b => do
    let (h, rest) ← head? b
    if isInformational h.status then readAfter n rest
    else
      let body ← body? h rest
      return { status := h.status, headers := h.headers, body }

/-- Reads a response; each one that is passed over takes some bytes. -/
def read (b : Bytes) : Option HttpResponse := readAfter (b.length + 1) b

def isSuccess (r : HttpResponse) : Bool := 200 ≤ r.status && r.status < 300

/-- Where a response sends the client. -/
def location? (r : HttpResponse) : Option (List Char) := r.headers.lookup "location".toList

end HttpResponse

end ProposerBook
