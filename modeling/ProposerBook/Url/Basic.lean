/-
URLs, taken apart, and their text.

A URL has a scheme, in most cases an authority (credentials, host and port), a path,
and perhaps a query and a fragment.  The parts hold text in its escaped form, so that
writing a URL is putting delimiters between its parts.
-/
import ProposerBook.Url.Ipv6

namespace ProposerBook

inductive Host
  /-- A name, or what the scheme takes as one. -/
  | domain (name : List Char)
  | ipv4 (address : Ipv4)
  | ipv6 (address : Ipv6)

def Host.toChars : Host → List Char
  | .domain name => name
  | .ipv4 a => a.toChars
  | .ipv6 a => '[' :: a.toChars ++ [']']

/-- Who is asked.  No host is an empty one. -/
structure Authority where
  username : List Char := []
  password : List Char := []
  host : Option Host := none
  port : Option UInt16 := none

namespace Authority

/-- Name and password with what sets them off from the host. -/
def credentials (a : Authority) : List Char :=
  a.username ++ (if a.password.isEmpty then [] else ':' :: a.password) ++
    (if a.username.isEmpty && a.password.isEmpty then [] else ['@'])

def portChars (a : Authority) : List Char :=
  match a.port with
  | none => []
  | some p => ':' :: (toString p.toNat).toList

def toChars (a : Authority) : List Char :=
  a.credentials ++ ((a.host.map Host.toChars).getD []) ++ a.portChars

end Authority

inductive UrlPath
  /-- Segments, each with a slash before it. -/
  | segments (ss : List (List Char))
  /-- A text without structure. -/
  | plain (cs : List Char)

def UrlPath.toChars : UrlPath → List Char
  | .segments ss => ss.flatMap ('/' :: ·)
  | .plain cs => cs

structure Url where
  scheme : List Char
  authority : Option Authority
  path : UrlPath
  query : Option (List Char) := none
  fragment : Option (List Char) := none

namespace Url

def authorityChars (u : Url) : List Char :=
  match u.authority with
  | none => []
  | some a => '/' :: '/' :: a.toChars

/-- Without an authority a path must not begin with two slashes. -/
def pathChars (u : Url) : List Char :=
  let p := u.path.toChars
  if u.authority.isNone && p.take 2 == ['/', '/'] then '/' :: '.' :: p else p

def queryChars (u : Url) : List Char :=
  match u.query with
  | none => []
  | some q => '?' :: q

def fragmentChars (u : Url) : List Char :=
  match u.fragment with
  | none => []
  | some f => '#' :: f

def toChars (u : Url) : List Char :=
  u.scheme ++ ':' :: (u.authorityChars ++ u.pathChars ++ u.queryChars ++ u.fragmentChars)

def toText (u : Url) : String := String.ofList u.toChars

end Url

end ProposerBook
