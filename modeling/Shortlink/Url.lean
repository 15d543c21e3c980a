import Shortlink.Url.Host
import Shortlink.Url.Path
/-!
# URLs

An absolute URL starts with a scheme. For web schemes a host has to follow, with a user and a port
if need be; for other schemes a host follows two slashes. What comes after the host cannot be wrong.
-/
namespace Shortlink

structure Authority where
  user : List Char := []
  password : List Char := []
  host : Option Host := none

/-- A URL without its port and its fragment. Its texts may hold percent signs that stand for
bytes. -/
structure Url where
  scheme : List Char
  authority : Authority
  /-- The path without slashes at its start. -/
  path : List Char
  query : List Char

namespace Url

inductive Family where
  /-- A host is required, and backslashes count as slashes. -/
  | web
  | file
  | other
deriving DecidableEq

def webSchemes : List String := ["http", "https", "ws", "wss", "ftp"]

def Family.of (scheme : List Char) : Family :=
  if webSchemes.any (·.toList == scheme) then web
  else if scheme = "file".toList then file
  else other

/-- The text without control characters and blanks at its ends, and without tabs and line ends. -/
def clean (cs : List Char) : List Char :=
  let trim (cs : List Char) := cs.dropWhile fun c => c.toNat ≤ 32
  (trim (trim cs).reverse).reverse.filter fun c => c ≠ '\t' ∧ c ≠ '\n' ∧ c ≠ '\r'

def isSchemeChar (c : Char) : Bool := c.isAlphanum || c == '+' || c == '-' || c == '.'

def scheme? (cs : List Char) : Option (List Char × List Char) :=
  match cs.span isSchemeChar with
  | (c :: name, ':' :: rest) => if c.isAlpha then some ((c :: name).map Char.toLower, rest) else none
  | _ => none

/-- Characters that end the part of a URL that names the host. -/
def endsAuthority (family : Family) (c : Char) : Bool :=
  c == '/' || c == '?' || c == '#' || family == .web && c == '\\'

def splitUser (cs : List Char) : Option (List Char) × List Char :=
  let host := (cs.reverse.takeWhile (· ≠ '@')).reverse
  if host.length = cs.length then (none, cs)
  else (some (cs.take (cs.length - host.length - 1)), host)

def splitHost (inside : Bool) : List Char → List Char × List Char
  | [] => ([], [])
  | c :: rest =>
    if c = ':' ∧ inside = false then ([], c :: rest)
    else
      let (host, after) := splitHost (if c = '[' then true else if c = ']' then false else inside) rest
      (c :: host, after)

/-- Whether a port may stand here: figures up to a slash, a backslash or the end. -/
def isPort : Nat → List Char → Bool
  | _, [] => true
  | n, c :: rest =>
    if c.isDigit then
      let n := 10 * n + (c.toNat - 48)
      n ≤ 65535 && isPort n rest
    else c == '\\'

/-- Read the text between the slashes and the path; `more` says whether a path or the like
follows. -/
def readAuthority (family : Family) (cs : List Char) (more : Bool) : Except UrlFault Authority := do
  let (user, rest) := splitUser cs
  if user = some [] ∧ rest = [] ∧ more then throw .emptyHost
  let (text, after) := splitHost false rest
  if text = [] ∧ (family = .web ∨ after ≠ []) then throw .emptyHost
  let host ← if family = .web then Host.parse text else Host.parseVerbatim text
  if ¬ isPort 0 (after.drop 1) then throw .portNumber
  let (name, password) := (user.getD []).span (· ≠ ':')
  if text = [] then
    if user = none ∨ user = some [] ∨ user = some [':'] then return {} else throw .emptyHost
  else return ⟨name, password.drop 1, some host⟩

/-- Read what follows the slashes before a host; also the text after it. -/
def afterSlashes (family : Family) (cs : List Char) : Except UrlFault (Authority × List Char) :=
  let (part, rest) := cs.span (!endsAuthority family ·)
  (readAuthority family part (rest ≠ [])).map fun authority => (authority, rest)

def isSlash (c : Char) : Bool := c == '/' || c == '\\'

/-- Read the host of a file URL from the text after its scheme; also the text after it. The local
host counts as none. -/
def fileHost (cs : List Char) : Except UrlFault (Authority × List Char) :=
  if (cs.take 2).length = 2 ∧ (cs.take 2).all isSlash then
    let (text, rest) := (cs.drop 2).span fun c => !isSlash c && c ≠ '?' && c ≠ '#'
    if text = [] ∨ Path.isDrive text then .ok ({}, cs.drop 2)
    else (Host.parse text).map fun host =>
      (if host = .domain ["localhost".toList] then {} else { host := some host }, rest)
  else .ok ({}, cs)

/-- Read what follows the scheme: the authority, if there is one, and the text after it. -/
def afterScheme (family : Family) (cs : List Char) : Except UrlFault (Authority × List Char) :=
  match family with
  | .web => afterSlashes .web (cs.dropWhile isSlash)
  | .file => fileHost cs
  | .other => if cs.take 2 = ['/', '/'] then afterSlashes .other (cs.drop 2) else .ok ({}, cs)

/-- The path of a URL without slashes at its start. Where no slash starts it, it is taken as it
is, unless the family has hosts. -/
def pathOf (family : Family) (cs : List Char) : List Char :=
  match family with
  | .web => Path.followed false isSlash cs
  | .file => Path.followed true isSlash cs
  | .other => if cs.head? = some '/' then Path.followed false (· == '/') cs else cs

def parse (text : String) : Except UrlFault Url :=
  match scheme? (clean text.toList) with
  | none => .error .noScheme
  | some (scheme, rest) =>
    let family := Family.of scheme
    (afterScheme family rest).map fun (authority, rest) =>
      let (path, query) := (rest.takeWhile (· ≠ '#')).span (· ≠ '?')
      ⟨scheme, authority, pathOf family path, query.drop 1⟩

end Url
end Shortlink
