import Shortlink.Text.Quoted
import Shortlink.Text.Word
import Shortlink.Url
import Shortlink.Url.Query
/-!
# Addresses of databases

A database is named by a URL with a user, a password, a host, and the name of the database as its
path. The query holds options. What cannot be understood is refused before a connection is tried.
-/
namespace Shortlink.Sql.Address

inductive Fault where
  | url (cause : UrlFault)
  /-- The bytes of a name are no text. -/
  | text (cause : Utf8.Fault)
  | encryption (mode : String)
  | number (cause : Text.WordFault)
  | ipAddress
deriving DecidableEq

def Fault.message : Fault → String
  | url cause => cause.message
  | text cause => cause.message
  | encryption mode =>
    s!"error with configuration: unknown value {Text.quoted mode} for `ssl_mode`"
  | number cause => cause.message
  | ipAddress => "invalid IP address syntax"

/-- Whether encryption is used, and what is checked then. -/
def encryptionModes : List String :=
  ["disable", "allow", "prefer", "require", "verify-ca", "verify-full"]

def checkText (cs : List Char) : Except Fault Unit :=
  match Utf8.fault? (Percent.decode cs) with
  | none => .ok ()
  | some fault => .error (.text fault)

def checkHost : Option Host → Except Fault Unit
  | some (.verbatim text) =>
    if (Percent.decode text).head? = some 47 then checkText text else .ok ()
  | _ => .ok ()

def checkNumber (limit : Nat) (value : String) : Except Fault Unit :=
  match Text.number limit value.toList with
  | .ok _ => .ok ()
  | .error fault => .error (.number fault)

/-- The values of some options must be well-formed; other options are free. -/
def checkOption (name value : String) : Except Fault Unit :=
  if name = "sslmode" ∨ name = "ssl-mode" then
    if encryptionModes.contains value.toLower then .ok () else .error (.encryption value)
  else if name = "statement-cache-capacity" then checkNumber Text.wordLimit value
  else if name = "port" then checkNumber 65536 value
  else if name = "hostaddr" then
    if Ipv6.isQuad value.toList || Ipv6.isAddress value.toList then .ok () else .error .ipAddress
  else .ok ()

def checkOptions : List (String × String) → Except Fault Unit
  | [] => .ok ()
  | (name, value) :: rest =>
    match checkOption name value with
    | .ok () => checkOptions rest
    | .error fault => .error fault

def check (address : String) : Except Fault Unit :=
  match Url.parse address with
  | .error cause => .error (.url cause)
  | .ok url => do
    checkHost url.authority.host
    checkText url.authority.user
    checkText url.authority.password
    checkText url.path
    checkOptions (Query.pairs url.query)

end Shortlink.Sql.Address
