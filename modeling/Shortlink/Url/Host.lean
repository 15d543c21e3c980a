import Shortlink.Idna
import Shortlink.Text.Percent
import Shortlink.Url.Ipv4
import Shortlink.Url.Ipv6
/-!
# URLs: hosts

A host is an address or a name. Names of web hosts are percent-decoded and go through the rules for
international names; other names are taken as they are.
-/
namespace Shortlink

inductive UrlFault where
  | emptyHost
  | internationalName
  | portNumber
  | ipv4Address
  | ipv6Address
  | hostCharacter
  | noScheme
deriving DecidableEq

def UrlFault.message : UrlFault → String
  | emptyHost => "empty host"
  | internationalName => "invalid international domain name"
  | portNumber => "invalid port number"
  | ipv4Address => "invalid IPv4 address"
  | ipv6Address => "invalid IPv6 address"
  | hostCharacter => "invalid domain character"
  | noScheme => "relative URL without a base"

inductive Host where
  /-- The labels of a name, in Unicode. -/
  | domain (labels : List (List Char))
  | ipv4 (address : Nat)
  | ipv6 (text : List Char)
  /-- A name to which no rules for names apply. -/
  | verbatim (text : List Char)
deriving DecidableEq

namespace Host

def isDelimiter (c : Char) : Bool := " #/:<>?@[\\]^|".toList.contains c

def isForbidden (c : Char) : Bool :=
  c.toNat < 32 || c.toNat == 127 || c == '%' || isDelimiter c

def bracketed (text : List Char) : Except UrlFault Host :=
  if text.getLast? = some ']' ∧ Ipv6.isAddress text.dropLast then .ok (.ipv6 text.dropLast)
  else .error .ipv6Address

/-- A host of labels: an address if its last label is a number, else a name. -/
def ofLabels (labels : List (List Char)) : Except UrlFault Host :=
  if labels = [[]] then .error .emptyHost
  else if Ipv4.isMeant labels then
    match Ipv4.parse? labels with
    | some address => .ok (.ipv4 address)
    | none => .error .ipv4Address
  else .ok (.domain labels)

def parse (text : List Char) : Except UrlFault Host :=
  match text with
  | '[' :: inner => bracketed inner
  | _ =>
    match (String.fromUTF8? ⟨(Percent.decode text).toArray⟩).bind fun s => Idna.labels? isForbidden s.toList with
    | some labels => ofLabels labels
    | none => .error .internationalName

def parseVerbatim (text : List Char) : Except UrlFault Host :=
  match text with
  | '[' :: inner => bracketed inner
  | _ =>
    if text.any fun c => isDelimiter c || c == '\x00' then .error .hostCharacter
    else .ok (.verbatim text)

end Host
end Shortlink
