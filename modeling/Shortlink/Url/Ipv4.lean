import Shortlink.Text.Hex
/-!
# IPv4 addresses

An address is one to four numbers between dots, each in decimal, octal or hexadecimal. The last
number fills all bytes that the others leave.
-/
namespace Shortlink.Ipv4

def figure? (radix : Nat) (c : Char) : Option Nat :=
  (Hex.value? c).bind fun d => if d.val < radix then some d.val else none

def figures? (radix : Nat) (cs : List Char) : Option Nat :=
  cs.foldl (fun n c => do return radix * (← n) + (← figure? radix c)) (some 0)

/-- One number of an address. A leading `0x` means hexadecimal and a leading `0` octal; no figures
may follow either. -/
def number? : List Char → Option Nat
  | [] => none
  | '0' :: 'x' :: cs => figures? 16 cs
  | '0' :: 'X' :: cs => figures? 16 cs
  | '0' :: c :: cs => figures? 8 (c :: cs)
  | cs => figures? 10 cs

def significant (labels : List (List Char)) : List (List Char) :=
  if labels.getLast? = some [] then labels.dropLast else labels

/-- Whether the labels of a name are meant as an address: the last one is a number. -/
def isMeant (labels : List (List Char)) : Bool :=
  match (significant labels).getLast? with
  | some cs => (cs ≠ [] ∧ cs.all Char.isDigit) || (number? cs).isSome
  | none => false

/-- The address whose first bytes and last number are given. -/
def assemble? (bytes : List Nat) (last : Nat) : Option Nat :=
  let room := Nat.pow 256 (4 - bytes.length)
  if bytes.length ≤ 3 ∧ last < room ∧ bytes.all (· < 256) then
    some (bytes.foldl (fun n b => 256 * n + b) 0 * room + last)
  else none

def parse? (labels : List (List Char)) : Option Nat :=
  ((significant labels).mapM number?).bind fun numbers =>
    numbers.getLast?.bind (assemble? numbers.dropLast)

end Shortlink.Ipv4
