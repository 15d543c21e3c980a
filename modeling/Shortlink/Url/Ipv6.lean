import Shortlink.Text.Hex
/-!
# IPv6 addresses

An address is eight pieces of up to four hexadecimal digits between colons. One run of pieces may be
left out between two colons, and the last two pieces may be written as an IPv4 address.
-/
namespace Shortlink.Ipv6

def piece (cs : List Char) : List Char := (cs.take 4).takeWhile fun c => (Hex.value? c).isSome

/-- One number of an IPv4 address: at most 255, without needless zeros. -/
def isByte (cs : List Char) : Bool :=
  match cs with
  | ['0'] => true
  | '0' :: _ => false
  | _ => cs ≠ [] && cs.all Char.isDigit && cs.length ≤ 3 &&
    cs.foldl (fun n c => 10 * n + (c.toNat - 48)) 0 < 256

def isQuad (cs : List Char) : Bool :=
  let parts := cs.splitOnP (· == '.')
  parts.length == 4 && parts.all isByte

/-- Whether the rest of an address is right after `count` pieces; `short` says whether pieces have
been left out. -/
def isRest (cs : List Char) (count : Nat) (short : Bool) : Bool :=
  match cs with
  | [] => short || count == 8
  | c :: rest =>
    if count = 8 then false
    else if c = ':' then !short && isRest rest (count + 1) true
    else
      let digits := piece (c :: rest)
      match h : (c :: rest).drop digits.length with
      | [] => short || count + 1 == 8
      | ':' :: after => !after.isEmpty && isRest after (count + 1) short
      | '.' :: _ => digits ≠ [] && isQuad (c :: rest) && (count == 6 || short && count < 6)
      | _ => false
termination_by cs.length
decreasing_by
  · simp
  · have := congrArg List.length h
    simp only [List.length_drop, List.length_cons] at this ⊢
    omega

def isAddress : List Char → Bool
  | ':' :: ':' :: rest => isRest rest 1 true
  | ':' :: _ => false
  | [_] => false
  | [] => false
  | cs => isRest cs 0 false

end Shortlink.Ipv6
