import Shortlink.Text.Hex
import Shortlink.Text.Utf8
/-!
# Percent signs

A percent sign and two hexadecimal digits stand for a byte. In a query, a plus sign stands for a
blank.
-/
namespace Shortlink.Percent

/-- Replace each percent sign followed by two digits by the byte that the digits denote. -/
def decodeBytes : List UInt8 → List UInt8
  | 37 :: high :: low :: rest =>
    match Hex.value? (Char.ofNat high.toNat), Hex.value? (Char.ofNat low.toNat) with
    | some h, some l => UInt8.ofNat (16 * h.val + l.val) :: decodeBytes rest
    | _, _ => 37 :: decodeBytes (high :: low :: rest)
  | b :: rest => b :: decodeBytes rest
  | [] => []

def decode (cs : List Char) : List UInt8 := decodeBytes (Utf8.encode cs)

def decodeQuery (cs : List Char) : String :=
  String.ofList (Utf8.decode (decode (cs.map fun c => if c = '+' then ' ' else c)))

end Shortlink.Percent
