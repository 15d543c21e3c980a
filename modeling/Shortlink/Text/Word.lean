/-!
# Numbers of limited size

A number in decimal figures, which may have a plus sign in front. The first character that is wrong
decides what is wrong with a text.
-/
namespace Shortlink.Text

def wordLimit : Nat := 18446744073709551616

inductive WordFault where
  | empty
  | figure
  | tooLarge
deriving DecidableEq

def WordFault.message : WordFault → String
  | empty => "cannot parse integer from empty string"
  | figure => "invalid digit found in string"
  | tooLarge => "number too large to fit in target type"

/-- Read the figures after those that denote `n`, up to a limit that does not fit. -/
def numberFrom (limit n : Nat) : List Char → Except WordFault Nat
  | [] => .ok n
  | c :: rest =>
    if ¬ c.isDigit then .error .figure
    else if limit ≤ 10 * n + (c.toNat - 48) then .error .tooLarge
    else numberFrom limit (10 * n + (c.toNat - 48)) rest

def number (limit : Nat) : List Char → Except WordFault Nat
  | [] => .error .empty
  | ['+'] => .error .figure
  | '+' :: rest => numberFrom limit 0 rest
  | cs => numberFrom limit 0 cs

def word (cs : List Char) : Except WordFault Nat := number wordLimit cs

end Shortlink.Text
