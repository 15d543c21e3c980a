import Shortlink.Text.Hex
import Shortlink.Unicode.Printable
/-!
# Quoted texts

A text between double quotes, in which every character can be seen: quotes and backslashes get a
backslash, a few control characters are named by letters, and all others that cannot be seen by
their numbers.
-/
namespace Shortlink.Text

def quotedChar (c : Char) : List Char :=
  if c = '"' ∨ c = '\\' then ['\\', c]
  else if c = '\x00' then ['\\', '0']
  else if c = '\t' then ['\\', 't']
  else if c = '\n' then ['\\', 'n']
  else if c = '\r' then ['\\', 'r']
  else if Unicode.isPrintable c then [c]
  else ['\\', 'u', '\x7b'] ++ Nat.toDigits 16 c.toNat ++ ['\x7d']

def quoted (s : String) : String := String.ofList ('"' :: s.toList.flatMap quotedChar ++ ['"'])

end Shortlink.Text
