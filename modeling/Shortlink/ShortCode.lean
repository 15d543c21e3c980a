import Shortlink.Digest.Base64Url
import Shortlink.Digest.Md5
import Shortlink.Error
/-!
# Short codes

A code is derived from the digest of its URL, so one URL always has one code. Main statement:
every derived code passes the check that codes from callers have to pass.
-/
namespace Shortlink

/-- The short name of a link. Codes read back from a store are taken as they are; codes that
callers send go through `ShortCode.parse`. -/
structure ShortCode where
  text : String
deriving DecidableEq, Inhabited

namespace ShortCode

def size : Nat := 8

instance : ToString ShortCode := ⟨text⟩

/-- The first characters of the encoded digest of the URL's bytes. -/
def ofUrl (url : String) : ShortCode :=
  ⟨String.ofList ((Base64Url.encode (Md5.digest url.toUTF8.data.toList)).take size)⟩

inductive Fault where
  | length (bytes : Nat)
  | alphabet (text : String)
deriving DecidableEq

def Fault.reason : Fault → String
  | .length bytes => s!"length must be {size}, got {bytes}"
  | .alphabet text => s!"must contain only url-safe base64 characters: '{text}'"

/-- A code has exactly eight bytes, all of them characters of the alphabet. -/
def fault? (text : String) : Option Fault :=
  if text.utf8ByteSize ≠ size then some (.length text.utf8ByteSize)
  else if text.toList.all Base64Url.isDigit then none
  else some (.alphabet text)

def parse (text : String) : Except InputError ShortCode :=
  match fault? text with
  | none => .ok ⟨text⟩
  | some fault => .error (.shortCode fault.reason)

def trimSlashes (s : String) : String :=
  String.ofList ((s.toList.reverse.dropWhile (· == '/')).reverse)

def toUrl (code : ShortCode) (base : String) : String :=
  s!"{trimSlashes base}/{code.text}"

/-- Codes are ordered by their characters. -/
instance : LE ShortCode := ⟨fun a b => ¬ b.text < a.text⟩

instance (a b : ShortCode) : Decidable (a ≤ b) := inferInstanceAs (Decidable (¬ b.text < a.text))

theorem length_ofUrl (url : String) : (ofUrl url).text.toList.length = size := by
  simp [ofUrl, Base64Url.length_encode, size]

theorem isDigit_of_mem_ofUrl {url : String} {c : Char} (h : c ∈ (ofUrl url).text.toList) :
    Base64Url.isDigit c = true := by
  simp only [ofUrl, String.toList_ofList] at h
  exact Base64Url.isDigit_of_mem_encode (List.mem_of_mem_take h)

end ShortCode
end Shortlink
