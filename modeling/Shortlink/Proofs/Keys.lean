import Mathlib.Data.List.TakeDrop
import Shortlink.Proofs.Text.Bytes
import Shortlink.Service
/-!
# Two kinds of keys

A URL that the service takes has a colon, and no code has one: a key is never both. Codes that are
made pass the check for codes that callers send.
-/
namespace Shortlink

namespace Url

private theorem mem_of_mem_clean {c : Char} {cs : List Char} (h : c ∈ clean cs) : c ∈ cs := by
  simp only [clean, List.mem_filter, List.mem_reverse] at h
  have inner := (List.dropWhile_sublist _).subset h.1
  exact (List.dropWhile_sublist _).subset (List.mem_reverse.mp inner)

private theorem colon_mem_of_scheme? {cs : List Char} {r : List Char × List Char}
    (h : scheme? cs = some r) : ':' ∈ cs := by
  rw [scheme?, List.span_eq_takeWhile_dropWhile] at h
  split at h
  case h_1 c name rest split =>
    have after : cs.dropWhile isSchemeChar = ':' :: rest := (Prod.mk.inj split).2
    exact (List.dropWhile_sublist _).subset (after ▸ List.mem_cons_self)
  case h_2 => simp at h

private theorem colon_mem_of_parse {text : String} {url : Url} (h : parse text = .ok url) :
    ':' ∈ text.toList := by
  rw [parse] at h
  cases scheme : scheme? (clean text.toList) with
  | none => simp [scheme] at h
  | some r => exact mem_of_mem_clean (colon_mem_of_scheme? scheme)

end Url

private theorem Base64Url.lt_of_isDigit {c : Char} (h : isDigit c = true) : c.toNat < 128 := by
  have below {last : Char} (small : last.toNat < 128) (bound : c.val ≤ last.val) : c.toNat < 128 :=
    Nat.lt_of_le_of_lt (UInt32.le_iff_toNat_le.mp bound) small
  have kinds : (c.isUpper || c.isLower || c.isDigit || c == '-' || c == '_') = true := h
  simp only [Bool.or_eq_true, beq_iff_eq] at kinds
  rcases kinds with (((upper | lower) | figure) | rfl) | rfl
  · have range : 'A'.val ≤ c.val ∧ c.val ≤ 'Z'.val := of_decide_eq_true upper
    exact below (by decide) range.2
  · have range := (Bool.and_eq_true_iff.mp lower).2
    exact below (by decide) (of_decide_eq_true range)
  · have range := (Bool.and_eq_true_iff.mp figure).2
    exact below (by decide) (of_decide_eq_true range)
  · decide
  · decide

namespace ShortCode

private theorem parse_of_digits {text : String} (length : text.toList.length = size)
    (digits : ∀ c ∈ text.toList, Base64Url.isDigit c = true) : parse text = .ok ⟨text⟩ := by
  have ascii : ∀ c ∈ text.toList, c.toNat < 128 := fun c hc => Base64Url.lt_of_isDigit (digits c hc)
  have bytes := Text.size_bytes_ascii ascii
  rw [length, Text.bytes, String.ofList_toList] at bytes
  have size : text.utf8ByteSize = size := bytes
  have accepted : fault? text = none := by
    rw [fault?, if_neg (by simp [size]), if_pos (List.all_eq_true.mpr digits)]
  rw [parse, accepted]

/-- Codes that are made are accepted from callers. -/
theorem parse_ofUrl (url : String) : parse (ofUrl url).text = .ok (ofUrl url) :=
  parse_of_digits (length_ofUrl url) fun _ => isDigit_of_mem_ofUrl

theorem parse_take_encode {digest : List UInt8} (long : 6 ≤ digest.length) :
    parse (String.ofList ((Base64Url.encode digest).take size)) =
      .ok ⟨String.ofList ((Base64Url.encode digest).take size)⟩ := by
  apply parse_of_digits
  · rw [String.toList_ofList, List.length_take, Base64Url.length_encode, size]
    omega
  · intro c hc
    rw [String.toList_ofList] at hc
    exact Base64Url.isDigit_of_mem_encode (List.mem_of_mem_take hc)

private theorem isDigit_of_parse {text : String} {code : ShortCode} (h : parse text = .ok code)
    {c : Char}
    (hc : c ∈ text.toList) : Base64Url.isDigit c = true := by
  rw [parse, fault?] at h
  split at h
  case h_2 => contradiction
  case h_1 accepted =>
    split at accepted
    · contradiction
    · split at accepted
      case isTrue digits => exact List.all_eq_true.mp digits c hc
      case isFalse => contradiction

theorem text_of_parse {text : String} {code : ShortCode} (h : parse text = .ok code) :
    code.text = text := by
  rw [parse] at h
  cases fault : fault? text with
  | none =>
    rw [fault] at h
    exact (congrArg ShortCode.text (Except.ok.inj h)).symm
  | some fault => simp [fault] at h

end ShortCode

/-- A URL that is taken is no code. -/
theorem Service.parse_ne_ok_of_checkUrl {url : String} (h : checkUrl url = .ok ()) (code : ShortCode) :
    ShortCode.parse url ≠ .ok code := by
  intro accepted
  rw [checkUrl] at h
  cases parsed : Url.parse url with
  | error fault => simp [parsed] at h
  | ok _ =>
    exact absurd (ShortCode.isDigit_of_parse accepted (Url.colon_mem_of_parse parsed)) (by decide)

theorem Service.ne_code_of_checkUrl {url : String} (h : checkUrl url = .ok ()) (other : String) :
    (ShortCode.ofUrl other).text ≠ url := by
  rintro rfl
  exact parse_ne_ok_of_checkUrl h _ (ShortCode.parse_ofUrl other)

end Shortlink
