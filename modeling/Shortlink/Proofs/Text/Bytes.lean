/-!
# Texts as bytes

A text is found again in its bytes, and the bytes of texts one after another are the bytes of the
whole text. A character of the ASCII range is one byte, and no other character ends in such a byte.
Where bytes are cut and the first part is text, the cut falls between two characters.
-/
namespace Shortlink.Text

def bytes (cs : List Char) : ByteArray := (String.ofList cs).toUTF8

theorem bytes_append (a b : List Char) : bytes (a ++ b) = bytes a ++ bytes b := by
  simp [bytes]

theorem eq_nil_of_size_bytes {cs : List Char} (h : (bytes cs).size = 0) : cs = [] := by
  have empty : String.ofList cs = "" := String.utf8ByteSize_eq_zero_iff.mp h
  rwa [String.ofList_eq_empty_iff] at empty

theorem fromUTF8?_bytes (cs : List Char) : String.fromUTF8? (bytes cs) = some (String.ofList cs) := by
  have valid : ByteArray.IsValidUTF8 (bytes cs) := (String.ofList cs).isValidUTF8
  rw [String.fromUTF8?, dif_pos (by simpa using valid)]
  rfl

theorem bytes_inj {a b : List Char} (same : bytes a = bytes b) : a = b := by
  have found := fromUTF8?_bytes a
  rw [same, fromUTF8?_bytes b, Option.some.injEq] at found
  exact (String.ofList_injective found).symm

theorem size_bytes_ascii {cs : List Char} (h : ∀ c ∈ cs, c.toNat < 128) :
    (bytes cs).size = cs.length := by
  induction cs with
  | nil => rfl
  | cons c cs ih =>
    have one : c.utf8Size = 1 := by
      have small := h c List.mem_cons_self
      rw [Char.utf8Size_eq_one_iff, UInt32.le_iff_toNat_le]
      exact Nat.le_of_lt_succ small
    have rest := ih fun d hd => h d (List.mem_cons_of_mem c hd)
    rw [show c :: cs = [c] ++ cs from rfl, bytes_append, ByteArray.size_append, rest]
    simp [bytes, List.utf8Encode_singleton, one]
    omega

theorem isValidUTF8_bytes (cs : List Char) : (bytes cs).IsValidUTF8 :=
  (String.ofList cs).isValidUTF8

theorem exists_eq_bytes {b : ByteArray} (valid : b.IsValidUTF8) : ∃ cs, b = bytes cs := by
  refine ⟨(String.ofByteArray b valid).toList, ?_⟩
  rw [bytes, String.ofList_toList]
  rfl

theorem fromUTF8?_eq_none {b : ByteArray} (invalid : ¬b.IsValidUTF8) :
    String.fromUTF8? b = none := by
  rw [String.fromUTF8?, dif_neg (by simpa using invalid)]

private theorem exists_part_of_isValidUTF8 {cs : List Char} {n : Nat}
    (valid : ((bytes cs).extract 0 n).IsValidUTF8) :
    ∃ part missing, cs = part ++ missing ∧ (bytes cs).extract 0 n = bytes part := by
  by_cases inside : n ≤ (bytes cs).size
  · have place : String.Pos.Raw.IsValid (String.ofList cs) ⟨n⟩ :=
      String.Pos.Raw.isValid_iff_isValidUTF8_extract_zero.mpr ⟨inside, valid⟩
    obtain ⟨first, second, split, here⟩ := String.Pos.Raw.isValid_iff_exists_append.mp place
    have size : n = (bytes first.toList).size := by
      have index := congrArg String.Pos.Raw.byteIdx here
      simpa [bytes] using index
    have parts : cs = first.toList ++ second.toList := by
      rw [← String.toList_append, ← split, String.toList_ofList]
    refine ⟨first.toList, second.toList, parts, ?_⟩
    rw [parts, bytes_append, size, ByteArray.extract_append_eq_left rfl]
  · refine ⟨cs, [], (List.append_nil cs).symm, ?_⟩
    have beyond : n = max n (bytes cs).size := by omega
    rw [beyond, ByteArray.extract_zero_max_size]

/-- Where bytes are cut behind some text and what is left is text, the cut falls between two characters. -/
theorem exists_part_behind {a b : List Char} {n : Nat} (inside : n ≤ (bytes b).size)
    (valid : ((bytes (a ++ b)).extract 0 ((bytes a).size + n)).IsValidUTF8) :
    ∃ part missing, b = part ++ missing ∧ (bytes part).size = n ∧
      (bytes (a ++ b)).extract 0 ((bytes a).size + n) = bytes (a ++ part) := by
  obtain ⟨part, missing, split, same⟩ := exists_part_of_isValidUTF8 valid
  have size : (bytes part).size = (bytes a).size + n := by
    rw [← same, bytes_append, ByteArray.size_extract, ByteArray.size_append]
    omega
  rcases List.append_eq_append_iff.mp split with ⟨more, rfl, cut⟩ | ⟨rest, rfl, cut⟩
  · rw [bytes_append, ByteArray.size_append] at size
    exact ⟨more, missing, cut, by omega, same⟩
  · rw [bytes_append, ByteArray.size_append] at size
    have nothing : rest = [] := eq_nil_of_size_bytes (by omega)
    have zero : n = 0 := by omega
    refine ⟨[], b, rfl, zero.symm, ?_⟩
    rw [same, nothing, List.append_nil, List.append_nil]

/-- A cut inside a character leaves bytes that are no text. -/
theorem not_isValidUTF8_of_cut {a b : List Char} {c : Char} {n : Nat} (begun : (bytes a).size < n)
    (short : n < (bytes a).size + c.utf8Size) :
    ¬((bytes (a ++ c :: b)).extract 0 n).IsValidUTF8 := by
  intro valid
  have first : ∀ cs, (bytes (c :: cs)).size = c.utf8Size + (bytes cs).size := by
    intro cs
    rw [← List.singleton_append, bytes_append, ByteArray.size_append]
    simp [bytes, List.utf8Encode_singleton]
  obtain ⟨k, rfl⟩ := Nat.exists_eq_add_of_le (Nat.le_of_lt begun)
  have inside : k ≤ (bytes (c :: b)).size := by
    rw [first]
    omega
  obtain ⟨part, missing, split, size, -⟩ := exists_part_behind inside valid
  cases part with
  | nil =>
    have none : (bytes []).size = 0 := rfl
    omega
  | cons d part =>
    obtain ⟨rfl, -⟩ := List.cons.inj split
    rw [first] at size
    omega

private theorem feed_of_encode {c : Char} {k : Nat} (inside : k < (String.utf8EncodeChar c).length)
    (feed : (String.utf8EncodeChar c)[k] = 10) (last : (String.utf8EncodeChar c).length = k + 1) :
    c = '\n' := by
  have first : UInt8.IsUTF8FirstByte ((String.utf8EncodeChar c)[k]) := by
    rw [feed]
    decide
  -- a first byte stands at the front, so the character is one byte
  rw [UInt8.isUTF8FirstByte_getElem_utf8EncodeChar] at first
  subst first
  rw [String.length_utf8EncodeChar] at last
  simp only [String.utf8EncodeChar_eq_singleton last, List.getElem_singleton] at feed
  have byte := congrArg UInt8.toNat feed
  have small := Char.utf8Size_eq_one_iff.mp last
  rw [UInt32.toNat_toUInt8] at byte
  rw [UInt32.le_iff_toNat_le] at small
  apply Char.ext
  rw [← UInt32.toNat_inj]
  change _ = 10 at byte
  change _ ≤ 127 at small
  change _ = 10
  omega

theorem exists_line_of_last_byte {cs : List Char}
    (feed : (bytes cs)[(bytes cs).size - 1]? = some 10) : ∃ line, cs = line ++ ['\n'] := by
  rcases List.eq_nil_or_concat cs with rfl | ⟨line, c, rfl⟩
  · cases feed
  · rw [List.concat_eq_append] at feed ⊢
    have encoded : bytes [c] = (String.utf8EncodeChar c).toByteArray := by
      rw [← List.utf8Encode_singleton]
      rfl
    have long : 0 < (String.utf8EncodeChar c).length :=
      List.length_pos_iff.mpr String.utf8EncodeChar_ne_nil
    obtain ⟨inside, byte⟩ := getElem?_eq_some_iff.mp feed
    simp only [bytes_append, encoded] at byte inside
    rw [ByteArray.getElem_append_right
      (by rw [ByteArray.size_append, List.size_toByteArray]; omega)] at byte
    simp only [List.getElem_toByteArray] at byte
    have last : (String.utf8EncodeChar c).length =
        (bytes line ++ (String.utf8EncodeChar c).toByteArray).size - 1 - (bytes line).size + 1 := by
      rw [ByteArray.size_append, List.size_toByteArray]
      omega
    rw [feed_of_encode _ byte last]
    exact ⟨line, rfl⟩

end Shortlink.Text
