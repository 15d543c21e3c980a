import Shortlink.Proofs.Journal.Append
/-!
# Additions that are cut short

Of lines that have been added in part those count that are there as a whole, with the line feed after
them or without it. The part of a line that is left over counts for nothing.
-/
namespace Shortlink.Journal

/-- The lines that lie within so many bytes. The line feed after the last one may be missing. -/
def present : Nat → List JournalLine → List JournalLine
  | _, [] => []
  | n, l :: rest =>
    let size := (Text.bytes l.encode).size
    if size ≤ n then l :: present (n - (size + 1)) rest else []

private theorem size_pos {cs : List Char} (h : cs ≠ []) : 0 < (Text.bytes cs).size :=
  Nat.pos_of_ne_zero fun empty => h (Text.eq_nil_of_size_bytes empty)

theorem encode_ne_nil (l : JournalLine) : l.encode ≠ [] := by
  simp [JournalLine.encode, Json.Form.toJson, Json.ofFields, Json.compact]

private theorem present_zero (ls : List JournalLine) : present 0 ls = [] := by
  cases ls with
  | nil => rfl
  | cons l rest =>
    have long := size_pos (encode_ne_nil l)
    rw [present]
    exact if_neg (by omega)

private theorem entries_start {l : JournalLine} {part missing : List Char}
    (cut : l.encode = part ++ missing) : entries part = (line? part).toList := by
  have printed : ∀ c ∈ part, 32 ≤ c.toNat := fun c hc =>
    l.le_of_mem_encode (cut ▸ List.mem_append_left missing hc)
  exact entries_line fun feed => absurd (printed _ feed) (by decide)

theorem entries_encode (l : JournalLine) : entries l.encode = [l] := by
  rw [entries_start (List.append_nil l.encode).symm, line?_encode]
  rfl

theorem present_encode (l : JournalLine) (rest : List JournalLine) :
    present (Text.bytes l.encode).size (l :: rest) = [l] := by
  simp [present, present_zero]

private theorem entries_short {l : JournalLine} {part missing : List Char}
    (short : l.encode = part ++ missing) (proper : missing ≠ []) (rest : List JournalLine) :
    entries part = present (Text.bytes part).size (l :: rest) := by
  have size : (Text.bytes l.encode).size = (Text.bytes part).size + (Text.bytes missing).size := by
    rw [short, Text.bytes_append, ByteArray.size_append]
  have long := size_pos proper
  rw [entries_start short, line?_of_cut short proper, present, if_neg (by omega)]
  rfl

private theorem entries_long (l : JournalLine) {more : List Char} {rest : List JournalLine}
    (behind : entries more = present (Text.bytes more).size rest) :
    entries (l.encode ++ '\n' :: more) =
      present (Text.bytes (l.encode ++ '\n' :: more)).size (l :: rest) := by
  have parts : l.encode ++ '\n' :: more = written [l] ++ more := by simp [written]
  have size : (Text.bytes (written [l] ++ more)).size =
      (Text.bytes l.encode).size + 1 + (Text.bytes more).size := by
    simp only [written, List.flatMap_cons, List.flatMap_nil, List.append_nil,
      Text.bytes_append, ByteArray.size_append]
    rfl
  rw [parts, entries_append (ended_written [l]), entries_written, behind, size, present]
  rw [if_pos (by omega), Nat.add_sub_cancel_left]
  rfl

private theorem entries_part {ls : List JournalLine} {part missing : List Char}
    (cut : written ls = part ++ missing) :
    entries part = present (Text.bytes part).size ls := by
  induction ls generalizing part with
  | nil =>
    have nothing : part = [] := (List.append_eq_nil_iff.mp cut.symm).1
    rw [nothing]
    rfl
  | cons l rest ih =>
    have whole : written (l :: rest) = l.encode ++ '\n' :: written rest := by
      simp [written]
    rw [whole, List.append_eq_append_iff] at cut
    -- the first line is there as a whole, or else the cut falls into it
    rcases cut with ⟨more, rfl, onward⟩ | ⟨lacking, short, -⟩
    · cases more with
      | nil => rw [List.append_nil, entries_encode, present_encode]
      | cons c more =>
        rw [List.cons_append] at onward
        obtain ⟨rfl, behind⟩ := List.cons.inj onward
        exact entries_long l (ih behind)
    · cases lacking with
      | nil =>
        rw [List.append_nil] at short
        rw [← short, entries_encode, present_encode]
      | cons c lacking => exact entries_short short (List.cons_ne_nil c lacking) rest

private theorem entries_append_part {text : List Char} {ls : List JournalLine}
    {part missing : List Char} (cut : (ofText text).addition ls = part ++ missing) :
    entries (text ++ part) =
      entries text ++ present ((Text.bytes part).size - (ofText text).gap.length) ls := by
  rw [addition] at cut
  split at cut
  case isTrue none =>
    have nothing : part = [] := (List.append_eq_nil_iff.mp cut.symm).1
    rw [nothing, none, List.append_nil]
    exact (List.append_nil _).symm
  case isFalse =>
    rw [gap] at cut ⊢
    split at cut
    case isTrue ended =>
      rw [entries_append (ended_of_isTerminated ended), entries_part cut, if_pos ended]
      rfl
    case isFalse unended =>
      rw [if_neg unended]
      -- the first byte that is written ends the old last line and belongs to none of the new ones
      cases part with
      | nil =>
        rw [List.append_nil]
        simp [Text.bytes, present_zero]
      | cons c part =>
        obtain ⟨rfl, onward⟩ := List.cons.inj cut
        have behind := entries_append_gap text part
        rw [gap, if_neg unended] at behind
        have size : (Text.bytes ('\n' :: part)).size = 1 + (Text.bytes part).size := by
          rw [← List.singleton_append, Text.bytes_append, ByteArray.size_append]
          rfl
        rw [← List.singleton_append, behind, entries_part onward, List.singleton_append, size]
        simp

/-- Replaying a journal to which a part of an addition has been added applies the lines that are
there as a whole. -/
theorem replay_part {text : List Char} {ls : List JournalLine} {part missing : List Char}
    (cut : (ofText text).addition ls = part ++ missing) :
    replay (text ++ part) =
      (present ((Text.bytes part).size - (ofText text).gap.length) ls).foldl LinkTable.apply
        (replay text) :=
  replay_of_entries (entries_append_part cut)

end Shortlink.Journal
