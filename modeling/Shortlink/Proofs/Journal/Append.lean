import Shortlink.Journal
import Shortlink.Proofs.Journal.Line
import Shortlink.Proofs.Text.Bytes
/-!
# Appending to a journal

A journal of whole lines takes further lines as they are, and an unfinished last line is ended first.
Either way, replaying the journal then applies these lines to what it held before.
-/
namespace Shortlink.Journal

def ofText (text : List Char) : Journal := ⟨Text.bytes text⟩

theorem table?_ofText (text : List Char) : (ofText text).table? = some (replay text) := by
  rw [table?, ofText, Text.fromUTF8?_bytes, Option.map_some, String.toList_ofList]

/-! ## Whole lines -/

theorem ended_written (ls : List JournalLine) : Text.Ended (written ls) := by
  induction ls with
  | nil => exact .inl rfl
  | cons l ls ih => exact Text.Ended.append (.inr ⟨l.encode, rfl⟩) ih

theorem entries_append {a : List Char} (h : Text.Ended a) (b : List Char) :
    entries (a ++ b) = entries a ++ entries b := by
  rw [entries, Text.lines_append_of_ended h, List.filterMap_append]
  rfl

theorem entries_written (ls : List JournalLine) : entries (written ls) = ls := by
  induction ls with
  | nil => rfl
  | cons l ls ih =>
    have first : entries (l.encode ++ ['\n']) = [l] := by
      rw [entries, lines_encode, List.filterMap_cons, line?_encode]
      rfl
    rw [written, List.flatMap_cons, entries_append (.inr ⟨l.encode, rfl⟩), first, ← written, ih]
    rfl

theorem replay_written (ls : List JournalLine) : replay (written ls) = ls.foldl LinkTable.apply {} := by
  rw [replay, replayFrom, entries_written]

theorem replay_of_entries {text more : List Char} {ls : List JournalLine}
    (added : entries (text ++ more) = entries text ++ ls) :
    replay (text ++ more) = ls.foldl LinkTable.apply (replay text) := by
  rw [replay, replayFrom, added, List.foldl_append]
  rfl

/-- Replaying whole lines and more text applies the lines of that text last. -/
theorem replay_append {a : List Char} (h : Text.Ended a) (b : List Char) :
    replay (a ++ b) = (entries b).foldl LinkTable.apply (replay a) :=
  replay_of_entries (entries_append h b)

theorem isTerminated_ofText {text : List Char} (h : Text.Ended text) :
    (ofText text).isTerminated = true := by
  rcases h with rfl | ⟨line, rfl⟩
  · rfl
  · have size : (Text.bytes (line ++ ['\n'])).size = (Text.bytes line).size + 1 := by
      rw [Text.bytes_append, ByteArray.size_append]
      rfl
    have inside : (Text.bytes line).size < (Text.bytes (line ++ ['\n'])).size := by omega
    have last : (Text.bytes (line ++ ['\n']))[(Text.bytes line).size] = 10 := by
      simp only [Text.bytes_append]
      rw [ByteArray.getElem_append_right (Nat.le_refl _)]
      simp only [Nat.sub_self]
      rfl
    rw [isTerminated, ofText]
    simp [size, last]

/-! ## Unfinished lines -/

/-- What ends an unfinished last line. -/
def gap (j : Journal) : List Char := if j.isTerminated then [] else ['\n']

/-- What is written to add lines to a journal. -/
def addition (j : Journal) (ls : List JournalLine) : List Char :=
  if ls = [] then [] else j.gap ++ written ls

theorem addition_of_ended {text : List Char} (h : Text.Ended text) (ls : List JournalLine) :
    (ofText text).addition ls = written ls := by
  rw [addition, gap, isTerminated_ofText h]
  split
  case isTrue nothing => rw [nothing]; rfl
  case isFalse => rfl

theorem append_ofText_eq (text : List Char) (ls : List JournalLine) :
    (ofText text).append ls = ofText (text ++ (ofText text).addition ls) := by
  rw [append, addition]
  split
  · rw [List.append_nil]
  · rw [ofText, ofText, Text.bytes_append, gap]
    rfl

theorem ended_of_isTerminated {text : List Char} (h : (ofText text).isTerminated = true) :
    Text.Ended text := by
  rw [isTerminated, Bool.or_eq_true] at h
  rcases h with empty | feed
  · exact .inl (Text.eq_nil_of_size_bytes (of_decide_eq_true empty))
  · exact .inr (Text.exists_line_of_last_byte (of_decide_eq_true feed))

theorem ended_addition (j : Journal) (ls : List JournalLine) : Text.Ended (j.addition ls) := by
  rw [addition]
  split
  · exact .inl rfl
  · rw [gap]
    split
    · exact ended_written ls
    · exact Text.Ended.append (.inr ⟨[], rfl⟩) (ended_written ls)

theorem addition_append (text : List Char) (as bs : List JournalLine) :
    (ofText text).addition (as ++ bs) =
      (ofText text).addition as ++ (ofText (text ++ (ofText text).addition as)).addition bs := by
  by_cases nothing : as = []
  · have same : (ofText text).addition as = [] := by rw [addition, if_pos nothing]
    rw [same, List.append_nil, nothing]
    rfl
  · have added : (ofText text).addition as = (ofText text).gap ++ written as := by
      rw [addition, if_neg nothing]
    have whole : Text.Ended (text ++ (ofText text).addition as) := by
      rw [added, gap]
      split
      case isTrue ended => exact (ended_of_isTerminated ended).append (ended_written as)
      case isFalse =>
        rw [← List.append_assoc]
        exact Text.Ended.append (.inr ⟨text, rfl⟩) (ended_written as)
    have both : as ++ bs ≠ [] := by simp [nothing]
    rw [addition_of_ended whole, added, addition, if_neg both, written, List.flatMap_append,
      List.append_assoc]
    rfl

theorem entries_append_gap (text more : List Char) :
    entries (text ++ ((ofText text).gap ++ more)) = entries text ++ entries more := by
  rw [gap]
  split
  case isTrue ended => exact entries_append (ended_of_isTerminated ended) more
  case isFalse =>
    have whole : Text.Ended (text ++ ['\n']) := .inr ⟨text, rfl⟩
    rw [← List.append_assoc, entries_append whole, entries_append_feed]

/-- A journal to which lines have been added says all that it said before, and then these lines. -/
theorem entries_addition (text : List Char) (ls : List JournalLine) :
    entries (text ++ (ofText text).addition ls) = entries text ++ ls := by
  rw [addition]
  split
  case isTrue nothing => rw [nothing, List.append_nil, List.append_nil]
  case isFalse => rw [entries_append_gap, entries_written]

/-- Replaying a journal to which lines have been added applies these lines last. -/
theorem replay_addition (text : List Char) (ls : List JournalLine) :
    replay (text ++ (ofText text).addition ls) = ls.foldl LinkTable.apply (replay text) :=
  replay_of_entries (entries_addition text ls)

end Shortlink.Journal
