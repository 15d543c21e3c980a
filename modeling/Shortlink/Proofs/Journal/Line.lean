import Shortlink.Journal.Replay
import Shortlink.Proofs.Json.Extent
import Shortlink.Proofs.Text.Lines
import Shortlink.Proofs.Uuid
/-!
# Reading journal lines back

Every journal line fits on one line of text and is read back from it, whatever its texts hold. Of a
line that is cut short nothing is read.
-/
namespace Shortlink
open Json

namespace JournalLine

theorem isPlain_toJson (l : JournalLine) : (Form.toJson l : Json).isPlain = true := by
  obtain ⟨owner, url, code, deleted⟩ := l
  cases owner <;> cases deleted <;>
    simp [Form.toJson, ofFields, ofText, isPlain, membersPlain]

theorem ofJson?_toJson (l : JournalLine) : Form.ofJson? (Form.toJson l) = some l := by
  obtain ⟨owner, url, code, deleted⟩ := l
  cases owner <;> cases deleted <;>
    simp [Form.toJson, Form.ofJson?, ofFields, ofText, fields?, member?, lookup?, text?, bool?,
      Uuid.parse_toString, Except.toOption]

theorem decode?_encode (l : JournalLine) : decode? l.encode = some l := by
  rw [decode?, encode, parse?_compact l.isPlain_toJson, Option.bind_some, ofJson?_toJson]

theorem le_of_mem_encode (l : JournalLine) {c : Char} (h : c ∈ l.encode) : 32 ≤ c.toNat :=
  le_of_mem_compact (Form.toJson l) h

theorem isBlank_encode (l : JournalLine) : Text.isBlank l.encode = false := by
  have brace : Text.isBlankChar '\x7b' = false := by decide
  simp [encode, Form.toJson, ofFields, compact, Text.isBlank, brace]

end JournalLine

namespace Journal

theorem line?_encode (l : JournalLine) : line? l.encode = some l := by
  rw [line?, l.isBlank_encode, if_neg (by decide), l.decode?_encode]

theorem lines_encode (l : JournalLine) : Text.lines (l.encode ++ ['\n']) = [l.encode] := by
  refine Text.lines_line (fun feed => ?_) (fun back => ?_)
  · exact absurd (l.le_of_mem_encode feed) (by decide)
  · exact absurd (l.le_of_mem_encode back) (by decide)

/-! ## Unfinished lines -/

theorem line?_of_cut {l : JournalLine} {part missing : List Char}
    (cut : l.encode = part ++ missing) (proper : missing ≠ []) : line? part = none := by
  rw [line?]
  split
  · rfl
  · rw [JournalLine.decode?, parse?_of_cut l.isPlain_toJson cut proper, Option.bind_none]

/-- A carriage return is white space to a line, whether it belongs to the line end or not. -/
theorem line?_append_carriage (cs : List Char) : line? (cs ++ ['\r']) = line? cs := by
  have blank : Text.isBlank (cs ++ ['\r']) = Text.isBlank cs := by
    rw [Text.isBlank, List.all_append]
    exact Bool.and_true _
  rw [line?, line?, blank, JournalLine.decode?, JournalLine.decode?, parse?_append_space rfl]

private theorem line?_endedLine (acc : List Char) :
    line? (Text.endedLine acc) = line? acc.reverse := by
  rw [Text.endedLine.eq_def]
  split
  · rw [List.reverse_cons, line?_append_carriage]
  · rfl

theorem entries_append_feed (text : List Char) : entries (text ++ ['\n']) = entries text := by
  suffices gathered : ∀ acc, (Text.linesFrom acc (text ++ ['\n'])).filterMap line? =
      (Text.linesFrom acc text).filterMap line? from gathered []
  induction text with
  | nil =>
    intro acc
    cases acc with
    | nil => rfl
    | cons c acc =>
      rw [List.nil_append, Text.linesFrom_feed, Text.linesFrom, Text.linesFrom,
        List.filterMap_cons, List.filterMap_cons, line?_endedLine]
  | cons c text ih =>
    intro acc
    by_cases feed : c = '\n'
    · subst feed
      rw [List.cons_append, Text.linesFrom_feed, Text.linesFrom_feed, List.filterMap_cons,
        List.filterMap_cons, ih []]
    · rw [List.cons_append, Text.linesFrom_cons feed, Text.linesFrom_cons feed, ih (c :: acc)]

/-- What a line contributes depends on nothing but the line. -/
theorem entries_line {cs : List Char} (feed : '\n' ∉ cs) : entries cs = (line? cs).toList := by
  rw [← entries_append_feed, entries, Text.lines_feed feed, List.filterMap_cons, line?_endedLine,
    List.reverse_reverse]
  cases line? cs <;> rfl

end Journal
end Shortlink
