import Shortlink.Text.Lines
/-!
# Whole lines

Text whose last line is ended can be followed by more text without changing its own lines.
-/
namespace Shortlink.Text

/-- Whether a text consists of whole lines. -/
def Ended (cs : List Char) : Prop := cs = [] ∨ ∃ line, cs = line ++ ['\n']

private theorem ended_iff {cs : List Char} : Ended cs ↔ cs = [] ∨ cs.getLast? = some '\n' := by
  rw [Ended, List.getLast?_eq_some_iff]

instance (cs : List Char) : Decidable (Ended cs) := decidable_of_iff _ ended_iff.symm

theorem Ended.append {a b : List Char} (ha : Ended a) (hb : Ended b) : Ended (a ++ b) := by
  rcases hb with rfl | ⟨line, rfl⟩
  · rwa [List.append_nil]
  · exact .inr ⟨a ++ line, by rw [List.append_assoc]⟩

theorem lines_append_of_ended {a : List Char} (h : Ended a) (b : List Char) :
    lines (a ++ b) = lines a ++ lines b := by
  rcases h with rfl | ⟨line, rfl⟩
  · rfl
  · rw [List.append_assoc, List.singleton_append, lines_append]

theorem linesFrom_feed (acc rest : List Char) :
    linesFrom acc ('\n' :: rest) = endedLine acc :: linesFrom [] rest := by
  cases acc <;> rfl

theorem linesFrom_cons {c : Char} (plain : c ≠ '\n') (acc rest : List Char) :
    linesFrom acc (c :: rest) = linesFrom (c :: acc) rest := by
  cases acc <;> simp [linesFrom]

private theorem linesFrom_line {cs : List Char} (h : '\n' ∉ cs) (acc : List Char) :
    linesFrom acc (cs ++ ['\n']) = [endedLine (cs.reverse ++ acc)] := by
  induction cs generalizing acc with
  | nil => cases acc <;> simp [linesFrom]
  | cons c cs ih =>
    rw [List.mem_cons, not_or] at h
    rw [List.cons_append, linesFrom_cons (Ne.symm h.1), ih h.2]
    simp

private theorem endedLine_of_ne {acc : List Char} (h : acc.head? ≠ some '\r') :
    endedLine acc = acc.reverse := by
  cases acc with
  | nil => rfl
  | cons c rest =>
    have other : c ≠ '\r' := by simpa using h
    simp [endedLine, other]

theorem lines_feed {cs : List Char} (feed : '\n' ∉ cs) :
    lines (cs ++ ['\n']) = [endedLine cs.reverse] := by
  rw [lines, linesFrom_line feed, List.append_nil]

theorem lines_line {cs : List Char} (feed : '\n' ∉ cs) (back : '\r' ∉ cs) :
    lines (cs ++ ['\n']) = [cs] := by
  have kept : cs.reverse.head? ≠ some '\r' :=
    fun h => back (List.mem_reverse.mp (List.mem_of_head? h))
  rw [lines_feed feed, endedLine_of_ne kept, List.reverse_reverse]

end Shortlink.Text
