import Shortlink.Proofs.Store.Simulation
/-!
# Seams in a journal

Where lines are added to a text, each line of the text keeps what it says, however the text ends: with
a line feed, with a carriage return and a line feed, with half of either, or inside a line. A line that
says nothing can stand between any two others.
-/
namespace Shortlink.Journal
open FileStore

private theorem line?_of_foreign {line : List Char}
    (foreign : Text.isBlank line = true ∨ JournalLine.decode? line = none) : line? line = none := by
  rw [line?]
  split
  case isTrue => rfl
  case isFalse written =>
    apply foreign.resolve_left
    exact written

private theorem entries_ended {line ending : List Char} (single : '\n' ∉ line)
    (ends : ending = ['\n'] ∨ ending = ['\r', '\n']) :
    entries (line ++ ending) = (line? line).toList := by
  rcases ends with rfl | rfl
  · rw [entries_append_feed]
    exact entries_line single
  · have whole : '\n' ∉ line ++ ['\r'] := by
      intro feed
      rcases List.mem_append.mp feed with inside | behind
      · exact single inside
      · exact absurd (List.mem_singleton.mp behind) (by decide)
    have split : line ++ ['\r', '\n'] = (line ++ ['\r']) ++ ['\n'] := by simp
    rw [split, entries_append_feed, entries_line whole, line?_append_carriage]

/-- A line that says nothing leaves what whole lines before it and any text behind it say. -/
theorem entries_around {before line ending behind : List Char} (whole : Text.Ended before)
    (single : '\n' ∉ line) (ends : ending = ['\n'] ∨ ending = ['\r', '\n'])
    (foreign : Text.isBlank line = true ∨ JournalLine.decode? line = none) :
    entries (before ++ (line ++ ending) ++ behind) = entries (before ++ behind) := by
  have nothing : entries (line ++ ending) = [] := by
    rw [entries_ended single ends, line?_of_foreign foreign]
    rfl
  have ended : Text.Ended (line ++ ending) := by
    apply Or.inr
    rcases ends with rfl | rfl
    · exact ⟨line, rfl⟩
    · exact ⟨line ++ ['\r'], by simp⟩
  rw [entries_append (whole.append ended), entries_append whole, entries_append whole, nothing,
    List.append_nil]

/-- Replaying is stable under whatever an addition or another hand leaves behind. To any text lines can
be added, however it ends: the file then says all that it said before and after that these lines, and
replays to the old table with the lines applied in order. And a line of whichever end that is blank or
no journal line can stand behind whole lines: records and indexes are the same without it. -/
theorem replay_stable :
    (∀ (text : List Char) (ls : List JournalLine), ∃ grown,
      (ofText text).append ls = ofText grown ∧ entries grown = entries text ++ ls ∧
        (ofText grown).table? = some (ls.foldl LinkTable.apply (replay text)) ∧
        ∀ s : FileStore, s.Carries text → ∃ after,
          FileStore.extend (fun j _ => .ok ((), j.append ls)) s = (.ok (), after) ∧
            after.load = .ok (ofText grown, ls.foldl LinkTable.apply (replay text))) ∧
      ∀ before line ending behind : List Char, Text.Ended before → '\n' ∉ line →
        ending = ['\n'] ∨ ending = ['\r', '\n'] →
        Text.isBlank line = true ∨ JournalLine.decode? line = none →
        replay (before ++ (line ++ ending) ++ behind) = replay (before ++ behind) ∧
          (ofText (before ++ (line ++ ending) ++ behind)).table? =
            some (replay (before ++ behind)) := by
  constructor
  · intro text ls
    have replayed := replay_addition text ls
    refine ⟨text ++ (ofText text).addition ls, append_ofText_eq text ls, entries_addition text ls, ?_, ?_⟩
    · rw [table?_ofText, replayed]
    · intro s carries
      obtain ⟨after, extended, grown⟩ := carries.extend (a := ())
        (f := fun j _ => .ok ((), j.append ls)) rfl
      refine ⟨after, extended, ?_⟩
      rw [grown.load, replayed]
  · intro before line ending behind whole single ends foreign
    have same : entries (before ++ (line ++ ending) ++ behind) = entries (before ++ behind) :=
      entries_around whole single ends foreign
    have replayed : replay (before ++ (line ++ ending) ++ behind) = replay (before ++ behind) := by
      rw [replay, replayFrom, same]
      rfl
    refine ⟨replayed, ?_⟩
    rw [table?_ofText, replayed]

/-- A line is added behind the start of a line that ends in a carriage return, and a damaged line stands
before whole ones. -/
theorem replay_stable_of_damagedLines :
    let line : JournalLine := .live ⟨⟨"c"⟩, "http://a.b/"⟩ none
    (∃ grown, (ofText "\x7b\"user\r".toList).append [line] = ofText grown ∧
      entries grown = entries "\x7b\"user\r".toList ++ [line]) ∧
      replay ("oops\r\n".toList ++ written [line]) = replay (written [line]) := by
  intro line
  obtain ⟨added, passed⟩ := replay_stable
  constructor
  · obtain ⟨grown, appended, said, -⟩ := added "\x7b\"user\r".toList [line]
    exact ⟨grown, appended, said⟩
  · have damaged : JournalLine.decode? "oops".toList = none := by decide +kernel
    exact (passed [] "oops".toList ['\r', '\n'] (written [line]) (.inl rfl) (by decide) (.inr rfl)
      (.inr damaged)).1

end Shortlink.Journal
