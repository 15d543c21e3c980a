import Shortlink.Journal.Line
import Shortlink.Table
import Shortlink.Text.Blank
import Shortlink.Text.Lines
/-!
# Replaying a journal

Applying the lines of a journal in order gives its link table. Blank lines and lines that are not
journal lines are passed over, so a damaged line costs itself and no other. Main statement: text
that ends a line replays on its own, whatever follows it.
-/
namespace Shortlink

/-- What a line does to the table. A mark reaches the record that the code leads to, and a link
whose URL is known already changes nothing. -/
def LinkTable.apply (t : LinkTable) (l : JournalLine) : LinkTable :=
  if l.deleted then t.mark l.code
  else if (t.byUrl[l.url]?).isSome then t
  else t.push ⟨⟨l.code⟩, l.url, l.owner, false⟩

namespace Journal

def line? (cs : List Char) : Option JournalLine :=
  if Text.isBlank cs then none else JournalLine.decode? cs

def entries (text : List Char) : List JournalLine := (Text.lines text).filterMap line?

def replayFrom (t : LinkTable) (text : List Char) : LinkTable :=
  (entries text).foldl LinkTable.apply t

def replay (text : List Char) : LinkTable := replayFrom {} text

theorem replayFrom_append (t : LinkTable) (a b : List Char) :
    replayFrom t (a ++ '\n' :: b) = replayFrom (replayFrom t (a ++ ['\n'])) b := by
  unfold replayFrom entries
  rw [Text.lines_append, List.filterMap_append, List.foldl_append]

end Journal
end Shortlink
