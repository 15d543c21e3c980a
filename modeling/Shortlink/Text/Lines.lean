/-!
# Lines of a text

A line ends at a line feed, and a carriage return right before the line feed belongs to the line
end. What follows the last line feed is a line of its own unless it is empty; a carriage return at
its end is kept.
-/
namespace Shortlink.Text

/-- A line gathered backwards, without the carriage return of its line end. -/
def endedLine : List Char → List Char
  | '\r' :: acc => acc.reverse
  | acc => acc.reverse

def linesFrom : List Char → List Char → List (List Char)
  | [], [] => []
  | c :: acc, [] => [(c :: acc).reverse]
  | acc, '\n' :: rest => endedLine acc :: linesFrom [] rest
  | acc, c :: rest => linesFrom (c :: acc) rest

def lines (cs : List Char) : List (List Char) := linesFrom [] cs

def firstLine (s : String) : String := String.ofList ((lines s.toList).headD [])

theorem linesFrom_append (acc a b : List Char) :
    linesFrom acc (a ++ '\n' :: b) = linesFrom acc (a ++ ['\n']) ++ lines b := by
  induction a generalizing acc with
  | nil => cases acc <;> simp [linesFrom, lines]
  | cons c a ih =>
    by_cases h : c = '\n'
    · subst h
      cases acc <;> simp [linesFrom, ih]
    · have step (t : List Char) : linesFrom acc (c :: t) = linesFrom (c :: acc) t := by
        cases acc <;> simp [linesFrom]
      simp only [List.cons_append, step, ih]

theorem lines_append (a b : List Char) :
    lines (a ++ '\n' :: b) = lines (a ++ ['\n']) ++ lines b :=
  linesFrom_append [] a b

end Shortlink.Text
