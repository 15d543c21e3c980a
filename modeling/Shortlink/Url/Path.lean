/-!
# URLs: paths

A path is followed segment by segment: a single dot stays where it is, and a double dot goes back by
one segment, but never out of a drive.
-/
namespace Shortlink.Path

def isDot : List Char → Bool
  | ['.'] => true
  | ['%', '2', 'e'] => true
  | ['%', '2', 'E'] => true
  | _ => false

def isDoubleDot (segment : List Char) : Bool :=
  [1, 3].any fun n => isDot (segment.take n) && isDot (segment.drop n)

def isDrive : List Char → Bool
  | [letter, mark] => letter.isAlpha && (mark == ':' || mark == '|')
  | _ => false

/-- Go back by one segment; the segments stand in reverse order. -/
def back (drives : Bool) : List (List Char) → List (List Char)
  | [segment] => if drives && isDrive segment then [segment] else []
  | segments => segments.tail

/-- Follow segments after those that are given in reverse order. -/
def follow (drives : Bool) (done : List (List Char)) : List (List Char) → List (List Char)
  | [] => done.reverse
  | segment :: rest =>
    let final (done : List (List Char)) := if rest.isEmpty then [] :: done else done
    if isDoubleDot segment then follow drives (final (back drives done)) rest
    else if isDot segment then follow drives (final done) rest
    else follow drives (segment :: done) rest

/-- The path that is left after following a path, without slashes at its start; `isSlash` tells
where segments end. -/
def followed (drives : Bool) (isSlash : Char → Bool) (path : List Char) : List Char :=
  let text := match path with
    | c :: rest => if isSlash c then rest else c :: rest
    | [] => []
  (['/'].intercalate (follow drives [] (text.splitOnP isSlash))).dropWhile (· = '/')

end Shortlink.Path
