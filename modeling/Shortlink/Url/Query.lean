import Shortlink.Text.Percent
/-!
# URLs: queries

A query is a list of names with values: pairs are joined by `&`, and the first equals sign of a pair
ends its name.
-/
namespace Shortlink.Query

def pair (cs : List Char) : String × String :=
  let (name, value) := cs.span (· ≠ '=')
  (Percent.decodeQuery name, Percent.decodeQuery (value.drop 1))

def pairs (query : List Char) : List (String × String) :=
  ((query.splitOnP (· == '&')).filter (¬ ·.isEmpty)).map pair

end Shortlink.Query
