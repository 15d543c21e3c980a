import Shortlink.Journal.Replay
/-!
# Journals

A journal is a file of lines that only ever grows. Every answer comes from replaying it, and every
change is a run of lines appended with one write. An unfinished last line is ended first, so that
no new line merges into it.
-/
namespace Shortlink

structure Journal where
  bytes : ByteArray

namespace Journal

def empty : Journal := ⟨ByteArray.empty⟩

def table? (j : Journal) : Option LinkTable :=
  (String.fromUTF8? j.bytes).map fun text => replay text.toList

/-- Whether the next line can start right at the end. -/
def isTerminated (j : Journal) : Bool :=
  j.bytes.size = 0 || j.bytes[j.bytes.size - 1]? = some 10

def written (ls : List JournalLine) : List Char := ls.flatMap fun l => l.encode ++ ['\n']

def append (j : Journal) (ls : List JournalLine) : Journal :=
  if ls = [] then j
  else
    let start := if j.isTerminated then [] else ['\n']
    ⟨j.bytes ++ (String.ofList (start ++ written ls)).toUTF8⟩

def codes (t : LinkTable) (links : List NewLink) : List ShortCode :=
  links.map fun link => (t.codeOf? link.url).getD link.code

def fresh (t : LinkTable) (links : List NewLink) : List NewLink :=
  links.filter fun link => (t.codeOf? link.url).isNone

def save (j : Journal) (t : LinkTable) (link : NewLink) (owner : Option OwnerId) :
    Except StoreError (ShortCode × Journal) :=
  match t.codeOf? link.url with
  | some code => .error (.conflict code.text)
  | none => .ok (link.code, j.append [.live link owner])

/-- Store the links of a batch whose URLs are new; the codes of all of them. -/
def saveAll (j : Journal) (t : LinkTable) (links : List NewLink) (owner : Option OwnerId) :
    List ShortCode × Journal :=
  (codes t links, j.append ((fresh t links).map fun link => .live link owner))

/-- Mark the owner's live links among the codes; how many were marked. -/
def deleteBatch (j : Journal) (t : LinkTable) (owner : OwnerId) (codes : List ShortCode) :
    Nat × Journal :=
  let marked := (t.deleteBatch owner codes).1
  (marked.length, j.append (marked.map .tombstone))

end Journal
end Shortlink
