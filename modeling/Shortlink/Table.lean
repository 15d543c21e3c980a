import Std.Data.TreeMap
import Shortlink.Link
/-!
# The link table

Link records in order of creation, with an index over each kind of key. URLs are unique; a code
may be shared, and then the index names the earliest record that has it.
-/
namespace Shortlink

structure LinkTable where
  records : Array LinkRecord := #[]
  /-- Where each code first occurs. -/
  byCode : Std.TreeMap String Nat := {}
  byUrl : Std.TreeMap String Nat := {}

namespace LinkTable

instance : Inhabited LinkTable := ⟨{}⟩

/-- The record that a key leads to; a code goes before a URL. -/
def find? (t : LinkTable) (key : String) : Option LinkRecord :=
  ((t.byCode[key]?).or t.byUrl[key]?).bind (t.records[·]?)

def codeOf? (t : LinkTable) (url : String) : Option ShortCode :=
  (t.byUrl[url]?).bind fun i => t.records[i]?.map (·.code)

/-- Add a record at the end. An earlier record keeps a code that both have. -/
def push (t : LinkTable) (r : LinkRecord) : LinkTable where
  records := t.records.push r
  byCode := t.byCode.insertIfNew r.code.text t.records.size
  byUrl := t.byUrl.insert r.url t.records.size

/-- Mark the record that a code leads to, whoever owns it. -/
def mark (t : LinkTable) (code : String) : LinkTable :=
  match t.byCode[code]? with
  | some i => { t with records := t.records.modify i fun r => { r with deleted := true } }
  | none => t

def ownLive? (t : LinkTable) (owner : OwnerId) (code : ShortCode) : Option LinkRecord :=
  (t.byCode[code.text]?).bind fun i => t.records[i]?.filter fun r =>
    r.owner = some owner ∧ r.deleted = false

/-! ## Queries -/

def get (t : LinkTable) (key : String) : Except StoreError (Option String) :=
  match t.find? key with
  | none => .ok none
  | some r =>
    if r.deleted then .error (.alreadyDeleted key)
    else if r.code.text = key then .ok (some r.url)
    else .ok (some r.code.text)

def ownedBy (t : LinkTable) (owner : OwnerId) : List LinkRecord :=
  t.records.toList.filter fun r => r.owner = some owner

def distinct {α : Type} [DecidableEq α] : List α → List α
  | [] => []
  | x :: xs => if x ∈ xs then distinct xs else x :: distinct xs

def stats (t : LinkTable) : StoreStats :=
  let live := t.records.toList.filter fun r => !r.deleted
  ⟨live.length, (distinct (live.filterMap (·.owner))).length⟩

/-! ## Changes -/

def save (t : LinkTable) (link : NewLink) (owner : Option OwnerId) :
    Except StoreError (ShortCode × LinkTable) :=
  match t.codeOf? link.url with
  | some code => .error (.conflict code.text)
  | none => .ok (link.code, t.push (link.record owner))

def saveAll (t : LinkTable) (owner : Option OwnerId) : List NewLink → List ShortCode × LinkTable
  | [] => ([], t)
  | link :: rest =>
    match t.codeOf? link.url with
    | some code =>
      let (codes, t) := saveAll t owner rest
      (code :: codes, t)
    | none =>
      let (codes, t) := saveAll (t.push (link.record owner)) owner rest
      (link.code :: codes, t)

/-- Store a batch of links with distinct URLs; a URL that is stored already keeps its code. -/
def saveBatch (t : LinkTable) (links : List NewLink) (owner : Option OwnerId) :
    Except StoreError (List ShortCode × LinkTable) :=
  match ensureUnique links with
  | .error e => .error e
  | .ok () => .ok (t.saveAll owner links)

/-- Mark the owner's live records among the codes; the records as they were before. -/
def deleteBatch (t : LinkTable) (owner : OwnerId) : List ShortCode → List LinkRecord × LinkTable
  | [] => ([], t)
  | code :: rest =>
    match t.ownLive? owner code with
    | some r =>
      let (marked, t) := deleteBatch (t.mark code.text) owner rest
      (r :: marked, t)
    | none => deleteBatch t owner rest

end LinkTable
end Shortlink
