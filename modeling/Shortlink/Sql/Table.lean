import Shortlink.Sql
/-!
# What the statements mean

A database that holds one table of links and does what the statements say: rows stand in the order
of their serial numbers, no two of them have one URL, and a rollback restores the rows of the begin.
-/
namespace Shortlink.Sql

/-- A row of the table. Its mark of deletion is null until it is set. -/
structure LinkRow where
  code : ShortCode
  url : String
  owner : OwnerId
  deleted : Option Bool := none
deriving DecidableEq

namespace LinkRow

def isLive (r : LinkRow) : Bool := r.deleted ≠ some true

def codeCell (r : LinkRow) : String × Cell := ("short_url", some (.text r.code.text))

def urlCell (r : LinkRow) : String × Cell := ("original_url", some (.text r.url))

def ownerCell (r : LinkRow) : String × Cell := ("user_id", some (.uuid r.owner.uuid))

def deletedCell (r : LinkRow) : String × Cell := ("deleted_flag", r.deleted.map .bool)

def mark (owner : OwnerId) (codes : List ShortCode) (r : LinkRow) : LinkRow :=
  if r.isLive ∧ r.owner = owner ∧ r.code ∈ codes then { r with deleted := some true } else r

end LinkRow

structure TableDatabase where
  rows : List LinkRow := []
  /-- The rows at the begin of the transaction that is open. -/
  atBegin : Option (List LinkRow) := none

namespace TableDatabase

def find? (rows : List LinkRow) (url : String) : Option LinkRow := rows.find? (·.url = url)

/-- Insert links whose URLs are new; the row of every link's URL, and the table afterwards. -/
def upsert (owner : OwnerId) : List LinkRow → List NewLink → List LinkRow × List LinkRow
  | rows, [] => ([], rows)
  | rows, link :: links =>
    match find? rows link.url with
    | some row =>
      let (found, rows) := upsert owner rows links
      (row :: found, rows)
    | none =>
      let row : LinkRow := { code := link.code, url := link.url, owner := owner }
      let (found, rows) := upsert owner (rows ++ [row]) links
      (row :: found, rows)

def selected (rows : List Row) : Reply := .done rows rows.length

def send (statement : Statement) : StateM TableDatabase Reply := fun db =>
  match statement with
  | .begin => (.done [] 0, { db with atBegin := some db.rows })
  | .commit => (.done [] 0, { db with atBegin := none })
  | .rollback => (.done [] 0, ⟨db.atBegin.getD db.rows, none⟩)
  | .schema => (.done [] 0, db)
  | .ping => (selected [[("?column?", some (.int 1))]], db)
  | .insert link owner =>
    match find? db.rows link.url with
    | some _ => (.failed Fault.uniqueViolation "duplicate key value violates unique constraint", db)
    | none =>
      let row : LinkRow := { code := link.code, url := link.url, owner := owner }
      (.done [[row.codeCell]] 1, { db with rows := db.rows ++ [row] })
  | .insertAll links owner =>
    let (found, rows) := upsert owner db.rows links
    (selected (found.map fun r => [r.codeCell, r.urlCell]), { db with rows := rows })
  | .codeOf url => (selected ((find? db.rows url).toList.map fun r => [r.codeCell]), db)
  | .lookUp key =>
    let found := db.rows.find? fun r => r.code.text = key ∨ r.url = key
    (selected (found.toList.map fun r => [r.codeCell, r.urlCell, r.deletedCell]), db)
  | .ownedBy owner =>
    let owned := db.rows.filter fun r => r.owner = owner ∧ r.code.text ≠ ""
    (selected (owned.map fun r => [r.codeCell, r.urlCell, r.ownerCell, r.deletedCell]), db)
  | .stats =>
    let live := db.rows.filter LinkRow.isLive
    let users := (live.map LinkRow.owner).eraseDups
    (selected [[("urls", some (.int live.length)), ("users", some (.int users.length))]], db)
  | .markDeleted owner codes =>
    let rows := db.rows.map (LinkRow.mark owner codes)
    let marked := db.rows.countP fun r => LinkRow.mark owner codes r ≠ r
    (.done [] marked, { db with rows := rows })

instance : Database TableDatabase where
  acquire := fun db => (.ok (), db)
  send := send

end TableDatabase
end Shortlink.Sql
