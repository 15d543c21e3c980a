import Shortlink.Sql.Row
import Shortlink.Sql.Statement
/-!
# Talking to a database

Statements go to a database one at a time over a connection from a pool, and each has a reply.
A transaction brackets several statements: it ends in a commit, or in a rollback of whatever was
done, unless the connection is gone and with it the transaction.
-/
namespace Shortlink.Sql

inductive Reply where
  /-- The rows of the result, and how many rows were touched. -/
  | done (rows : List Row) (affected : Nat)
  | failed (code message : String)
  | dropped
deriving DecidableEq

inductive Fault where
  | timedOut
  | poolClosed
  | disconnected
  | refused (code message : String)
  | row (fault : RowFault)
  /-- The result has another number of rows than it should have. -/
  | rowCount (expected actual : Nat)
deriving DecidableEq

namespace Fault

/-- The code under which a database reports that a unique index forbids a row. -/
def uniqueViolation : String := "23505"

def isUniqueViolation : Fault → Bool
  | refused code _ => code = uniqueViolation
  | _ => false

def message : Fault → String
  | timedOut => "pool timed out while waiting for an open connection"
  | poolClosed => "attempted to acquire a connection on a closed pool"
  | disconnected => "error communicating with database: unexpected end of file"
  | refused _ message => s!"error returned from database: {message}"
  | row fault => fault.message
  | rowCount expected actual => s!"{actual} rows instead of {expected}"

end Fault

/-- A call on a database: a value or a fault, and the database afterwards. -/
abbrev SqlM (δ : Type) := ExceptT Fault (StateM δ)

/-- A database behind a pool of connections. -/
class Database (δ : Type) where
  acquire : SqlM δ Unit
  /-- Send a statement over the connection taken last. -/
  send : Statement → StateM δ Reply

structure Outcome where
  rows : List Row
  affected : Nat
deriving DecidableEq

def Reply.outcome : Reply → Except Fault Outcome
  | done rows affected => .ok ⟨rows, affected⟩
  | failed code message => .error (.refused code message)
  | dropped => .error .disconnected

section
variable {δ α : Type} [Database δ]

def execute (statement : Statement) : SqlM δ Outcome := fun db =>
  let (reply, db) := Database.send statement db
  (reply.outcome, db)

def query (statement : Statement) : SqlM δ Outcome := do
  Database.acquire
  execute statement

def reading (r : Except RowFault α) : SqlM δ α := fun db => (r.mapError .row, db)

/-- Undo an open transaction. The database's answer to this is of no interest, and a connection
that broke off has undone it already. -/
def abandon (fault : Fault) : SqlM δ α := fun db =>
  (.error fault,
    if fault = .disconnected then db else (Database.send .rollback db).2)

/-- Do something within a transaction. Its value counts only once the commit is acknowledged. -/
def transaction (body : SqlM δ α) : SqlM δ α := do
  Database.acquire
  let _ ← execute .begin
  tryCatch (do
    let a ← body
    let _ ← execute .commit
    pure a) abandon

end
end Shortlink.Sql
