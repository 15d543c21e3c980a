import Shortlink.Sql
/-!
# A scripted database

A database that holds nothing and answers from a script, behind a pool of a single connection. It
can show a caller every reply that a database could ever give.
-/
namespace Shortlink.Sql

structure ScriptedDatabase where
  /-- The replies to come, for all statements but those about transactions. -/
  replies : List Reply := []
  /-- Replies to statements about transactions that are to fail. -/
  failing : Statement → Option Reply := fun _ => none
  /-- The only connection is in use elsewhere. -/
  held : Bool := false
  closed : Bool := false

namespace ScriptedDatabase

def success : Reply := .done [] 0

def acquire : SqlM ScriptedDatabase Unit := fun db =>
  (if db.closed then .error .poolClosed else if db.held then .error .timedOut else .ok (), db)

def send : Statement → StateM ScriptedDatabase Reply
  | .begin => fun db => ((db.failing .begin).getD success, db)
  | .commit => fun db => ((db.failing .commit).getD success, db)
  | .rollback => fun db => ((db.failing .rollback).getD success, db)
  | _ => fun db => (db.replies.headD success, { db with replies := db.replies.tail })

instance : Database ScriptedDatabase := ⟨acquire, send⟩

end ScriptedDatabase
end Shortlink.Sql
