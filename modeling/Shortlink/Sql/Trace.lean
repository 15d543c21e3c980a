import Shortlink.Sql
/-!
# Traces

Any database can be watched: beside it stand the statements it was sent, in order, each with its
reply.
-/
namespace Shortlink.Sql

structure Exchange where
  statement : Statement
  reply : Reply
deriving DecidableEq

/-- A database and what has passed between it and its caller. -/
structure Traced (δ : Type) where
  database : δ
  exchanges : List Exchange := []

instance {δ : Type} [Database δ] : Database (Traced δ) where
  acquire := fun t =>
    let (answer, db) := (Database.acquire : SqlM δ Unit) t.database
    (answer, { t with database := db })
  send statement := fun t =>
    let (reply, db) := Database.send statement t.database
    (reply, ⟨db, t.exchanges ++ [⟨statement, reply⟩]⟩)

end Shortlink.Sql
