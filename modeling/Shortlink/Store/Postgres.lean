import Shortlink.Sql
import Shortlink.Store
/-!
# The store in a database

Links are rows of one table, whose unique index keeps every URL single: a row that the index
forbids is a conflict. A row always has an owner. Batches are transactions; what they answer is
told only after the database has acknowledged the commit.
-/
namespace Shortlink

def StoreError.ofSql (fault : Sql.Fault) : StoreError :=
  match fault with
  | .timedOut => timeout fault.message
  | .poolClosed | .disconnected => unavailable fault.message
  | .refused _ _ => query fault.message
  | .row _ => invalidData fault.message
  | .rowCount expected actual => batchMismatch expected actual

structure PostgresStore (δ : Type) where
  database : δ

namespace PostgresStore

open Sql

def readRecord (row : Row) : Except RowFault LinkRecord := do
  let code ← row.get "short_url"
  let owner ← row.get "user_id"
  let deleted ← row.get? "deleted_flag"
  let url ← row.get "original_url"
  pure ⟨⟨code⟩, url, some ⟨owner⟩, deleted.getD false⟩

def readPair (row : Row) : Except RowFault (String × String) := do
  let code ← row.get "short_url"
  let url ← row.get "original_url"
  pure (url, code)

def readStats (row : Row) : Except RowFault StoreStats := do
  let urls ← row.count "urls"
  let users ← row.count "users"
  pure ⟨urls, users⟩

/-- For every link the code that is stored under its URL, if all have one. Of several codes of one URL
the last one counts, and a URL is used up by the first link that has it. -/
def codesFor? : List (String × String) → List NewLink → Option (List ShortCode)
  | _, [] => some []
  | stored, link :: rest => do
    let code ← stored.reverse.lookup link.url
    let codes ← codesFor? (stored.filter fun entry => entry.1 ≠ link.url) rest
    pure (⟨code⟩ :: codes)

variable {δ : Type} [Database δ]

def insert (link : NewLink) (owner : OwnerId) : SqlM δ ShortCode := do
  let result ← query (.insert link owner)
  let row ← reading (single result.rows)
  ShortCode.mk <$> reading row.first

def codeOf? (url : String) : SqlM δ (Option ShortCode) := do
  let result ← query (.codeOf url)
  match result.rows with
  | [] => pure none
  | row :: _ => (some ∘ ShortCode.mk) <$> reading row.first

/-- Insert all links of a batch within an open transaction; one code per link, in order. -/
def insertAll (links : List NewLink) (owner : OwnerId) : SqlM δ (List ShortCode) := do
  let result ← execute (.insertAll links owner)
  let mismatch := Fault.rowCount links.length result.rows.length
  if result.rows.length ≠ links.length then throw mismatch
  let stored ← reading (result.rows.mapM readPair)
  match codesFor? stored links with
  | some codes => pure codes
  | none => throw mismatch

def call {α : Type} (m : SqlM δ α) : StoreM (PostgresStore δ) α := fun s =>
  let (answer, database) := m s.database
  (answer.mapError .ofSql, ⟨database⟩)

def migrate : StoreM (PostgresStore δ) Unit := call do
  let _ ← query .schema

def get (key : String) : StoreM (PostgresStore δ) (Option String) := do
  let found ← call do
    let result ← query (.lookUp key)
    match result.rows with
    | [] => pure none
    | row :: _ =>
      let (url, code) ← reading (readPair row)
      let deleted ← reading (row.get? "deleted_flag")
      pure (some (url, code, deleted.getD false))
  match found with
  | none => pure none
  | some (url, code, deleted) =>
    if deleted then throw (.alreadyDeleted key)
    else if key = code then pure (some url)
    else if key = url then pure (some code)
    else pure none

def ownerOf (owner : Option OwnerId) : StoreM (PostgresStore δ) OwnerId :=
  match owner with
  | some owner => pure owner
  | none => throw .missingOwner

def save (link : NewLink) (owner : Option OwnerId) : StoreM (PostgresStore δ) ShortCode := do
  let owner ← ownerOf owner
  let stored ← call do
    tryCatch (some <$> insert link owner) fun fault =>
      if fault.isUniqueViolation then pure none else throw fault
  match stored with
  | some code => pure code
  | none =>
    let code ← call (codeOf? link.url)
    throw (.conflict (code.getD link.code).text)

def saveBatch (links : List NewLink) (owner : Option OwnerId) :
    StoreM (PostgresStore δ) (List ShortCode) := do
  let owner ← ownerOf owner
  StoreM.ask fun _ => ensureUnique links
  if links.isEmpty then pure []
  else call (transaction (insertAll links owner))

def deleteBatch (owner : OwnerId) (codes : List ShortCode) : StoreM (PostgresStore δ) Nat :=
  if codes.isEmpty then pure 0
  else call (transaction (Outcome.affected <$> execute (.markDeleted owner codes)))

instance : LinkStore (PostgresStore δ) where
  get := get
  ownedBy owner := call do
    let result ← query (.ownedBy owner)
    reading (result.rows.mapM readRecord)
  ping := call do
    let _ ← query .ping
  stats := call do
    let result ← query .stats
    reading (single result.rows >>= readStats)
  save := save
  saveBatch := saveBatch
  deleteBatch := deleteBatch

end PostgresStore
end Shortlink
