import Shortlink.Link
/-!
# Statements

Everything that is ever asked of the table of links in a database. A statement has one text, in
which `$1`, `$2`, … stand for its parameters.
-/
namespace Shortlink.Sql

inductive Statement where
  | begin
  | commit
  | rollback
  /-- Create the table and its indexes where they are missing. -/
  | schema
  | ping
  | insert (link : NewLink) (owner : OwnerId)
  /-- Insert all links; a URL that is there already keeps its row. -/
  | insertAll (links : List NewLink) (owner : OwnerId)
  | codeOf (url : String)
  | lookUp (key : String)
  | ownedBy (owner : OwnerId)
  | stats
  | markDeleted (owner : OwnerId) (codes : List ShortCode)
deriving DecidableEq

inductive Param where
  | text (value : String)
  | uuid (value : Uuid)
  | texts (values : List String)
deriving DecidableEq

namespace Statement

def rowPlaceholders (n : Nat) : String := s!"(${3 * n + 1}, ${3 * n + 2}, ${3 * n + 3})"

def insertAllText (n : Nat) : String :=
  "INSERT INTO urls (short_url, original_url, user_id) VALUES " ++
  ", ".intercalate ((List.range n).map rowPlaceholders) ++
  " ON CONFLICT (original_url) DO UPDATE SET original_url = EXCLUDED.original_url" ++
  " RETURNING short_url, original_url"

def schemaText : String :=
  "CREATE TABLE IF NOT EXISTS urls ( id serial PRIMARY KEY, user_id uuid NOT NULL," ++
  " short_url varchar(255) NOT NULL, original_url varchar(255) NOT NULL );" ++
  " CREATE UNIQUE INDEX IF NOT EXISTS original_url_idx ON urls (original_url);" ++
  " ALTER TABLE urls ADD COLUMN IF NOT EXISTS deleted_flag boolean;"

def text : Statement → String
  | begin => "BEGIN"
  | commit => "COMMIT"
  | rollback => "ROLLBACK"
  | schema => schemaText
  | ping => "SELECT 1"
  | insert _ _ =>
    "INSERT INTO urls (short_url, original_url, user_id) VALUES ($1, $2, $3) RETURNING short_url"
  | insertAll links _ => insertAllText links.length
  | codeOf _ => "SELECT short_url FROM urls WHERE original_url = $1"
  | lookUp _ =>
    "SELECT short_url, original_url, deleted_flag FROM urls" ++
    " WHERE short_url = $1 OR original_url = $1 LIMIT 1"
  | ownedBy _ =>
    "SELECT short_url, original_url, user_id, deleted_flag FROM urls" ++
    " WHERE user_id = $1 AND length(short_url) > 0 ORDER BY id"
  | stats =>
    "SELECT COUNT(*) AS urls, COUNT(DISTINCT user_id) AS users FROM urls" ++
    " WHERE deleted_flag IS NOT TRUE"
  | markDeleted _ _ =>
    "UPDATE urls SET deleted_flag = true" ++
    " WHERE user_id = $1 AND short_url = ANY($2) AND deleted_flag IS NOT TRUE"

def rowParams (link : NewLink) (owner : OwnerId) : List Param :=
  [.text link.code.text, .text link.url, .uuid owner.uuid]

/-- The parameters, in order. Statements about transactions and the schema are sent as bare text
and have no place for any. -/
def params? : Statement → Option (List Param)
  | begin | commit | rollback | schema => none
  | ping | stats => some []
  | insert link owner => some (rowParams link owner)
  | insertAll links owner => some (links.flatMap (rowParams · owner))
  | codeOf url => some [.text url]
  | lookUp key => some [.text key]
  | ownedBy owner => some [.uuid owner.uuid]
  | markDeleted owner codes => some [.uuid owner.uuid, .texts (codes.map ShortCode.text)]

theorem length_params_insertAll (links : List NewLink) (owner : OwnerId) :
    (insertAll links owner).params?.map List.length = some (3 * links.length) := by
  induction links with
  | nil => rfl
  | cons link links ih =>
    simp only [params?, List.flatMap_cons, Option.map_some, List.length_append, rowParams,
      List.length_cons, List.length_nil, Option.some.injEq] at ih ⊢
    omega

end Statement
end Shortlink.Sql
