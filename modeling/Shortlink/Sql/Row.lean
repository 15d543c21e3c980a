import Shortlink.Uuid
/-!
# Rows

A row of a result names its cells. Reading a cell says which kind of value is expected and whether
it may be empty; a row that holds something else has a fault.
-/
namespace Shortlink.Sql

inductive Value where
  | text (value : String)
  | bool (value : Bool)
  | int (value : Int)
  | uuid (value : Uuid)
deriving DecidableEq

abbrev Cell := Option Value

abbrev Row := List (String × Cell)

inductive RowFault where
  | noRow
  | noColumn (name : String)
  | null (name : String)
  | mismatch (name : String)
  | negative (name : String) (value : Int)
deriving DecidableEq

def RowFault.message : RowFault → String
  | .noRow => "no rows returned by a query that expected to return at least one row"
  | .noColumn name => s!"no column found for name: {name}"
  | .null name => s!"error occurred while decoding column {name}: unexpected null"
  | .mismatch name => s!"error occurred while decoding column {name}: mismatched types"
  | .negative name value =>
    s!"negative {name} count {value}: out of range integral type conversion attempted"

/-- A type of which a column can be. -/
class Scalar (α : Type) where
  ofValue? : Value → Option α

instance : Scalar String := ⟨fun | .text s => some s | _ => none⟩
instance : Scalar Bool := ⟨fun | .bool b => some b | _ => none⟩
instance : Scalar Int := ⟨fun | .int n => some n | _ => none⟩
instance : Scalar Uuid := ⟨fun | .uuid u => some u | _ => none⟩

namespace Row

def cell (row : Row) (name : String) : Except RowFault Cell :=
  match row.reverse.lookup name with
  | some cell => .ok cell
  | none => .error (.noColumn name)

/-- A cell that may be null. A null is of every type. -/
def optional {α : Type} [Scalar α] (name : String) : Cell → Except RowFault (Option α)
  | none => .ok none
  | some value =>
    match Scalar.ofValue? value with
    | some a => .ok (some a)
    | none => .error (.mismatch name)

def required {α : Type} [Scalar α] (name : String) (cell : Cell) : Except RowFault α :=
  match optional name cell with
  | .ok (some a) => .ok a
  | .ok none => .error (.null name)
  | .error fault => .error fault

def get {α : Type} [Scalar α] (row : Row) (name : String) : Except RowFault α :=
  row.cell name >>= required name

def get? {α : Type} [Scalar α] (row : Row) (name : String) : Except RowFault (Option α) :=
  row.cell name >>= optional name

def count (row : Row) (name : String) : Except RowFault Nat := do
  match (← row.get name : Int) with
  | .ofNat n => pure n
  | value => throw (.negative name value)

def first {α : Type} [Scalar α] : Row → Except RowFault α
  | [] => .error (.noColumn "0")
  | (name, cell) :: _ => required name cell

end Row

/-- The first row of a result that must have one. -/
def single (rows : List Row) : Except RowFault Row :=
  match rows with
  | [] => .error .noRow
  | row :: _ => .ok row

end Shortlink.Sql
