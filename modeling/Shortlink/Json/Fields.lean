import Shortlink.Json
import Shortlink.Text.Word
/-!
# Records as JSON

A record is written as an object with its fields in order. It is read from an object, where
unknown names are skipped and a known name may not be repeated, or from an array of the field
values in order.
-/
namespace Shortlink.Json

inductive Presence where
  | required
  /-- An object may leave the field out. -/
  | optional
  /-- An object may leave the field out, and so may an array that ends before it. -/
  | defaulted
deriving DecidableEq

structure Field where
  name : String
  presence : Presence := .required

/-- The value under a name: `none` if the name is repeated, `some none` if it is absent. -/
def lookup? (name : String) (members : List (Option String × Json)) : Option (Option Json) :=
  match members.filter (fun m => m.1 = some name) with
  | [] => some none
  | [m] => some (some m.2)
  | _ => none

def member? (members : List (Option String × Json)) (field : Field) : Option (Option Json) :=
  match lookup? field.name members with
  | some none => if field.presence = .required then none else some none
  | found => found

def fields? (fields : List Field) : Json → Option (List (Option Json))
  | object members =>
    if members.any (fun m => m.1.isNone) then none else fields.mapM (member? members)
  | array items =>
    let rest := fields.drop items.length
    if items.length ≤ fields.length ∧ rest.all (fun f => f.presence = .defaulted) then
      some (items.map some ++ rest.map fun _ => none)
    else none
  | _ => none

def word? : Json → Option Nat
  | natural n => if n < Text.wordLimit then some n else none
  | _ => none

def bool? : Json → Option Bool
  | bool b => some b
  | _ => none

def text? : Json → Option String
  | string s => s
  | _ => none

instance : Form String := ⟨ofText, text?⟩

instance {α : Type} [Form α] : Form (Option α) where
  toJson
    | some a => Form.toJson a
    | none => null
  ofJson?
    | null => some none
    | v => (Form.ofJson? v).map some

instance {α : Type} [Form α] : Form (List α) where
  toJson items := array (items.map Form.toJson)
  ofJson?
    | array items => items.mapM Form.ofJson?
    | _ => none

end Shortlink.Json
