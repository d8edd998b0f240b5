import Chainfolio.Json.Held

/-! Records read from JSON. A record is an object whose known fields occur at most once, or an array
of its fields in order; a record that shares its object with another is only read from objects. -/
namespace Chainfolio

/-- The fields of a record by name. -/
structure JsonRecord where
  find : String → Option Json

namespace JsonRecord

/-- Whether each of the names occurs at most once. -/
def distinct (names : List String) (fields : List (String × Json)) : Bool :=
  names.all fun n => fields.countP (fun f => f.1 = n) ≤ 1

/-- Reads a record that stands alone. What is not its own is skipped. -/
def read? (names : List String) : Json → Option JsonRecord
  | .obj fields =>
    if Json.skippableFields (fields.filter fun f => !names.contains f.1) &&
        distinct names fields then
      some ⟨(Json.field? · fields)⟩
    else none
  | .arr items =>
    if items.length ≤ names.length then some ⟨(Json.field? · (names.zip items))⟩ else none
  | _ => none

/-- Reads a record of its `own` fields in one object with the `spread` fields of another. Every field
that is not its own has to be readable, known or not, and is held as a value before it is read. -/
def shared? (spread own : List String) : Json → Option JsonRecord
  | .obj fields =>
    if Json.readableFields (fields.filter fun f => !own.contains f.1) &&
        distinct (spread ++ own) fields then
      some ⟨fun name =>
        let field := Json.field? name fields
        if own.contains name then field else field.map Json.held⟩
    else none
  | _ => none

def required {α : Type} (r : JsonRecord) (name : String) (read : Json → Option α) : Option α :=
  (r.find name).bind read

def optional {α : Type} (r : JsonRecord) (name : String) (read : Json → Option α) :
    Option (Option α) :=
  match r.find name with
  | none => some none
  | some j => Json.nullable read j

def defaulted {α : Type} (r : JsonRecord) (name : String) (read : Json → Option α) (d : α) :
    Option α :=
  match r.find name with
  | none => some d
  | some j => read j

end JsonRecord

namespace Json

/-- The name of a variant: a string, or an object that holds only null under it. -/
def variant? : Json → Option String
  | .str s => some s
  | .obj [(name, .null)] => some name
  | _ => none

/-- An optional field of an object, left out when absent. -/
def optionalField {α : Type} (name : String) (write : α → Json) : Option α → List (String × Json)
  | none => []
  | some a => [(name, write a)]

/-- A list field of an object, left out when empty. -/
def listField {α : Type} (name : String) (write : α → Json) : List α → List (String × Json)
  | [] => []
  | items => [(name, .arr (items.map write))]

/-- An absent value as null. -/
def ofOption {α : Type} (write : α → Json) : Option α → Json
  | none => .null
  | some a => write a

end Json

end Chainfolio
