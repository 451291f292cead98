/-! JSON values as `JSON.parse` returns them, and the pieces of the response schemas. A schema
that rejects a value is `none` here.
-/

namespace Cixtech.Common

/-- A JavaScript number, as far as its readers are concerned: only an integer has a value. -/
inductive JsNumber
  | integer (value : Int)
  | nonInteger (text : String)
  deriving DecidableEq, Repr

inductive Json
  | null
  | bool (value : Bool)
  | number (value : JsNumber)
  | text (value : String)
  | array (items : List Json)
  | object (fields : List (String × Json))

namespace Json

/-- The value of a field, none where the field is absent or the value is no object. -/
def field (name : String) : Json → Option Json
  | .object fields => fields.lookup name
  | _ => none

/-- `z.string()`. -/
def string : Json → Option String
  | .text value => some value
  | _ => none

/-- `z.string().min(1)`. -/
def nonemptyString (json : Json) : Option String :=
  json.string.bind fun value => if value = "" then none else some value

/-- `z.number()`, which accepts no infinity. -/
def finiteNumber : Json → Option JsNumber
  | .number (.nonInteger shown) =>
      if shown = "Infinity" ∨ shown = "-Infinity" then none
      else some (.nonInteger shown)
  | .number value => some value
  | _ => none

/-- `z.number().int().nonnegative()`, which accepts safe integers only. -/
def nonnegativeInt : Json → Option Nat
  | .number (.integer value) =>
      if 0 ≤ value ∧ value ≤ 9007199254740991 then some value.toNat else none
  | _ => none

/-- `z.array(schema)`. -/
def arrayOf {α : Type} (schema : Json → Option α) : Json → Option (List α)
  | .array items => items.mapM schema
  | _ => none

/-- A required field of an object schema. -/
def required {α : Type} (json : Json) (name : String) (schema : Json → Option α) : Option α :=
  (json.field name).bind schema

/-- An optional field of an object schema: absent, or accepted by its own schema. -/
def optional {α : Type} (json : Json) (name : String) (schema : Json → Option α)
    : Option (Option α) :=
  match json.field name with
  | none => some none
  | some value => (schema value).map some

end Json

end Cixtech.Common
