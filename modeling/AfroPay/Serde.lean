import AfroPay.Json

/-! Reading a JSON text as a struct of strings and optional strings, the way serde's
derived `Deserialize` does: members are visited in the order of the text, unknown ones
are ignored, a repeated one is an error, and an absent field is an error unless it is
optional. -/
namespace AfroPay.Serde
open Json

inductive FieldType where
  | string
  | option
  deriving DecidableEq

structure Field where
  name : String
  type : FieldType
  deriving DecidableEq

inductive Error where
  | malformed
  | invalidType
  | invalidLength
  | missingField (name : String)
  | duplicateField (name : String)
  deriving DecidableEq

/-- The fields read so far, under their names. -/
abbrev Seen := List (String × Option String)

def pascalCase : Bool → List Char → List Char
  | _, [] => []
  | capitalize, c :: rest =>
    if c = '_' then pascalCase true rest else (if capitalize then c.toUpper else c) :: pascalCase false rest

/-- `rename_all = "camelCase"` on a field's name. -/
def camelCase (name : String) : String :=
  match pascalCase true name.toList with
  | [] => ""
  | c :: rest => String.ofList (c.toLower :: rest)

def FieldType.decode : FieldType → Value → Except Error (Option String)
  | _, .string text => .ok (some text)
  | .option, .null => .ok none
  | _, _ => .error .invalidType

/-- The members of an object, in the order of the text. -/
def visitMap (fields : List Field) : List (String × Value) → Seen → Except Error Seen
  | [], seen => .ok seen
  | (key, value) :: rest, seen =>
    match fields.find? fun field => field.name = key with
    | none => visitMap fields rest seen
    | some field =>
      if (seen.lookup key).isSome then .error (.duplicateField key)
      else do
        let read ← field.type.decode value
        visitMap fields rest ((key, read) :: seen)

/-- A struct may also be written as the array of its fields. -/
def visitSeq : List Field → List Value → Except Error Seen
  | [], [] => .ok []
  | [], _ :: _ => .error .malformed
  | _ :: _, [] => .error .invalidLength
  | field :: fields, item :: items => do
    let read ← field.type.decode item
    let rest ← visitSeq fields items
    return (field.name, read) :: rest

def deserialize (fields : List Field) : Value → Except Error Seen
  | .object members => visitMap fields members []
  | .array items => visitSeq fields items
  | _ => .error .invalidType

def fromStr (fields : List Field) (text : List Char) : Except Error Seen :=
  match parse text with
  | some value => deserialize fields value
  | none => .error .malformed

def required (seen : Seen) (name : String) : Except Error String :=
  match seen.lookup name with
  | some (some text) => .ok text
  | _ => .error (.missingField name)

def optional (seen : Seen) (name : String) : Option String := (seen.lookup name).join

theorem fromStr_stringify (fields : List Field) (value : Value) :
    fromStr fields (stringify value) = deserialize fields value := by
  rw [fromStr, parse_stringify]

end AfroPay.Serde
