import SchemaQuery.Dictionary
import SchemaQuery.Json.Document

/-!
# Reading typed forms

A record is written as an object, or as an array of its fields in order. Fields that are not asked for are
skipped, a field that is asked for comes once. Types are strict: no text is taken for a number, no float for
a whole number.
-/

namespace SchemaQuery

namespace Document

/-- A string. -/
def asString? : Document → Option String
  | .str s => some s
  | _ => none

/-- A boolean. -/
def asBool? : Document → Option Bool
  | .bool b => some b
  | _ => none

/-- A whole number of 64 bits that is not negative. -/
def asNat? : Document → Option Nat
  | .int n => if 0 ≤ n.val then some n.val.toNat else none
  | _ => none

/-- A signed whole number of 64 bits. -/
def asInt? : Document → Option Int
  | .int n => if n.val < Whole.signedLimit then some n.val else none
  | _ => none

/-- A value that may be null. -/
def asOption? {α : Type} (read : Document → Option α) : Document → Option (Option α)
  | .null => some none
  | d => (read d).map some

/-- Reads every document of a list. -/
def readAll? {α : Type} (read : Document → Option α) : List Document → Option (List α)
  | [] => some []
  | d :: rest =>
    match read d, readAll? read rest with
    | some value, some values => some (value :: values)
    | _, _ => none

/-- An array of values. -/
def asList? {α : Type} (read : Document → Option α) : Document → Option (List α)
  | .arr items => readAll? read items
  | _ => none

/-- The name of a case without content. -/
def asCase? : Document → Option String
  | .str s => some s
  | .obj [(some s, .null)] => some s
  | _ => none

/-- Reads every member of an object. -/
def readMembers? {α : Type} (read : Document → Option α) :
    List (Option String × Document) → Option (List (String × α))
  | [] => some []
  | (name, d) :: rest =>
    match name, read d, readMembers? read rest with
    | some name, some value, some entries => some ((name, value) :: entries)
    | _, _, _ => none

/-- An object of values of one type, under names of any kind. -/
def asDictionary? {α : Type} (read : Document → Option α) : Document → Option (Dictionary α)
  | .obj members => (readMembers? read members).map Dictionary.ofList
  | _ => none

/-- The field of a record with one of the given names, if it is there; nothing if it comes twice. -/
def field? {α : Type} (names : List String) (members : List (Option String × α)) :
    Option (Option α) :=
  match members.filter fun member => member.1.any names.contains with
  | [] => some none
  | [member] => some (some member.2)
  | _ => none

/-- The fields of a record in order, each with the names it goes by. -/
def fields? (names : List (List String)) : Document → Option (List (Option Document))
  | .obj members =>
    if members.all fun member => member.1.isSome then names.mapM (field? · members) else none
  | .arr items =>
    if items.length ≤ names.length then
      some (items.map some ++ List.replicate (names.length - items.length) none)
    else none
  | _ => none

/-- A field that must be there. -/
def required? {α : Type} (read : Document → Option α) (field : Option Document) : Option α :=
  field.bind read

/-- A field with a value for when it is missing. -/
def orElse? {α : Type} (fallback : α) (read : Document → Option α) (field : Option Document) :
    Option α :=
  match field with
  | none => some fallback
  | some d => read d

/-- A field that may be missing or null. -/
def optional? {α : Type} (read : Document → Option α) (field : Option Document) :
    Option (Option α) :=
  orElse? none (asOption? read) field

end Document

end SchemaQuery
