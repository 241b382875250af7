import SchemaQuery.Json.Value

/-!
# JSON documents as written

A document is the tree of a JSON text before values are made of it: an object keeps every member,
repeated names included, and what is well written but stands for no value is kept as `unreadable`.
A reader that skips a part never notices that it was unreadable.
-/

namespace SchemaQuery

/-- The tree of a JSON text. -/
inductive Document where
  | null
  | bool (value : Bool)
  | int (value : Whole)
  | float (value : Binary64)
  | str (value : String)
  | arr (items : List Document)
  /-- The members as they come; a name may be unreadable. -/
  | obj (members : List (Option String × Document))
  /-- A number out of range, a string with half a surrogate pair, a container nested too deep. -/
  | unreadable

instance : Inhabited Document := ⟨.null⟩

namespace Document

mutual

/-- Decides whether two documents are one, repeated names and the order of members included. -/
def decEq : (first second : Document) → Decidable (first = second)
  | null, second => match second with
    | null => isTrue rfl
    | bool _ | int _ | float _ | str _ | arr _ | obj _ | unreadable => isFalse nofun
  | bool a, second => match second with
    | bool b => decidable_of_iff (a = b) (by simp)
    | null | int _ | float _ | str _ | arr _ | obj _ | unreadable => isFalse nofun
  | int a, second => match second with
    | int b => decidable_of_iff (a = b) (by simp)
    | null | bool _ | float _ | str _ | arr _ | obj _ | unreadable => isFalse nofun
  | float a, second => match second with
    | float b => decidable_of_iff (a = b) (by simp)
    | null | bool _ | int _ | str _ | arr _ | obj _ | unreadable => isFalse nofun
  | str a, second => match second with
    | str b => decidable_of_iff (a = b) (by simp)
    | null | bool _ | int _ | float _ | arr _ | obj _ | unreadable => isFalse nofun
  | arr items, second => match second with
    | arr others =>
      have := decEqItems items others
      decidable_of_iff (items = others) (by simp)
    | null | bool _ | int _ | float _ | str _ | obj _ | unreadable => isFalse nofun
  | obj members, second => match second with
    | obj others =>
      have := decEqMembers members others
      decidable_of_iff (members = others) (by simp)
    | null | bool _ | int _ | float _ | str _ | arr _ | unreadable => isFalse nofun
  | unreadable, second => match second with
    | unreadable => isTrue rfl
    | null | bool _ | int _ | float _ | str _ | arr _ | obj _ => isFalse nofun

/-- Decides whether two lists of items are one. -/
def decEqItems : (first second : List Document) → Decidable (first = second)
  | [], [] => isTrue rfl
  | [], _ :: _ | _ :: _, [] => isFalse nofun
  | item :: rest, other :: others =>
    have := decEq item other
    have := decEqItems rest others
    decidable_of_iff (item = other ∧ rest = others) (by simp)

/-- Decides whether two lists of members are one. -/
def decEqMembers : (first second : List (Option String × Document)) → Decidable (first = second)
  | [], [] => isTrue rfl
  | [], _ :: _ | _ :: _, [] => isFalse nofun
  | (name, item) :: rest, (wanted, other) :: others =>
    have := decEq item other
    have := decEqMembers rest others
    decidable_of_iff ((name = wanted ∧ item = other) ∧ rest = others) (by simp)

end

instance : DecidableEq Document := decEq

end Document

mutual

/-- The value of a document. Of a repeated name the first place and the last value stay. -/
def Document.toJson? : Document → Option Json
  | .null => some .null
  | .bool b => some (.bool b)
  | .int n => some (.int n)
  | .float x => some (.float x)
  | .str s => some (.str s)
  | .arr items => (itemsToJson? items).map .arr
  | .obj members => (membersToJson? members).map fun entries => .obj (Members.ofEntries entries)
  | .unreadable => none

/-- The values of the items. -/
def itemsToJson? : List Document → Option (List Json)
  | [] => some []
  | item :: rest =>
    match item.toJson?, itemsToJson? rest with
    | some value, some values => some (value :: values)
    | _, _ => none

/-- The members with their values, repeated names included. -/
def membersToJson? : List (Option String × Document) → Option (List (String × Json))
  | [] => some []
  | (name, item) :: rest =>
    match name, item.toJson?, membersToJson? rest with
    | some name, some value, some entries => some ((name, value) :: entries)
    | _, _, _ => none

end

mutual

/-- A value as a document. -/
def Json.toDocument : Json → Document
  | .null => .null
  | .bool b => .bool b
  | .int n => .int n
  | .float x => .float x
  | .str s => .str s
  | .arr items => .arr (itemsToDocuments items)
  | .obj members => .obj (membersToDocuments members)

/-- Values as documents. -/
def itemsToDocuments : List Json → List Document
  | [] => []
  | item :: rest => item.toDocument :: itemsToDocuments rest

/-- Members as members of a document. -/
def membersToDocuments : List (String × Json) → List (Option String × Document)
  | [] => []
  | (name, value) :: rest => (some name, value.toDocument) :: membersToDocuments rest

end

end SchemaQuery
