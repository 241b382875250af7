import SchemaQuery.Json.Value

/-!
# Fragments of SQL

A fragment is SQL text with a `?` for every value, and the values in the order of their places.
-/

namespace SchemaQuery

/-- SQL text with the values of its placeholders. -/
structure Fragment where
  text : String
  bindings : List Json

namespace Fragment

/-- Text without placeholders. -/
def ofText (text : String) : Fragment :=
  ⟨text, []⟩

/-- One fragment after another. -/
def append (a b : Fragment) : Fragment :=
  ⟨a.text ++ b.text, a.bindings ++ b.bindings⟩

instance : Append Fragment := ⟨append⟩

@[simp] theorem text_append (a b : Fragment) : (a ++ b).text = a.text ++ b.text := rfl

@[simp] theorem bindings_append (a b : Fragment) : (a ++ b).bindings = a.bindings ++ b.bindings := rfl

end Fragment

namespace Sql

/-- How a character of a name is written: a dot ends one quoted part and begins the next, a quote is
written twice. -/
def quoteChar (c : Char) : List Char :=
  if c = '.' then ['"', '.', '"'] else if c = '"' then ['"', '"'] else [c]

/-- A name in quotes, each part of a dotted name by itself. -/
def quoteName (name : String) : String :=
  String.ofList ('"' :: name.toList.flatMap quoteChar ++ ['"'])

/-- Texts with a separator between neighbours. -/
def join (separator : String) : List String → String
  | [] => ""
  | [text] => text
  | text :: rest => text ++ separator ++ join separator rest

/-- Names in quotes, separated by commas. -/
def nameList (names : List String) : String :=
  join ", " (names.map quoteName)

/-- As many placeholders as there are values, separated by commas. -/
def placeholders (values : List Json) : String :=
  join ", " (values.map fun _ => "?")

end Sql

end SchemaQuery
