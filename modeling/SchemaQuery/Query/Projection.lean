import SchemaQuery.Filter.Clause
import SchemaQuery.Text.Blank

/-!
# Field lists and projections

A field list names columns; a name behind a minus is left out instead. Columns that are asked for can be
fetched alone, columns that are left out are dropped from the rows.
-/

namespace SchemaQuery

/-- Names of columns, each perhaps behind a minus. -/
structure Fields where
  names : List String

namespace Fields

/-- The names of a text, separated by blanks. -/
def ofText (text : String) : Fields :=
  ⟨Text.words text⟩

/-- The names of a list that are not blank. -/
def ofList (names : List String) : Fields :=
  ⟨names.filter fun name => !Text.isEmptyOrBlank name⟩

/-- The name without a leading minus, and whether there was one. -/
def splitMinus (field : String) : String × Bool :=
  match field.toList with
  | '-' :: rest => (String.ofList rest, true)
  | _ => (field, false)

end Fields

/-- Columns that are asked for and columns that are left out. -/
structure Projection where
  included : List String
  excluded : List String

namespace Projection

/-- The projection that keeps every column. -/
def empty : Projection :=
  ⟨[], []⟩

instance : Inhabited Projection := ⟨empty⟩

/-- Adds a name to a list, once. -/
def addName (names : List String) (name : String) : List String :=
  if names.contains name then names else names ++ [name]

/-- Adds a field; a field without a name says nothing. -/
def push (p : Projection) (field : String) : Projection :=
  match Fields.splitMinus field with
  | ("", _) => p
  | (name, true) => { p with excluded := addName p.excluded name }
  | (name, false) => { p with included := addName p.included name }

/-- Adds the fields of a list. -/
def pushAll (p : Projection) (fields : Fields) : Projection :=
  fields.names.foldl push p

/-- Whether every column is kept. -/
def isEmpty (p : Projection) : Bool :=
  p.included.isEmpty && p.excluded.isEmpty

/-- The columns to fetch: those asked for and those that are required; every column if none is asked for. -/
def columns (p : Projection) (required : List String) : List String :=
  if p.included.isEmpty then [] else required.foldl addName p.included

/-- Whether a column stays. -/
def keeps (p : Projection) (keep : List String) (column : String) : Bool :=
  p.isEmpty ||
    ((p.included.isEmpty || p.included.contains column || keep.contains column) &&
      !p.excluded.contains column)

/-- A row without the columns that were not asked for, `keep` apart, or were left out. -/
def apply (p : Projection) (keep : List String) (row : Row) : Row :=
  row.filter fun entry => p.keeps keep entry.1

end Projection

end SchemaQuery
