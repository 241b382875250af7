import SchemaQuery.Json.Value
import SchemaQuery.Text.Blank

/-!
# Properties

A property is declared with the name of a type, which may be unknown, and perhaps a default value.
-/

namespace SchemaQuery

/-- The column that identifies a row. -/
def primaryKey : String := "id"

/-- The type of a property. -/
inductive PropertyType where
  | string
  | number
  | boolean
  | date
  /-- Declared with a name that means no type. -/
  | unknown
  deriving DecidableEq

namespace PropertyType

/-- The name of a type. -/
def name : PropertyType → String
  | string => "string"
  | number => "number"
  | boolean => "boolean"
  | date => "date"
  | unknown => "unknown"

/-- Every type. -/
def all : List PropertyType :=
  [string, number, boolean, date, unknown]

/-- The type of a name. -/
def ofName? (name : String) : Option PropertyType :=
  all.find? fun kind => kind.name = name

/-- The type that a declaration means: names are lower case or capitalised, blanks around them do not
count. -/
def ofDeclared (declared : String) : PropertyType :=
  match Text.trimmed declared with
  | "String" | "string" => string
  | "Number" | "number" => number
  | "Boolean" | "boolean" => boolean
  | "Date" | "date" => date
  | _ => unknown

end PropertyType

/-- A property as declared. -/
structure PropertyDeclaration where
  declaredType : Option String
  required : Bool
  fallback : Option Json

instance : Inhabited PropertyDeclaration := ⟨none, false, none⟩

/-- The value of a property that a new row leaves out. -/
inductive DefaultValue where
  | literal (value : Json)
  /-- The time at which the row is made. -/
  | now

/-- The default that stands for the present time on a date. -/
def nowMarker : String := "$now"

/-- A property of a registered model. -/
structure Property where
  /-- The type as declared. -/
  declaredType : String
  kind : PropertyType
  required : Bool
  fallback : Option DefaultValue

namespace Property

/-- The default that a declared value means. -/
def defaultOf (kind : PropertyType) (value : Json) : DefaultValue :=
  match kind, value with
  | .date, .str marker => if marker = nowMarker then .now else .literal value
  | _, _ => .literal value

/-- The property of a declaration. -/
def ofDeclaration (d : PropertyDeclaration) : Property :=
  let declaredType := d.declaredType.getD ""
  let kind := PropertyType.ofDeclared declaredType
  { declaredType, kind, required := d.required, fallback := d.fallback.map (defaultOf kind) }

/-- Whether the declared type means nothing. -/
def isUnknown (p : Property) : Bool :=
  p.kind = .unknown

end Property

end SchemaQuery
