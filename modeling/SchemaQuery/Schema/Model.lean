import SchemaQuery.Schema.Definition
import SchemaQuery.Text.Lowercase

/-!
# Models and their relations

A model is a definition that has been accepted: every property has a type, every relation both its ends.
-/

namespace SchemaQuery

/-- On which side of a relation the key column lies. -/
inductive RelationKind where
  /-- The other table holds the key. -/
  | hasMany
  /-- The table itself holds the key. -/
  | belongsTo
  deriving DecidableEq

namespace RelationKind

/-- The name of a kind. -/
def name : RelationKind → String
  | hasMany => "has-many"
  | belongsTo => "belongs-to"

/-- The kind of a name. -/
def ofName? (name : String) : Option RelationKind :=
  [hasMany, belongsTo].find? fun kind => kind.name = name

end RelationKind

/-- A column of a table. -/
structure ColumnRef where
  table : String
  column : String
  deriving DecidableEq

/-- The column for a reader. -/
def ColumnRef.toText (c : ColumnRef) : String :=
  c.table ++ "." ++ c.column

/-- Two columns whose values agree in rows that belong together. -/
structure Join where
  source : ColumnRef
  target : ColumnRef
  deriving DecidableEq

/-- The join for a reader. -/
def Join.toText (j : Join) : String :=
  j.source.toText ++ " = " ++ j.target.toText

/-- A relation of which both models are known. -/
structure Relation where
  kind : RelationKind
  name : String
  /-- The name of the other model. -/
  model : String
  sourceTable : String
  targetTable : String
  foreignKey : String
  join : Join
  deriving DecidableEq

namespace Relation

/-- The column of a row that says which rows belong to it. -/
def sourceKey (r : Relation) : String :=
  match r.kind with
  | .hasMany => primaryKey
  | .belongsTo => r.foreignKey

/-- The column of the other table that is compared with it. -/
def targetKey (r : Relation) : String :=
  match r.kind with
  | .hasMany => r.foreignKey
  | .belongsTo => primaryKey

end Relation

/-- A registered model. -/
structure Model where
  name : String
  table : String
  properties : Dictionary Property
  relations : Dictionary Relation

namespace Model

/-- The model of a name and its declared properties. The table is the name in lower case. -/
def ofDeclarations (name : String) (properties : PropertyDeclarations) : Model where
  name := name
  table := Text.lower name
  properties := properties.map fun _ declaration => .ofDeclaration declaration
  relations := .empty

/-- The properties whose declared type means nothing. -/
def unknownProperties (m : Model) : List (String × Property) :=
  m.properties.entries.filter fun entry => entry.2.isUnknown

end Model

/-- The relation of two models over a key column. -/
def Relation.between (kind : RelationKind) (name : String) (source target : Model) (key : String) :
    Relation :=
  { kind
    name
    model := target.name
    sourceTable := source.table
    targetTable := target.table
    foreignKey := key
    join :=
      match kind with
      | .hasMany => ⟨⟨target.table, key⟩, ⟨source.table, primaryKey⟩⟩
      | .belongsTo => ⟨⟨source.table, key⟩, ⟨target.table, primaryKey⟩⟩ }

end SchemaQuery
