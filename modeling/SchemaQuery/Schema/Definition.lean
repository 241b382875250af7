import SchemaQuery.Dictionary
import SchemaQuery.Schema.Property

/-!
# Model definitions

A definition is what a user writes. Any part may be missing, so that it can be reported instead of being
no definition at all.
-/

namespace SchemaQuery

/-- A relation as declared: the name of another model and the column that links the two. -/
structure RelationDeclaration where
  target : String
  key : String
  deriving DecidableEq

/-- Relations by name. -/
abbrev RelationDeclarations := Dictionary RelationDeclaration

/-- Properties by name. -/
abbrev PropertyDeclarations := Dictionary PropertyDeclaration

/-- The body of a definition. -/
structure DefinitionBody where
  properties : Option PropertyDeclarations
  hasMany : Option RelationDeclarations
  belongsTo : Option RelationDeclarations

instance : Inhabited DefinitionBody := ⟨none, none, none⟩

/-- A model definition. -/
structure Definition where
  name : Option String
  body : Option DefinitionBody

instance : Inhabited Definition := ⟨none, none⟩

namespace Definition

/-- A definition with a name and no properties yet. -/
def named (name : String) : Definition :=
  ⟨some name, some ⟨some .empty, none, none⟩⟩

/-- Changes the body, which begins without anything. -/
def mapBody (d : Definition) (f : DefinitionBody → DefinitionBody) : Definition :=
  { d with body := some (f (d.body.getD default)) }

/-- Declares a property. -/
def addProperty (d : Definition) (name : String) (declaration : PropertyDeclaration) : Definition :=
  d.mapBody fun body =>
    { body with properties := some ((body.properties.getD .empty).insert name declaration) }

/-- Declares that a row has many of another model. -/
def addHasMany (d : Definition) (name : String) (declaration : RelationDeclaration) : Definition :=
  d.mapBody fun body =>
    { body with hasMany := some ((body.hasMany.getD .empty).insert name declaration) }

/-- Declares that a row belongs to one of another model. -/
def addBelongsTo (d : Definition) (name : String) (declaration : RelationDeclaration) :
    Definition :=
  d.mapBody fun body =>
    { body with belongsTo := some ((body.belongsTo.getD .empty).insert name declaration) }

end Definition

end SchemaQuery
