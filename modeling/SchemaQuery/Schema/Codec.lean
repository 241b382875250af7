import SchemaQuery.Json.Decode
import SchemaQuery.Schema.Model

/-!
# JSON forms of definitions and models

Parts of a definition that are missing are not written. Has-many and belongs-to relations may be read
under two spellings.
-/

namespace SchemaQuery

/-- The member of a part that may be missing. -/
def optionalMember {α : Type} (name : String) (write : α → Json) (part : Option α) : Members :=
  match part with
  | none => []
  | some value => [(name, write value)]

/-- A dictionary as an object. -/
def Dictionary.toJson {α : Type} (write : α → Json) (d : Dictionary α) : Json :=
  .obj (d.entries.map fun entry => (entry.1, write entry.2))

namespace PropertyDeclaration

/-- A declared property as JSON. -/
def toJson (d : PropertyDeclaration) : Json :=
  .obj (optionalMember "type" .str d.declaredType ++ [("required", .bool d.required)] ++
    optionalMember "default" id d.fallback)

/-- Reads a declared property. -/
def ofDocument? (d : Document) : Option PropertyDeclaration := do
  match ← d.fields? [["type"], ["required"], ["default"]] with
  | [declaredType, required, fallback] =>
    let declaredType ← Document.optional? Document.asString? declaredType
    let required ← Document.orElse? false Document.asBool? required
    let fallback ← Document.optional? Document.toJson? fallback
    return { declaredType, required, fallback }
  | _ => none

end PropertyDeclaration

namespace RelationDeclaration

/-- A declared relation as JSON. -/
def toJson (d : RelationDeclaration) : Json :=
  .obj [("ref", .str d.target), ("key", .str d.key)]

/-- Reads a declared relation. -/
def ofDocument? (d : Document) : Option RelationDeclaration := do
  match ← d.fields? [["ref"], ["key"]] with
  | [target, key] =>
    let target ← Document.orElse? "" Document.asString? target
    let key ← Document.orElse? "" Document.asString? key
    return { target, key }
  | _ => none

end RelationDeclaration

namespace DefinitionBody

/-- The body of a definition as JSON. -/
def toJson (b : DefinitionBody) : Json :=
  .obj (optionalMember "properties" (Dictionary.toJson PropertyDeclaration.toJson) b.properties ++
    optionalMember "hasMany" (Dictionary.toJson RelationDeclaration.toJson) b.hasMany ++
    optionalMember "belongsTo" (Dictionary.toJson RelationDeclaration.toJson) b.belongsTo)

/-- Reads the body of a definition. -/
def ofDocument? (d : Document) : Option DefinitionBody := do
  match ← d.fields? [["properties"], ["hasMany", "has_many"], ["belongsTo", "belongs_to"]] with
  | [properties, hasMany, belongsTo] =>
    let properties ←
      Document.optional? (Document.asDictionary? PropertyDeclaration.ofDocument?) properties
    let hasMany ←
      Document.optional? (Document.asDictionary? RelationDeclaration.ofDocument?) hasMany
    let belongsTo ←
      Document.optional? (Document.asDictionary? RelationDeclaration.ofDocument?) belongsTo
    return { properties, hasMany, belongsTo }
  | _ => none

end DefinitionBody

namespace Definition

/-- A definition as JSON. -/
def toJson (d : Definition) : Json :=
  .obj (optionalMember "name" .str d.name ++ optionalMember "schema" DefinitionBody.toJson d.body)

/-- Reads a definition. -/
def ofDocument? (d : Document) : Option Definition := do
  match ← d.fields? [["name"], ["schema"]] with
  | [name, body] =>
    let name ← Document.optional? Document.asString? name
    let body ← Document.optional? DefinitionBody.ofDocument? body
    return { name, body }
  | _ => none

end Definition

namespace DefaultValue

/-- A default as JSON. -/
def toJson : DefaultValue → Json
  | .literal value => .obj [("literal", value)]
  | .now => .str "now"

/-- Reads a default. -/
def ofDocument? : Document → Option DefaultValue
  | .str "now" => some .now
  | .obj [(some "now", .null)] => some .now
  | .obj [(some "literal", d)] => d.toJson?.map .literal
  | _ => none

end DefaultValue

namespace Property

/-- A property of a model as JSON. -/
def toJson (p : Property) : Json :=
  .obj ([("declared_type", .str p.declaredType), ("type", .str p.kind.name),
    ("required", .bool p.required)] ++ optionalMember "default" DefaultValue.toJson p.fallback)

/-- Reads a property of a model. -/
def ofDocument? (d : Document) : Option Property := do
  match ← d.fields? [["declared_type"], ["type"], ["required"], ["default"]] with
  | [declaredType, kind, required, fallback] =>
    let declaredType ← Document.required? Document.asString? declaredType
    let kind ← Document.required? Document.asCase? kind
    let kind ← PropertyType.ofName? kind
    let required ← Document.required? Document.asBool? required
    let fallback ← Document.optional? DefaultValue.ofDocument? fallback
    return { declaredType, kind, required, fallback }
  | _ => none

end Property

namespace ColumnRef

/-- A column as JSON. -/
def toJson (c : ColumnRef) : Json :=
  .obj [("table", .str c.table), ("column", .str c.column)]

/-- Reads a column. -/
def ofDocument? (d : Document) : Option ColumnRef := do
  match ← d.fields? [["table"], ["column"]] with
  | [table, column] =>
    let table ← Document.required? Document.asString? table
    let column ← Document.required? Document.asString? column
    return { table, column }
  | _ => none

end ColumnRef

namespace Join

/-- A join as JSON. -/
def toJson (j : Join) : Json :=
  .obj [("from", j.source.toJson), ("to", j.target.toJson)]

/-- Reads a join. -/
def ofDocument? (d : Document) : Option Join := do
  match ← d.fields? [["from"], ["to"]] with
  | [source, target] =>
    let source ← Document.required? ColumnRef.ofDocument? source
    let target ← Document.required? ColumnRef.ofDocument? target
    return { source, target }
  | _ => none

end Join

namespace Relation

/-- A relation as JSON. -/
def toJson (r : Relation) : Json :=
  .obj [("kind", .str r.kind.name), ("alias", .str r.name), ("model_class", .str r.model),
    ("source_table", .str r.sourceTable), ("target_table", .str r.targetTable),
    ("foreign_key", .str r.foreignKey), ("join", r.join.toJson)]

/-- Reads a relation. -/
def ofDocument? (d : Document) : Option Relation := do
  match ← d.fields? [["kind"], ["alias"], ["model_class"], ["source_table"], ["target_table"],
      ["foreign_key"], ["join"]] with
  | [kind, name, model, sourceTable, targetTable, foreignKey, join] =>
    let kind ← Document.required? Document.asCase? kind
    let kind ← RelationKind.ofName? kind
    let name ← Document.required? Document.asString? name
    let model ← Document.required? Document.asString? model
    let sourceTable ← Document.required? Document.asString? sourceTable
    let targetTable ← Document.required? Document.asString? targetTable
    let foreignKey ← Document.required? Document.asString? foreignKey
    let join ← Document.required? Join.ofDocument? join
    return { kind, name, model, sourceTable, targetTable, foreignKey, join }
  | _ => none

end Relation

namespace Model

/-- A model as JSON. -/
def toJson (m : Model) : Json :=
  .obj [("name", .str m.name), ("table_name", .str m.table),
    ("properties", m.properties.toJson Property.toJson),
    ("relations", m.relations.toJson Relation.toJson)]

/-- Reads a model. -/
def ofDocument? (d : Document) : Option Model := do
  match ← d.fields? [["name"], ["table_name"], ["properties"], ["relations"]] with
  | [name, table, properties, relations] =>
    let name ← Document.required? Document.asString? name
    let table ← Document.required? Document.asString? table
    let properties ←
      Document.required? (Document.asDictionary? Property.ofDocument?) properties
    let relations ← Document.required? (Document.asDictionary? Relation.ofDocument?) relations
    return { name, table, properties, relations }
  | _ => none

end Model

end SchemaQuery
