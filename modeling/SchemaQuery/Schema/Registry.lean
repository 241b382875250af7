import SchemaQuery.Schema.Error
import SchemaQuery.Schema.Model

/-!
# The registry of models

Registering a model takes its properties and puts its relation declarations aside. Resolving turns all
declarations into relations at once, so that models may name each other in any order. A definition that is
refused leaves the registry as it was.
-/

namespace SchemaQuery

/-- The registered models, and the declared relations by the model that declares them. -/
structure Registry where
  models : Dictionary Model
  hasMany : Dictionary RelationDeclarations
  belongsTo : Dictionary RelationDeclarations

/-- What resolving the declarations came to. -/
structure ResolveReport where
  /-- The number of declarations that gave a relation. -/
  resolved : Nat
  /-- One fault for each declaration that did not. -/
  unresolved : List SchemaError

/-- Whether every declaration gave a relation. -/
def ResolveReport.isComplete (r : ResolveReport) : Bool :=
  r.unresolved.isEmpty

namespace Registry

/-- The registry without models. -/
def empty : Registry :=
  ⟨.empty, .empty, .empty⟩

instance : Inhabited Registry := ⟨empty⟩

/-- The model of a name. -/
def get (r : Registry) (name : String) : Except SchemaError Model :=
  match r.models.get? name with
  | some model => .ok model
  | none => .error (.modelNotFound name)

/-- The declarations of a kind by the model that declares them. -/
def declarations (r : Registry) : RelationKind → Dictionary RelationDeclarations
  | .hasMany => r.hasMany
  | .belongsTo => r.belongsTo

/-- The model that a registration asks for: the name is taken without blanks around it and must not be
empty, properties must be given, and the name must be free. -/
def accept (r : Registry) (name : String) (properties : Option PropertyDeclarations) :
    Except SchemaError Model :=
  let name := Text.trimmed name
  if name = "" then .error .missingModelName
  else
    match properties with
    | none => .error (.missingSchema name)
    | some properties =>
      if r.models.contains name then .error (.duplicateModel name)
      else .ok (.ofDeclarations name properties)

/-- Puts declarations aside under the name of a model; none are not kept. -/
def keep (pending : Dictionary RelationDeclarations) (name : String)
    (declarations : Option RelationDeclarations) : Dictionary RelationDeclarations :=
  match declarations with
  | none => pending
  | some declarations => if declarations.isEmpty then pending else pending.insert name declarations

/-- What is reported of an accepted model. -/
def acceptedSignals (model : Model) : List Signal :=
  (model.unknownProperties.map fun entry =>
    .event .unknownPropertyType
      [("model", model.name), ("property", entry.1), ("type", entry.2.declaredType)]) ++
  [.event .modelRegistered
    [("model", model.name), ("table", model.table),
      ("properties", toString model.properties.size)]]

/-- Registers a model. -/
def register (r : Registry) (name : String) (properties : Option PropertyDeclarations)
    (hasMany belongsTo : Option RelationDeclarations) :
    Reported (Except SchemaError Model × Registry) :=
  match r.accept name properties with
  | .error fault => ⟨(.error fault, r), fault.signals⟩
  | .ok model =>
    ⟨(.ok model,
      { models := r.models.insert model.name model
        hasMany := keep r.hasMany model.name hasMany
        belongsTo := keep r.belongsTo model.name belongsTo }),
      acceptedSignals model⟩

/-- Registers the model of a definition. -/
def addModel (r : Registry) (d : Definition) : Reported (Except SchemaError Model × Registry) :=
  let body := d.body.getD default
  r.register (d.name.getD "") body.properties body.hasMany body.belongsTo

/-- Forgets every model and declaration. -/
def reset (r : Registry) : Reported Registry :=
  ⟨empty, [.event .registryReset [("models", toString r.models.size)]]⟩

/-- The relation of one declaration. -/
def resolveOne (r : Registry) (source : Model) (kind : RelationKind) (name : String)
    (declaration : RelationDeclaration) : Except SchemaError Relation :=
  match r.models.get? declaration.target with
  | none => .error (.unresolvedRelation source.name name declaration.target .targetNotFound)
  | some target =>
    if Text.isEmptyOrBlank declaration.key then
      .error (.unresolvedRelation source.name name declaration.target .missingKey)
    else .ok (.between kind name source target declaration.key)

/-- The result of one declaration. -/
structure Resolution where
  model : String
  name : String
  kind : RelationKind
  outcome : Except SchemaError Relation

/-- The results for all declarations of a kind, by model and name. -/
def resolutionsOf (r : Registry) (kind : RelationKind) : List Resolution :=
  (r.declarations kind).entries.flatMap fun (model, declarations) =>
    match r.models.get? model with
    | none => []
    | some source =>
      declarations.entries.map fun (name, declaration) =>
        ⟨model, name, kind, r.resolveOne source kind name declaration⟩

/-- The results for all declarations; those of the belongs-to kind come later. -/
def resolutions (r : Registry) : List Resolution :=
  r.resolutionsOf .hasMany ++ r.resolutionsOf .belongsTo

/-- What is reported of one declaration. -/
def Resolution.signals (x : Resolution) : List Signal :=
  match x.outcome with
  | .ok relation =>
    [.event .relationResolved
      [("model", x.model), ("alias", x.name), ("kind", x.kind.name),
        ("join", relation.join.toText)]]
  | .error fault => fault.signals

/-- The relations of a model: of two under one name the later stays. -/
def relationsOf (results : List Resolution) (model : String) : Dictionary Relation :=
  results.foldl
    (fun relations x =>
      if x.model = model then
        match x.outcome with
        | .ok relation => relations.insert x.name relation
        | .error _ => relations
      else relations)
    .empty

/-- The summary of results. -/
def reportOf (results : List Resolution) : ResolveReport where
  resolved := (results.filter fun x => x.outcome.isOk).length
  unresolved := results.filterMap fun x =>
    match x.outcome with
    | .ok _ => none
    | .error fault => some fault

/-- Resolves every declaration. The relations of each model are made anew. -/
def resolveAll (r : Registry) : Reported (ResolveReport × Registry) :=
  let results := r.resolutions
  let report := reportOf results
  ⟨(report,
    { r with
      models := r.models.map fun name model =>
        { model with relations := relationsOf results name } }),
    results.flatMap Resolution.signals ++
      [.event .relationsInitialized
        [("resolved", toString report.resolved),
          ("unresolved", toString report.unresolved.length)]]⟩

end Registry

end SchemaQuery
