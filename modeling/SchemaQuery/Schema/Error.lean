import SchemaQuery.Diagnostics.Signal

/-!
# Faults of models and definitions
-/

namespace SchemaQuery

/-- Why a declared relation leads nowhere. -/
inductive RelationFault where
  | targetNotFound
  | missingKey
  deriving DecidableEq

/-- Why, for a reader. -/
def RelationFault.reason : RelationFault → String
  | targetNotFound => "target model not found"
  | missingKey => "missing foreign key"

/-- What went wrong with a definition file or its directory. -/
inductive FileFault where
  | unreadableDirectory
  | unreadableFile
  | invalidJson
  | uncreatableDirectory
  | unwritableFile
  deriving DecidableEq

/-- What went wrong, for a reader. -/
def FileFault.reason : FileFault → String
  | unreadableDirectory => "Failed to read directory: not a directory"
  | unreadableFile => "Failed to read file: not a text file"
  | invalidJson => "Invalid JSON: not a model definition"
  | uncreatableDirectory => "Failed to create directory: the path is taken"
  | unwritableFile => "Failed to write file: no such directory"

/-- Why a definition or a model is refused. -/
inductive SchemaError where
  | duplicateModel (model : String)
  | missingModelName
  /-- A definition without properties. -/
  | missingSchema (model : String)
  | modelNotFound (model : String)
  | unresolvedRelation (model relation target : String) (fault : RelationFault)
  | malformedDefinition (path : String) (fault : FileFault)
  deriving DecidableEq

namespace SchemaError

/-- The name of the fault. -/
def code : SchemaError → String
  | duplicateModel _ => "DUPLICATE_MODEL"
  | missingModelName => "MISSING_MODEL_NAME"
  | missingSchema _ => "MISSING_SCHEMA"
  | modelNotFound _ => "MODEL_NOT_FOUND"
  | unresolvedRelation .. => "UNRESOLVED_RELATION"
  | malformedDefinition .. => "MALFORMED_DEFINITION"

/-- The fault for a reader. -/
def message : SchemaError → String
  | duplicateModel model => "Model name conflicted: " ++ model
  | missingModelName => "Missing model name"
  | missingSchema model => "Missing schema for model " ++ model
  | modelNotFound model => "Model not found: " ++ model
  | unresolvedRelation model relation target fault =>
    "Relation '" ++ relation ++ "' of model '" ++ model ++ "' unresolved: " ++ fault.reason ++
      " (ref '" ++ target ++ "')"
  | malformedDefinition path fault => "Malformed model definition '" ++ path ++ "': " ++ fault.reason

/-- The event that reports the fault; a look-up that finds nothing is not reported. -/
def event? : SchemaError → Option Event
  | duplicateModel _ => some .modelConflict
  | missingModelName => some .missingModelName
  | missingSchema _ => some .missingSchema
  | modelNotFound _ => none
  | unresolvedRelation .. => some .relationUnresolved
  | malformedDefinition .. => some .malformedDefinition

/-- The details of the fault. -/
def details : SchemaError → Details
  | duplicateModel model | missingSchema model | modelNotFound model => [("model", model)]
  | missingModelName => []
  | unresolvedRelation model relation target fault =>
    [("model", model), ("alias", relation), ("ref", target), ("reason", fault.reason)]
  | malformedDefinition path fault => [("path", path), ("reason", fault.reason)]

/-- The signals that report the fault. -/
def signals (e : SchemaError) : List Signal :=
  e.event?.toList.map fun event => .event event e.details

end SchemaError

end SchemaQuery
