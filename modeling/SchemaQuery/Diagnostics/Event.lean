/-!
# Events

Everything that the registry and the query layer report under a name of its own, with how grave it is.
-/

namespace SchemaQuery

/-- How grave a report is. -/
inductive Severity where
  | debug
  | info
  | warn
  | error
  deriving DecidableEq

namespace Severity

/-- The name in log lines. -/
def name : Severity → String
  | debug => "DEBUG"
  | info => "INFO"
  | warn => "WARN"
  | error => "ERROR"

/-- The place in the order of gravity. -/
def rank : Severity → Nat
  | debug => 0
  | info => 1
  | warn => 2
  | error => 3

/-- Whether a report is at least as grave as another. -/
def reaches (s least : Severity) : Bool :=
  least.rank ≤ s.rank

/-- Whether a report of this severity is a problem. -/
def isProblem (s : Severity) : Bool :=
  s.reaches warn

end Severity

/-- What is reported. -/
inductive Event where
  | connected
  | registryReset
  | schemaScanned
  | modelRegistered
  | modelConflict
  | missingModelName
  | missingSchema
  | unknownPropertyType
  | malformedDefinition
  | relationResolved
  | relationUnresolved
  | relationsInitialized
  | propertyCoercion
  | queryExecuted
  deriving DecidableEq

namespace Event

/-- Every event. -/
def all : List Event :=
  [connected, registryReset, schemaScanned, modelRegistered, modelConflict, missingModelName,
    missingSchema, unknownPropertyType, malformedDefinition, relationResolved, relationUnresolved,
    relationsInitialized, propertyCoercion, queryExecuted]

/-- The name in log lines. -/
def name : Event → String
  | connected => "CONNECTED"
  | registryReset => "REGISTRY_RESET"
  | schemaScanned => "SCHEMA_SCANNED"
  | modelRegistered => "MODEL_REGISTERED"
  | modelConflict => "MODEL_CONFLICT"
  | missingModelName => "MISSING_MODEL_NAME"
  | missingSchema => "MISSING_SCHEMA"
  | unknownPropertyType => "UNKNOWN_PROPERTY_TYPE"
  | malformedDefinition => "MALFORMED_DEFINITION"
  | relationResolved => "RELATION_RESOLVED"
  | relationUnresolved => "RELATION_UNRESOLVED"
  | relationsInitialized => "RELATIONS_INITIALIZED"
  | propertyCoercion => "PROPERTY_COERCION"
  | queryExecuted => "QUERY_EXECUTED"

/-- How grave the event is. -/
def severity : Event → Severity
  | modelConflict | missingModelName | missingSchema | unknownPropertyType | malformedDefinition
  | relationUnresolved | propertyCoercion => .warn
  | relationResolved | queryExecuted => .debug
  | connected | registryReset | schemaScanned | modelRegistered | relationsInitialized => .info

/-- Whether the event reports a problem. -/
def isProblem (e : Event) : Bool :=
  e.severity.isProblem

/-- The event of a name. -/
def ofName? (name : String) : Option Event :=
  all.find? fun e => e.name = name

end Event

end SchemaQuery
