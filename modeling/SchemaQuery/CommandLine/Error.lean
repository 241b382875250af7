import SchemaQuery.Filter.Error
import SchemaQuery.Schema.Error

/-!
# Faults of commands
-/

namespace SchemaQuery

/-- Why a configuration is refused. -/
inductive ConfigFault where
  | unreadable
  | malformed
  | missingModelsDir
  | zeroLimit
  deriving DecidableEq

/-- Why, for a reader. -/
def ConfigFault.reason : ConfigFault → String
  | unreadable => "Failed to read config: not a text file"
  | malformed => "Invalid config JSON: not a configuration"
  | missingModelsDir => "models_dir is required"
  | zeroLimit => "default_limit must be > 0"

/-- Why the input of a command is refused. -/
inductive InputFault where
  | notText
  | empty
  | malformed
  deriving DecidableEq

/-- Why, for a reader. -/
def InputFault.reason : InputFault → String
  | notText => "stream did not contain valid UTF-8"
  | empty => "Empty input"
  | malformed => "JSON error: not a JSON document"

/-- Why a command fails. -/
inductive CommandError where
  | config (fault : ConfigFault)
  | input (fault : InputFault)
  | scan (fault : SchemaError)
  | filterNotAnObject
  | filter (fault : FilterError)

namespace CommandError

/-- The name of the fault. -/
def code : CommandError → String
  | config _ => "CENTAURE_CLI_CONFIG_ERROR"
  | input _ => "CENTAURE_CLI_IO_ERROR"
  | scan _ => "CENTAURE_CLI_SCAN_FAILED"
  | filterNotAnObject | filter _ => "CENTAURE_CLI_COMPILE_FAILED"

/-- The fault for a reader. -/
def message : CommandError → String
  | config fault => fault.reason
  | input fault => fault.reason
  | scan fault => fault.message
  | filterNotAnObject => "Filter must be a JSON object"
  | filter fault => fault.code ++ ": " ++ fault.message

/-- A code and a message in one line. -/
def describe (code message : String) : String :=
  code ++ ": " ++ message

/-- The fault in one line. -/
def toText (e : CommandError) : String :=
  describe e.code e.message

end CommandError

end SchemaQuery
