import SchemaQuery.CommandLine.Error
import SchemaQuery.Database

/-!
# Configurations

A configuration file says where the model definitions are and how the database is used.
-/

namespace SchemaQuery

/-- What a configuration file says. -/
structure Config where
  /-- The directory of the definition files. -/
  modelsDir : String
  options : DatabaseOptions
  deriving DecidableEq

namespace Config

/-- A configuration as JSON. -/
def toJson (c : Config) : Json :=
  .obj (("models_dir", .str c.modelsDir) :: c.options.members)

/-- Reads a configuration. -/
def ofDocument? (d : Document) : Option Config := do
  match ← d.fields? [["models_dir"], ["debug"], ["default_limit"]] with
  | [modelsDir, debug, defaultLimit] =>
    let modelsDir ← Document.required? Document.asString? modelsDir
    let debug ← Document.orElse? false Document.asBool? debug
    let defaultLimit ← Document.orElse? defaultPageLimit Document.asNat? defaultLimit
    return { modelsDir, options := { debug, defaultLimit } }
  | _ => none

/-- A configuration that can be used: it names a directory, and a page has rows. -/
def validate (c : Config) : Except ConfigFault Config :=
  if Text.isEmptyOrBlank c.modelsDir then .error .missingModelsDir
  else if c.options.defaultLimit = 0 then .error .zeroLimit
  else .ok c

/-- The configuration of a file with some content, which is missing where the file is no text. -/
def ofContent (content : Option String) : Except ConfigFault Config :=
  match content with
  | none => .error .unreadable
  | some text =>
    match (Document.ofText? text).bind ofDocument? with
    | none => .error .malformed
    | some config => config.validate

end Config

end SchemaQuery
