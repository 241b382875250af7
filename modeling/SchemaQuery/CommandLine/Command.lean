import SchemaQuery.CommandLine.Config
import SchemaQuery.Diagnostics.Sink
import SchemaQuery.Filter.Codec
import SchemaQuery.Filter.Compile
import SchemaQuery.Filter.Lowering

/-!
# Commands

Neither command needs a database: one scans the model definitions and tells what it found, the other
compiles a filter. What a command reads it asks of its surroundings, so that it runs on a tree of files in
memory as well as on the files of a system.
-/

namespace SchemaQuery

/-- What a command can read. -/
structure Surroundings (m : Type → Type) where
  /-- The text of a file, if it is there and is text. -/
  readText : String → m (Option String)
  /-- The entries of a directory, if it is there. -/
  list : String → m (Option (Dictionary FileEntry))
  /-- The input, if it is text. -/
  input : m (Option String)

/-- The surroundings that a tree of files and an input make. -/
def FileTree.surroundings (files : FileTree) (input : Option String) : Surroundings Id where
  readText := files.readText?
  list := files.list?
  input := input

/-- What is asked of the program. -/
inductive Command where
  /-- To scan the models directory of a configuration file. -/
  | check (config : String)
  /-- To compile the filter of the input. -/
  | compile
  deriving DecidableEq

namespace Command

/-- Scans the entries of the models directory and tells of the models and of all problems. -/
def checkModels (config : Config) (entries : Option (Dictionary FileEntry)) :
    Except CommandError Json :=
  let connected := Database.connect (.ofTables []) config.options
  let scanned := connected.value.registry.scanEntries config.modelsDir entries
  match scanned.value with
  | (.error fault, _) => .error (.scan fault)
  | (.ok report, registry) =>
    let records := Diagnostic.ofSignals (connected.signals ++ scanned.signals)
    .ok (.obj
      [("models", .arr (registry.models.values.map Model.toJson)),
        ("registered", .ofNat report.registered.length),
        ("skipped", .ofNat report.skipped.length),
        ("unresolved", .ofNat report.relations.unresolved.length),
        ("diagnostics", .arr ((Diagnostic.problems records).map Diagnostic.toJson))])

/-- The value of an input, which must be text that is not blank. -/
def readInput (input : Option String) : Except InputFault Json :=
  match input with
  | none => .error .notText
  | some text =>
    if Text.isEmptyOrBlank text then .error .empty
    else
      match Json.ofText? text with
      | none => .error .malformed
      | some value => .ok value

/-- Compiles a filter to its tree and to a where clause. -/
def compileFilter : Json → Except CommandError Json
  | .obj members =>
    match Filter.compile members with
    | .error fault => .error (.filter fault)
    | .ok tree =>
      let sql := (Clause.ofPredicate tree).sql
      .ok (.obj
        [("tree", (tree.map Predicate.toJson).getD .null),
          ("where", .str sql.text),
          ("bindings", .arr sql.bindings)])
  | _ => .error .filterNotAnObject

/-- Runs a command. -/
def run {m : Type → Type} [Monad m] (s : Surroundings m) : Command → m (Except CommandError Json)
  | check path => do
    match Config.ofContent (← s.readText path) with
    | .error fault => return .error (.config fault)
    | .ok config => return checkModels config (← s.list config.modelsDir)
  | compile => do
    match readInput (← s.input) with
    | .error fault => return .error (.input fault)
    | .ok filter => return compileFilter filter

end Command

/-- The line that tells what a command found. -/
def responseLine (data : Json) : String :=
  (Json.obj [("status", .str "ok"), ("data", data)]).compact ++ "\n"

/-- The line that tells of a fault. -/
def errorLine (code message : String) : String :=
  (Json.obj [("status", .str "error"), ("code", .str code), ("message", .str message)]).compact ++
    "\n"

end SchemaQuery
