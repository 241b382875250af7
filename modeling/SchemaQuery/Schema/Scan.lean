import SchemaQuery.Json.Printer
import SchemaQuery.Json.Reader
import SchemaQuery.Schema.Codec
import SchemaQuery.Schema.FileTree
import SchemaQuery.Schema.Registry

/-!
# Definition files

A directory holds one definition in each `*.json` file. Scanning registers them in the order of their
names and then resolves all relations; what cannot be read or is refused is skipped and reported.
-/

namespace SchemaQuery

/-- What scanning a directory came to. -/
structure ScanReport where
  /-- The names of the models that were registered. -/
  registered : List String
  /-- One fault for each file that gave no model. -/
  skipped : List SchemaError
  relations : ResolveReport

namespace Registry

/-- The extension of definition files. -/
def definitionExtension : String := "json"

/-- The definition files of a directory in the order of their names, with what they hold. A file whose
path is too long is not seen. -/
def definitionFiles (directory : String) (entries : Dictionary FileEntry) :
    List (String × Option String) :=
  entries.entries.filterMap fun (name, entry) =>
    match entry with
    | .file content =>
      let path := FileTree.joinPath directory name
      if FileTree.hasExtension name definitionExtension ∧ path.utf8ByteSize ≤ FileTree.pathLimit then
        some (path, content)
      else none
    | .directory => none

/-- Reads the definition of a file. -/
def readDefinition (path : String) (content : Option String) : Except SchemaError Definition :=
  match content with
  | none => .error (.malformedDefinition path .unreadableFile)
  | some text =>
    match (Document.ofText? text).bind Definition.ofDocument? with
    | none => .error (.malformedDefinition path .invalidJson)
    | some definition => .ok definition

/-- Registers the model of a file. -/
def addFile (r : Registry) (path : String) (content : Option String) :
    Reported (Except SchemaError Model × Registry) :=
  match readDefinition path content with
  | .error fault => ⟨(.error fault, r), fault.signals⟩
  | .ok definition => r.addModel definition

/-- Registers the models of files in order. -/
def addFiles (r : Registry) :
    List (String × Option String) → Reported (List (Except SchemaError Model) × Registry)
  | [] => .silent ([], r)
  | (path, content) :: rest =>
    let first := r.addFile path content
    let others := first.value.2.addFiles rest
    ⟨(first.value.1 :: others.value.1, others.value.2), first.signals ++ others.signals⟩

/-- Registers the definition files among the entries of a directory and resolves all relations. A directory
without entries to look at cannot be read. -/
def scanEntries (r : Registry) (directory : String) (entries : Option (Dictionary FileEntry)) :
    Reported (Except SchemaError ScanReport × Registry) :=
  match entries with
  | none => .silent (.error (.malformedDefinition directory .unreadableDirectory), r)
  | some entries =>
    let added := r.addFiles (definitionFiles directory entries)
    let resolved := added.value.2.resolveAll
    let registered := added.value.1.filterMap fun outcome => outcome.toOption.map Model.name
    let skipped := added.value.1.filterMap fun outcome =>
      match outcome with
      | .ok _ => none
      | .error fault => some fault
    ⟨(.ok ⟨registered, skipped, resolved.value.1⟩, resolved.value.2),
      added.signals ++ resolved.signals ++
        [.event .schemaScanned
          [("dir", directory), ("registered", toString registered.length),
            ("skipped", toString skipped.length)]]⟩

/-- Registers every definition file of a directory and resolves all relations. -/
def scan (r : Registry) (files : FileTree) (directory : String) :
    Reported (Except SchemaError ScanReport × Registry) :=
  r.scanEntries directory (files.list? directory)

end Registry

/-- A definition file that has been written. -/
structure SavedDefinition where
  path : String
  content : String

/-- Writes a definition into a file of its name. A file that is there is not replaced. -/
def FileTree.saveDefinition (files : FileTree) (directory : String) (d : Definition) :
    Except SchemaError SavedDefinition × FileTree :=
  let name := Text.trimmed (d.name.getD "")
  if name = "" then (.error .missingModelName, files)
  else
    let path := joinPath directory (name ++ "." ++ Registry.definitionExtension)
    if (files.lookup? path).isSome then (.error (.duplicateModel name), files)
    else
      match files.makeDirectory directory with
      | (false, made) => (.error (.malformedDefinition directory .uncreatableDirectory), made)
      | (true, made) =>
        let content := d.toJson.pretty
        match made.writeFile? path (some content) with
        | none => (.error (.malformedDefinition path .unwritableFile), made)
        | some written => (.ok ⟨path, content⟩, written)

end SchemaQuery
