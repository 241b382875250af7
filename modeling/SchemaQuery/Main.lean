import SchemaQuery.CommandLine.Arguments

/-!
# The program

Runs a command on the files of the system.
-/

namespace SchemaQuery

/-- The text of a file of the system. -/
def readFileText (path : String) : IO (Option String) := do
  try
    return some (← IO.FS.readFile path)
  catch _ =>
    return none

/-- The entries of a directory of the system; of its files only those that hold definitions are read. -/
def listDirectory (path : String) : IO (Option (Dictionary FileEntry)) := do
  try
    let mut entries : Dictionary FileEntry := .empty
    for entry in ← ((← IO.currentDir) / path).readDir do
      if ← entry.path.isDir then
        entries := entries.insert entry.fileName .directory
      else if FileTree.hasExtension entry.fileName Registry.definitionExtension then
        entries := entries.insert entry.fileName (.file (← readFileText entry.path.toString))
    return some entries
  catch _ =>
    return none

/-- The text of the standard input. -/
def readStandardInput : IO (Option String) := do
  return String.fromUTF8? (← (← IO.getStdin).readBinToEnd)

/-- The surroundings that the system makes. -/
def systemSurroundings : Surroundings IO where
  readText := readFileText
  list := listDirectory
  input := readStandardInput

/-- Does what arguments ask for, and gives the exit code. -/
def runProgram : Invocation → IO UInt32
  | .help => do
    IO.print Invocation.helpText
    return 0
  | .version => do
    IO.print Invocation.versionText
    return 0
  | .misuse => do
    IO.eprint Invocation.helpText
    return Invocation.misuseCode
  | .run command => do
    match ← command.run systemSurroundings with
    | .ok data =>
      IO.print (responseLine data)
      return 0
    | .error fault =>
      IO.eprintln fault.toText
      return Invocation.failureCode

end SchemaQuery

/-- The program. -/
def main (args : List String) : IO UInt32 :=
  SchemaQuery.runProgram (.ofArguments args)
