import SchemaQuery.CommandLine.Command

/-!
# Arguments

What the program is asked to do, by its arguments. They are read from left to right, and the first one that
settles the matter decides: a wish for help or a mistake.
-/

namespace SchemaQuery

/-- What arguments ask for. -/
inductive Invocation where
  | run (command : Command)
  | help
  | version
  /-- Arguments that make no sense. -/
  | misuse
  deriving DecidableEq

namespace Invocation

/-- The configuration file when none is named. -/
def defaultConfig : String := "./centaure.json"

/-- Whether an argument is a wish for help: the word, or short options of which the first is for help. -/
def asksForHelp (arg : String) : Bool :=
  arg = "--help" || ['-', 'h'].isPrefixOf arg.toList

/-- Whether an argument is a wish for the version. -/
def asksForVersion (arg : String) : Bool :=
  arg = "--version" || ['-', 'V'].isPrefixOf arg.toList

/-- Whether an argument can be the value of an option: it is not empty and no option itself. A minus alone
is no option. -/
def isValue (arg : String) : Bool :=
  arg ≠ "" && (arg = "-" || arg.toList.head? ≠ some '-')

/-- The value that is joined to the option `--config`. -/
def joinedConfig? (arg : String) : Option String :=
  let start := "--config=".toList
  if start.isPrefixOf arg.toList then some (String.ofList (arg.toList.drop start.length)) else none

/-- Reads the arguments of `check` behind a configuration file, which is named once at most. -/
def ofCheck : List String → (config : Option String) → Invocation
  | [], config => .run (.check (config.getD defaultConfig))
  | ["--"], config => .run (.check (config.getD defaultConfig))
  | ["--config"], _ => .misuse
  | "--config" :: value :: rest, config =>
    if isValue value && config.isNone then ofCheck rest (some value) else .misuse
  | arg :: rest, config =>
    if asksForHelp arg then .help
    else
      match joinedConfig? arg with
      | some value => if value ≠ "" && config.isNone then ofCheck rest (some value) else .misuse
      | none => .misuse

/-- Reads the arguments of `compile`. -/
def ofCompile : List String → Invocation
  | [] | ["--"] => .run .compile
  | arg :: _ => if asksForHelp arg then .help else .misuse

/-- Reads the arguments of `help`: no command, or one. -/
def ofHelp : List String → Invocation
  | [] | ["check"] | ["compile"] | ["help"] => .help
  | _ => .misuse

/-- Reads arguments. -/
def ofArguments : List String → Invocation
  | "check" :: rest => ofCheck rest none
  | "compile" :: rest => ofCompile rest
  | "help" :: rest => ofHelp rest
  | arg :: _ =>
    if asksForHelp arg then .help
    else if asksForVersion arg then .version
    else .misuse
  | [] => .misuse

/-- What is printed for help. -/
def helpText : String :=
  "Centaure - schema registry and filter compiler for relational models\n\n" ++
  "Usage: centaure <COMMAND>\n\n" ++
  "Commands:\n" ++
  "  check    Scan the models directory and resolve relations\n" ++
  "  compile  Compile a filter object read from stdin\n" ++
  "  help     Print this message or the help of the given subcommand(s)\n\n" ++
  "Options:\n" ++
  "  -h, --help     Print help\n" ++
  "  -V, --version  Print version\n"

/-- What is printed for the version. -/
def versionText : String :=
  "centaure 0.1.0\n"

/-- The exit code of a program that was misused. -/
def misuseCode : UInt32 := 2

/-- The exit code of a program of which the command failed. -/
def failureCode : UInt32 := 1

end Invocation

end SchemaQuery
