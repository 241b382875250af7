import SchemaQuery.Dictionary

/-!
# File trees

A tree of files below one directory. Paths are written with `/`; a path begins at the top of the tree, and
one that leads out of the tree names nothing. Paths and the names in them have a greatest length, and
making a directory keeps the directories above it that were made before a fault.
-/

namespace SchemaQuery

/-- What a path of the tree names. -/
inductive FileEntry where
  /-- A file; its content is missing where it is no text. -/
  | file (content : Option String)
  | directory
  deriving DecidableEq

/-- A place in the tree: the names of the directories from the top, then its own. -/
abbrev Location := List String

/-- The entries of a tree, apart from its top. -/
structure FileTree where
  entries : List (Location × FileEntry)

namespace FileTree

/-- The tree without entries. -/
def empty : FileTree :=
  ⟨[]⟩

/-- What is at a place. -/
def entryAt? (t : FileTree) (place : Location) : Option FileEntry :=
  if place = [] then some .directory else t.entries.lookup place

/-- Whether a place is a directory. -/
def isDirectoryAt (t : FileTree) (place : Location) : Bool :=
  t.entryAt? place = some .directory

/-- Puts an entry at a place. -/
def put (t : FileTree) (place : Location) (entry : FileEntry) : FileTree :=
  ⟨(place, entry) :: t.entries.filter fun e => e.1 ≠ place⟩

/-- The parts of a text between slashes. -/
def splitPath : List Char → (part : List Char) → List String
  | [], part => [String.ofList part.reverse]
  | '/' :: rest, part => String.ofList part.reverse :: splitPath rest []
  | c :: rest, part => splitPath rest (c :: part)

/-- The bytes that a path may have. -/
def pathLimit : Nat := 4095

/-- The bytes that a file name may have. -/
def nameLimit : Nat := 255

/-- The parts of a path; nothing for the empty path, one that begins at the root of the system and one
that is too long. -/
def parts? (path : String) : Option (List String) :=
  if path = "" ∨ path.toList.head? = some '/' ∨ path.toList.contains '\x00' ∨
      pathLimit < path.utf8ByteSize then none
  else some (splitPath path.toList [])

/-- Follows parts from a place, which is kept with its last name first. All but the last part must be
directories. -/
def follow? (t : FileTree) : List String → (place : Location) → Option Location
  | [], place => some place.reverse
  | part :: rest, place =>
    if ¬t.isDirectoryAt place.reverse then none
    else if part = "" ∨ part = "." then t.follow? rest place
    else if part = ".." then
      match place with
      | [] => none
      | _ :: above => t.follow? rest above
    else t.follow? rest (part :: place)

/-- The place that a path names, whether or not something is there. -/
def locate? (t : FileTree) (path : String) : Option Location :=
  (parts? path).bind (t.follow? · [])

/-- What a path names. -/
def lookup? (t : FileTree) (path : String) : Option FileEntry :=
  (t.locate? path).bind t.entryAt?

/-- The name of an entry that is directly in a directory. -/
def childName? (directory place : Location) : Option String :=
  match place.reverse with
  | name :: above => if above.reverse = directory then some name else none
  | [] => none

/-- The entries of a directory by name. -/
def list? (t : FileTree) (path : String) : Option (Dictionary FileEntry) :=
  match t.locate? path with
  | none => none
  | some place =>
    if t.isDirectoryAt place then
      some (Dictionary.ofList (t.entries.filterMap fun e =>
        (childName? place e.1).map fun name => (name, e.2)))
    else none

/-- The text of a file. -/
def readText? (t : FileTree) (path : String) : Option String :=
  match t.lookup? path with
  | some (.file content) => content
  | _ => none

/-- Makes the directories along parts that are missing, and tells whether all are there then. -/
def makeAlong (t : FileTree) : List String → (place : Location) → Bool × FileTree
  | [], _ => (true, t)
  | part :: rest, place =>
    if part = "" ∨ part = "." then t.makeAlong rest place
    else if part = ".." then
      match place with
      | [] => (false, t)
      | _ :: above => t.makeAlong rest above
    else
      let here := part :: place
      match t.entryAt? here.reverse with
      | some .directory => t.makeAlong rest here
      | some (.file _) => (false, t)
      | none =>
        if nameLimit < part.utf8ByteSize then (false, t)
        else (t.put here.reverse .directory).makeAlong rest here

/-- Whether a path ends in `.`, which only names a directory that is there. -/
def endsInDot (parts : List String) : Bool :=
  (parts.filter (· ≠ "")).getLast? = some "."

/-- Makes a directory and those above it, and tells whether it is there then. The empty path asks for
nothing. -/
def makeDirectory (t : FileTree) (path : String) : Bool × FileTree :=
  match parts? path with
  | none => (path = "", t)
  | some parts =>
    let names := parts.filter fun part => part ≠ "" ∧ part ≠ "."
    if endsInDot parts then
      let above := t.makeAlong names.dropLast []
      (above.1 && ((above.2.follow? names []).map above.2.isDirectoryAt).getD false, above.2)
    else t.makeAlong names []

/-- Writes a file into a directory that is there. -/
def writeFile? (t : FileTree) (path : String) (content : Option String) : Option FileTree :=
  match t.locate? path with
  | none => none
  | some place =>
    if t.isDirectoryAt place ∨ place.any (fun name => nameLimit < name.utf8ByteSize) then none
    else some (t.put place (.file content))

/-- Puts an entry at a path, with the directories above it. What is no path of the tree is passed over. -/
def install (t : FileTree) (path : String) (entry : FileEntry) : FileTree :=
  match parts? path with
  | none => t
  | some parts =>
    match entry with
    | .directory => (t.makeAlong parts []).2
    | .file content =>
      let made := (t.makeAlong parts.dropLast []).2
      (made.writeFile? path content).getD made

/-- A path behind a directory; one that begins at the root of the system stands by itself. -/
def joinPath (directory name : String) : String :=
  if name.toList.head? = some '/' then name
  else if directory = "" ∨ directory.toList.getLast? = some '/' then directory ++ name
  else directory ++ "/" ++ name

/-- Whether a file name ends in an extension and has something before it. -/
def hasExtension (name extension : String) : Bool :=
  let ending := ('.' :: extension.toList).reverse
  ending.isPrefixOf name.toList.reverse && ending.length < name.length

end FileTree

end SchemaQuery
