/-!
# Files

A directory of files as the agent sees it: what a path leads to from there, and why a file cannot
be read as text.  A path is a list of names between slashes; the file that it names is looked up
name by name.
-/

namespace NodeTelemetry

/-- Why a file cannot be read as text. -/
inductive FileError where
  | notFound
  | notDirectory
  | isDirectory
  | nameTooLong
  | nulInName
  | denied
  | notText
  deriving DecidableEq, Repr

/-- The text of an error, with its number if it is the system's. -/
def FileError.message : FileError → String
  | .notFound => "No such file or directory (os error 2)"
  | .notDirectory => "Not a directory (os error 20)"
  | .isDirectory => "Is a directory (os error 21)"
  | .nameTooLong => "File name too long (os error 36)"
  | .nulInName => "file name contained an unexpected NUL byte"
  | .denied => "Permission denied (os error 13)"
  | .notText => "stream did not contain valid UTF-8"

/-- What stands at a place in a directory. -/
inductive FileEntry where
  | file (bytes : ByteArray)
  | directory

/-- A directory: what stands at each place in it, as a list of names from the directory on. -/
structure Directory where
  entries : List (List String × FileEntry)

/-- The names of a path, without those that stand for the same place.  A path that starts with a
slash starts from the root, which is named by the slash. -/
def pathNames (path : String) : List String :=
  (if path.startsWith "/" then ["/"] else [])
    ++ ((path.toList.splitOn '/').map String.ofList).filter fun name =>
      !(name.isEmpty || name == ".")

namespace Directory

/-- The directory without files. -/
def empty : Directory := ⟨[]⟩

/-- The directory with something put at the place of a path, instead of what was there. -/
def put (d : Directory) (path : String) (entry : FileEntry) : Directory :=
  let names := pathNames path
  ⟨(names, entry) :: d.entries.filter fun e => e.1 ≠ names⟩

/-- The directory without what stands at the place of a path. -/
def remove (d : Directory) (path : String) : Directory :=
  let names := pathNames path
  ⟨d.entries.filter fun e => e.1 ≠ names⟩

/-- What stands at a place.  A place on the way to another one is a directory. -/
def at? (d : Directory) (names : List String) : Option FileEntry :=
  if names.isEmpty then some .directory
  else
    match d.entries.lookup names with
    | some entry => some entry
    | none =>
      if d.entries.any fun e => names.isPrefixOf e.1 then some .directory else none

/-- The longest name that a file can have, in bytes. -/
def maxNameLength : Nat := 255

/-- The longest path that can be looked up, in bytes. -/
def maxPathLength : Nat := 4095

/-- Follows names from a place, of which the names come last to first; `none` is a place outside the
directory, in which nothing is known. -/
def follow (d : Directory) : Option (List String) → List String → Except FileError FileEntry
  | none, [] => .ok .directory
  | none, _ :: _ => .error .notFound
  | some place, [] =>
    match d.at? place.reverse with
    | some entry => .ok entry
    | none => .error .notFound
  | some place, name :: rest =>
    match d.at? place.reverse with
    | none => .error .notFound
    | some (.file _) => .error .notDirectory
    | some .directory =>
      if maxNameLength < name.utf8ByteSize then .error .nameTooLong
      else if name = ".." then follow d (if place.isEmpty then none else some place.tail) rest
      else follow d (some (name :: place)) rest

/-- What a path leads to. -/
def resolve (d : Directory) (path : String) : Except FileError FileEntry :=
  if path.toList.contains '\x00' then .error .nulInName
  else if path.isEmpty then .error .notFound
  else if maxPathLength < path.utf8ByteSize then .error .nameTooLong
  else
    let names := pathNames path
    let wantsDirectory := path.endsWith "/" || path.endsWith "/."
    match d.follow (some []) names with
    | .ok (.file bytes) => if wantsDirectory then .error .notDirectory else .ok (.file bytes)
    | result => result

/-- The text of the file that a path names. -/
def readText (d : Directory) (path : String) : Except FileError String := do
  match ← d.resolve path with
  | .directory => .error .isDirectory
  | .file bytes =>
    match String.fromUTF8? bytes with
    | some text => .ok text
    | none => .error .notText

end Directory

end NodeTelemetry
