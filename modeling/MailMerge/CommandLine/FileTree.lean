import MailMerge.Text.Basic

set_option autoImplicit false

namespace MailMerge.CommandLine

/-- Files by the names that lead to them, from the outermost directory on. Directories are there
because of the files in them. -/
structure FileTree where
  files : List (List Text × List UInt8)
  deriving Repr, DecidableEq

def hereSegment : Text := ['.']

def parentSegment : Text := ['.', '.']

def isName (segment : Text) : Bool :=
  segment ≠ [] && segment ≠ hereSegment && segment ≠ parentSegment

def segmentsOf (path : Text) : List Text := Text.splitAt '/' path

/-- The names in a path, without what leads up or stays. -/
def namesOf (path : Text) : List Text := (segmentsOf path).filter isName

def isAbsolute (path : Text) : Bool := path.head? == some '/'

def joinNames (names : List Text) : Text := ['/'].intercalate names

namespace FileTree

def file? (tree : FileTree) (names : List Text) : Option (List UInt8) :=
  (tree.files.find? fun entry => entry.1 = names).map Prod.snd

def isDirectory (tree : FileTree) (names : List Text) : Bool :=
  names.isEmpty || tree.files.any fun entry => names.isPrefixOf entry.1 && entry.1 ≠ names

def put (names : List Text) (bytes : List UInt8) (tree : FileTree) : FileTree :=
  ⟨tree.files.filter (fun entry => entry.1 ≠ names) ++ [(names, bytes)]⟩

/-- The files of a tree that are not in another one with the same bytes. -/
def since (tree before : FileTree) : List (List Text × List UInt8) :=
  tree.files.filter fun entry => before.file? entry.1 ≠ some entry.2

end FileTree

inductive WriteProblem where
  /-- A file stands where a directory is needed. -/
  | noDirectory
  /-- A directory stands where the file is to go. -/
  | noFile
  deriving Repr, DecidableEq

/-- Where a segment leads from a directory, whose names come last first. The root has nothing above
it. -/
def enter (directory : List Text) (segment : Text) : List Text :=
  if segment = parentSegment then directory.tail
  else if isName segment then segment :: directory
  else directory

/-- All files that there are, from the root on, and the directory that a run works in. -/
structure FileSystem where
  tree : FileTree
  /-- The names of the working directory. -/
  working : List Text
  deriving Repr, DecidableEq

namespace FileSystem

def isDirectory (system : FileSystem) (names : List Text) : Bool :=
  system.tree.isDirectory names || names.isPrefixOf system.working

/-- The directory that a path begins in, with its names last first. -/
def origin (path : Text) (system : FileSystem) : List Text :=
  if isAbsolute path then [] else system.working.reverse

/-- The names to which a path leads, whatever is there. -/
def place (path : Text) (system : FileSystem) : List Text :=
  ((segmentsOf path).foldl enter (system.origin path)).reverse

/-- The names that segments lead to from a directory, whose own names come last first. -/
def follow? (system : FileSystem) (directory : List Text) : List Text → Option (List Text)
  | [] => none
  | [segment] => if isName segment then some (segment :: directory).reverse else none
  | segment :: rest =>
    let inner := enter directory segment
    if system.isDirectory inner.reverse then system.follow? inner rest else none

def read? (system : FileSystem) (path : Text) : Option (List UInt8) :=
  (system.follow? (system.origin path) (segmentsOf path)).bind system.tree.file?

/-- The names that segments lead to from a directory, whose own names come last first, when the
directories that are missing on the way are made. Those passed so far are directories even if
nothing stands in them. -/
def reach (system : FileSystem) (passed : List (List Text)) (directory : List Text) :
    List Text → Except WriteProblem (List Text)
  | [] => .error .noFile
  | [segment] =>
    let names := (segment :: directory).reverse
    if !isName segment || system.isDirectory names || passed.contains names then .error .noFile
    else .ok names
  | segment :: rest =>
    let inner := enter directory segment
    if (system.tree.file? inner.reverse).isSome then .error .noDirectory
    else system.reach (inner.reverse :: passed) inner rest

/-- Writes a file at a path and makes the directories that lead to it. -/
def write (path : Text) (bytes : List UInt8) (system : FileSystem) :
    Except WriteProblem FileSystem := do
  let names ← system.reach [] (system.origin path) (segmentsOf path)
  return { system with tree := system.tree.put names bytes }

/-- A working directory with these files, of which nothing else is known. It has no name, so no path
leads into it from outside. -/
def ofTree (tree : FileTree) : FileSystem :=
  ⟨⟨tree.files.map fun (names, bytes) => ([] :: names, bytes)⟩, [[]]⟩

def here (system : FileSystem) : FileTree :=
  ⟨system.tree.files.filterMap fun (names, bytes) =>
    if system.working.isPrefixOf names then some (names.drop system.working.length, bytes)
    else none⟩

end FileSystem

end MailMerge.CommandLine
