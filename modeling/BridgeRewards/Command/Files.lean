import BridgeRewards.Table

/-!
# Files

A command reads files, makes directories and writes files.  It may do so in any monad that says
how; `FileTree` is a working directory with files and directories in it, as a value.  It lies in
directories of which nothing else is known: there is nothing to be read in them, and what is
written there is not kept.
-/

set_option autoImplicit false

namespace BridgeRewards

/-- Why a file cannot be read or written. -/
inductive FileFault
  | notFound
  | alreadyExists
  | notDirectory
  | isDirectory
  /-- A part of the path, or all of it, has too many bytes. -/
  | nameTooLong
  /-- The path holds a character that ends it before its end. -/
  | zeroInName
  /-- Another cause, in the words of the system. -/
  | other (description : String)
  deriving DecidableEq

/-- The wording of a fault. -/
def FileFault.message : FileFault → String
  | notFound => "No such file or directory (os error 2)"
  | alreadyExists => "File exists (os error 17)"
  | notDirectory => "Not a directory (os error 20)"
  | isDirectory => "Is a directory (os error 21)"
  | nameTooLong => "File name too long (os error 36)"
  | zeroInName => "file name contained an unexpected NUL byte"
  | other description => description

/-- The largest number of bytes of a path. -/
def maxPathBytes : Nat := 4095

/-- The largest number of bytes of a part of a path. -/
def maxPartBytes : Nat := 255

/-- What is wrong with a path wherever it leads. -/
def FileFault.ofPath? (path : String) : Option FileFault :=
  if path.toList.contains (Char.ofNat 0) then some zeroInName
  else if maxPathBytes < path.utf8ByteSize then some nameTooLong
  else none

/-- The path of a file in a directory. -/
def pathIn (directory name : String) : String :=
  if directory.endsWith "/" then directory ++ name else directory ++ "/" ++ name

/-- A monad in which files can be read and written. -/
class Files (m : Type → Type) where
  /-- The text of a file. -/
  read : String → m (Except FileFault String)
  /-- Makes a directory and those that it lies in, as far as they are missing. -/
  makeDirectory : String → m (Except FileFault Unit)
  /-- Writes a file that holds a text. -/
  write : String → String → m (Except FileFault Unit)

/-- What stands at a place of a tree. -/
inductive FileNode
  | file (text : String)
  | directory
  deriving DecidableEq

/-- A working directory.  Places are paths with slashes between their parts. -/
structure FileTree where
  nodes : Table String FileNode

namespace FileTree

/-- The parts of a path. -/
def parts (path : String) : List String := path.splitOn "/"

/-- The path of a place below the working directory, given its parts with the last one first. -/
def pathOf (place : List String) : String := "/".intercalate place.reverse

/-- What stands at a place, given its parts with the last one first. -/
def node? (tree : FileTree) : List String → Option FileNode
  | [] => some .directory
  | place => tree.nodes.find? (pathOf place)

/-- Whether a part of a path leads nowhere else. -/
def isHere (part : String) : Bool := part == "" || part == "."

/-- Where a path leads. -/
inductive Location
  /-- A place below the working directory, given its parts with the last one first. -/
  | below (place : List String)
  /-- A directory that the working directory lies in. -/
  | above
  /-- Another place outside of the working directory. -/
  | elsewhere
  deriving DecidableEq

/-- Where the parts of a path lead from a directory that the working directory lies in. -/
def Location.outside (parts : List String) : Location :=
  if parts.all fun part => isHere part || part == ".." then above else elsewhere

/-- Where the parts of a path lead.  Every part but the last has to be a directory. -/
def walk (tree : FileTree) (place : List String) : List String → Except FileFault Location
  | [] => .ok (.below place)
  | part :: rest =>
    match tree.node? place with
    | none => .error .notFound
    | some (.file _) => .error .notDirectory
    | some .directory =>
      if isHere part then walk tree place rest
      else if part = ".." then
        match place with
        | [] => .ok (.outside rest)
        | _ :: outer => walk tree outer rest
      else if maxPartBytes < part.utf8ByteSize then .error .nameTooLong
      else walk tree (part :: place) rest

/-- Where a path leads. -/
def locate (tree : FileTree) (path : String) : Except FileFault Location :=
  match FileFault.ofPath? path with
  | some fault => .error fault
  | none => if path.startsWith "/" then .ok (.outside (parts path)) else tree.walk [] (parts path)

/-- The text of a file. -/
def read (tree : FileTree) (path : String) : Except FileFault String := do
  match ← tree.locate path with
  | .above => throw .isDirectory
  | .elsewhere => throw .notFound
  | .below place =>
    match tree.node? place with
    | none => throw .notFound
    | some .directory => throw .isDirectory
    | some (.file text) => return text

/-- The tree with a file that holds a text. -/
def write (tree : FileTree) (path text : String) : Except FileFault FileTree := do
  match ← tree.locate path with
  | .above => throw .isDirectory
  | .elsewhere => return tree
  | .below place =>
    match tree.node? place with
    | some .directory => throw .isDirectory
    | _ => return ⟨tree.nodes.insert (pathOf place) (.file text)⟩

/-- The tree with the directories that the parts of a path lead through. -/
def makeAlong (tree : FileTree) (place : List String) : List String → Except FileFault FileTree
  | [] => .ok tree
  | part :: rest =>
    if isHere part then makeAlong tree place rest
    else if part = ".." then
      match place with
      | [] => .ok tree
      | _ :: outer => makeAlong tree outer rest
    else if maxPartBytes < part.utf8ByteSize then .error .nameTooLong
    else
      match tree.node? (part :: place) with
      | some .directory => makeAlong tree (part :: place) rest
      | some (.file _) => if rest.all isHere then .error .alreadyExists else .error .notDirectory
      | none =>
        makeAlong ⟨tree.nodes.insert (pathOf (part :: place)) .directory⟩ (part :: place) rest

/-- Whether the last part of a path that names anything is a dot. -/
def endsHere (path : String) : Bool :=
  (parts path).reverse.find? (· != "") == some "."

/-- The tree with a directory and those that it lies in.  A path that ends in a dot names a
directory that has to be there. -/
def makeDirectory (tree : FileTree) (path : String) : Except FileFault FileTree :=
  match FileFault.ofPath? path with
  | some fault => .error fault
  | none =>
    if path.startsWith "/" then .ok tree
    else if endsHere path then (tree.locate path).map fun _ => tree
    else tree.makeAlong [] (parts path)

/-- The tree of some files, with the directories that they lie in. -/
def ofFiles (files : List (String × String)) : FileTree :=
  files.foldl (fun tree (path, text) =>
    let directory := "/".intercalate (parts path).dropLast
    let made := (tree.makeDirectory directory).toOption.getD tree
    (made.write path text).toOption.getD made) ⟨.empty⟩

/-- The files of a tree with their texts, in order of their paths. -/
def files (tree : FileTree) : List (String × String) :=
  tree.nodes.rows.filterMap fun (path, node) =>
    match node with
    | .file text => some (path, text)
    | .directory => none

/-- An action that may replace the tree. -/
def update (f : FileTree → Except FileFault FileTree) : StateM FileTree (Except FileFault Unit) :=
  fun tree =>
    match f tree with
    | .ok after => (.ok (), after)
    | .error e => (.error e, tree)

instance : Files (StateM FileTree) where
  read path := fun tree => (tree.read path, tree)
  makeDirectory path := update (·.makeDirectory path)
  write path text := update (·.write path text)

end FileTree

end BridgeRewards
