/-!
# Files by their paths

A path is a row of names between slashes. It is followed from the working directory, name by
name, and every name but the last has to lead to a directory. `FileTree.content` is the content
of the file at a path, or the reason why there is none.
-/
namespace LuaChunk

/-- Why a file cannot be read, in the words and by the number of the operating system. -/
structure FileError where
  /-- The description. -/
  description : String
  /-- The number. -/
  code : Nat
  deriving DecidableEq

namespace FileError

/-- There is no file of the name. -/
def missing : FileError := ⟨"No such file or directory", 2⟩

/-- A name other than the last one is not that of a directory. -/
def notDirectory : FileError := ⟨"Not a directory", 20⟩

/-- The name is that of a directory. -/
def directory : FileError := ⟨"Is a directory", 21⟩

/-- The path, or a name in it, has more bytes than a path or a name can have. -/
def nameTooLong : FileError := ⟨"File name too long", 36⟩

/-- The text of an error for the user. -/
def message (error : FileError) : String :=
  error.description ++ " (os error " ++ toString error.code ++ ")"

end FileError

/-- What a name stands for. -/
inductive FileNode where
  /-- A directory. -/
  | directory
  /-- A file with its content. -/
  | file (content : List UInt8)
  deriving DecidableEq

/-- Where a path has led so far. -/
inductive FilePlace where
  /-- At the end of names that begin in the working directory. -/
  | inside (names : List String)
  /-- In a directory around the working directory. -/
  | outside
  deriving DecidableEq

/-- The files and directories below the working directory. A directory of an entry need not be
an entry itself. -/
structure FileTree where
  /-- The names that lead to each file or directory, and what is there. -/
  entries : List (List String × FileNode)
  deriving DecidableEq

namespace FilePlace

/-- The working directory. -/
def working : FilePlace := inside []

/-- The directory around a place. -/
def parent : FilePlace → FilePlace
  | inside [] => outside
  | inside names => inside names.dropLast
  | outside => outside

/-- Where a path begins to be followed: outside if it begins with a slash. -/
def start (path : String) : FilePlace :=
  if path.toList.head? = some '/' then outside else working

end FilePlace

namespace FileTree

/-- The characters between slashes. -/
def splitAtSlashes : List Char → List (List Char)
  | [] => [[]]
  | character :: further =>
    if character = '/' then [] :: splitAtSlashes further
    else
      match splitAtSlashes further with
      | [] => [[character]]
      | name :: names => (character :: name) :: names

/-- The names in a path. -/
def names (path : String) : List String := (splitAtSlashes path.toList).map String.ofList

/-- The greatest number of bytes of a name. -/
def nameLimit : Nat := 255

/-- The greatest number of bytes of a path. -/
def pathLimit : Nat := 4095

/-- What stands at the end of names that begin in the working directory. -/
def node? (tree : FileTree) (names : List String) : Option FileNode :=
  if names.isEmpty then some .directory
  else
    match tree.entries.lookup names with
    | some node => some node
    | none =>
      if tree.entries.any fun entry => names.isPrefixOf entry.1 then some .directory else none

/-- What stands at a place. Outside there are only directories to be seen. -/
def nodeAt? (tree : FileTree) : FilePlace → Option FileNode
  | .inside names => tree.node? names
  | .outside => some .directory

/-- Follow one name out of a directory. An empty name and a single dot stay there, two dots lead
to the directory around it. -/
def follow (tree : FileTree) (place : FilePlace) (name : String) : Except FileError FilePlace :=
  if tree.nodeAt? place ≠ some .directory then .error .notDirectory
  else if name.isEmpty || name = "." then .ok place
  else if name = ".." then .ok place.parent
  else if nameLimit < name.utf8ByteSize then .error .nameTooLong
  else
    match place with
    | .outside => .error .missing
    | .inside names =>
      let names := names ++ [name]
      if (tree.node? names).isSome then .ok (.inside names) else .error .missing

/-- The place to which a path leads. -/
def locate (tree : FileTree) (path : String) : Except FileError FilePlace :=
  if path.isEmpty then .error .missing
  else if pathLimit < path.utf8ByteSize then .error .nameTooLong
  else (names path).foldlM tree.follow (.start path)

/-- The content of the file at a path. -/
def content (tree : FileTree) (path : String) : Except FileError (List UInt8) := do
  match tree.nodeAt? (← tree.locate path) with
  | some (.file content) => .ok content
  | some .directory => .error .directory
  | none => .error .missing

end FileTree

end LuaChunk
