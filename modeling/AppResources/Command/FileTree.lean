import AppResources.Text.Utf8

/-!
# Files

Commands read files, which they are given as a tree for every path. Below a working
directory a path is resolved name by name; every name but the last must be that of a
directory.

## Main definitions

* `FileTree.find`: what is at a path.
* `FileLookup.search`: the files that a path to search gives.
-/

namespace AppResources

/-- A file, or a directory with its entries in order. -/
inductive FileTree where
  | file (content : ByteArray)
  | directory (entries : List (String × FileTree))

/-- Why a path leads to no file. -/
inductive FileFault where
  /-- There is nothing at the path. -/
  | missing
  /-- A name of the path that others follow is that of a file. -/
  | notADirectory
  /-- The path leads to a directory. -/
  | isDirectory
  /-- The path or a name of it is too long. -/
  | nameTooLong
  /-- The path has a zero character. -/
  | zeroInName
  deriving DecidableEq, Repr

namespace FileFault

/-- The message about a fault. -/
def message : FileFault → String
  | .missing => "No such file or directory (os error 2)"
  | .notADirectory => "Not a directory (os error 20)"
  | .isDirectory => "Is a directory (os error 21)"
  | .nameTooLong => "File name too long (os error 36)"
  | .zeroInName => "file name contained an unexpected NUL byte"

end FileFault

namespace FileTree

/-- An empty directory. -/
def empty : FileTree := .directory []

/-- The greatest number of bytes of a name. -/
def maxNameSize : Nat := 255

/-- The greatest number of bytes of a path. -/
def maxPathSize : Nat := 4095

/-- The names of a path, with empty ones where separators meet. -/
def namesOf (path : String) : List String :=
  (path.toList.splitOn '/').map String.ofList

/-- The tree that holds nothing but a file at the given names. -/
def alone (content : ByteArray) : List String → FileTree
  | [] => .file content
  | name :: names => .directory [(name, alone content names)]

mutual

/-- Puts a file into a tree; directories on the way are made. -/
def insert (content : ByteArray) (names : List String) : FileTree → FileTree
  | .file old => if names.isEmpty then .file content else .file old
  | .directory entries =>
    match names with
    | [] => .file content
    | name :: rest => .directory (insertEntry content name rest entries)

/-- Puts a file into the entry of a directory with a name. -/
def insertEntry (content : ByteArray) (name : String) (names : List String) :
    List (String × FileTree) → List (String × FileTree)
  | [] => [(name, alone content names)]
  | (other, tree) :: rest =>
    if other = name then (other, insert content names tree) :: rest
    else (other, tree) :: insertEntry content name names rest

end

/-- The tree with files at paths. -/
def ofFiles (files : List (String × ByteArray)) : FileTree :=
  files.foldl
    (fun tree f =>
      tree.insert f.2 ((namesOf f.1).filter fun name => !(name.isEmpty || name == ".")))
    empty

/-- Walks from a directory along names; the directories around it are given with the
nearest first. Nothing is known to be in the directories above those. -/
def descend (here : FileTree) (around : List FileTree) : List String → Except FileFault FileTree
  | [] => .ok here
  | name :: names =>
    match here with
    | .file _ => .error .notADirectory
    | .directory entries =>
      if name.isEmpty || name == "." then descend here around names
      else if name == ".." then
        match around with
        | [] => descend empty [] names
        | up :: rest => descend up rest names
      else if maxNameSize < name.utf8ByteSize then .error .nameTooLong
      else
        match entries.lookup name with
        | some tree => descend tree (here :: around) names
        | none => .error .missing

/-- What is at a path below a directory. -/
def find (root : FileTree) (path : String) : Except FileFault FileTree :=
  if path.toList.contains (Char.ofNat 0) then .error .zeroInName
  else if maxPathSize < path.utf8ByteSize then .error .nameTooLong
  else if path.isEmpty then .error .missing
  else if path.startsWith "/" then empty.descend [] (namesOf path)
  else root.descend [] (namesOf path)

/-- The content of a file. -/
def content : FileTree → Except FileFault ByteArray
  | .file content => .ok content
  | .directory _ => .error .isDirectory

/-- Whether a name is hidden. -/
def isHidden (name : String) : Bool :=
  name.startsWith "."

/-- The name that a path ends with, or all of a path that ends with no name. -/
def lastName (path : String) : String :=
  match ((namesOf path).filter fun name => !(name.isEmpty || name == ".")).getLast? with
  | some name => if name == ".." then path else name
  | none => path

/-- The extension of a file name: what follows its last dot, if something is in front. -/
def extension? (name : String) : Option String :=
  match (name.toList.splitOn '.').reverse with
  | [] | [_] | [_, []] => none
  | last :: _ => some (String.ofList last)

/-- The path of an entry of a directory. -/
def join (directory name : String) : String :=
  if directory.endsWith "/" then directory ++ name else directory ++ "/" ++ name

mutual

/-- The files of a tree that stands at a path. -/
def filesOf (path : String) : FileTree → List (String × ByteArray)
  | .file content => [(path, content)]
  | .directory entries => filesOfEntries path entries

/-- The files of the entries of a directory that are not hidden. -/
def filesOfEntries (path : String) : List (String × FileTree) → List (String × ByteArray)
  | [] => []
  | (name, tree) :: rest =>
    (if isHidden name then [] else filesOf (join path name) tree) ++ filesOfEntries path rest

end

/-- The files that a path to search gives: the file that is there, or the files with an
extension below the directory that is there. Hidden names are left out. -/
def filesWith (extension path : String) : FileTree → List (String × ByteArray)
  | .file content => [(path, content)]
  | .directory entries =>
    if isHidden (lastName path) then []
    else
      (filesOfEntries path entries).filter fun f => extension? (lastName f.1) == some extension

end FileTree

/-- What is at every path. -/
abbrev FileLookup := String → Except FileFault FileTree

namespace FileLookup

/-- The content of the file at a path. -/
def read (files : FileLookup) (path : String) : Except FileFault ByteArray :=
  match files path with
  | .ok tree => tree.content
  | .error f => .error f

/-- The files that a path to search gives; none if there is nothing at the path. -/
def search (files : FileLookup) (extension path : String) : List (String × ByteArray) :=
  match files path with
  | .ok tree => tree.filesWith extension path
  | .error _ => []

end FileLookup

end AppResources
