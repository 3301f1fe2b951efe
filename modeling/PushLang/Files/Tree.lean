import PushLang.Files

namespace PushLang

/-- Files and directories by the names on the way to them from the root. -/
structure FileTree where
  /-- The directory that paths start from unless they start with a slash. -/
  home : List String := []
  files : List (List String × String) := []
  directories : List (List String) := []

namespace FileTree

def pathLimit : Nat := 4095

def nameLimit : Nat := 255

/-- Where a path has led so far: to a directory, or to a file, which leads nowhere. -/
inductive Place where
  | directory (names : List String)
  | file (text : String)

/-- Whether a directory is listed or lies on the way to something that is. -/
def isDirectory (tree : FileTree) (names : List String) : Bool :=
  (tree.home :: tree.directories ++ tree.files.map fun file => file.1.dropLast).any names.isPrefixOf

/-- Follows one part of a path. -/
def follow (tree : FileTree) (place : Place) (part : String) : Except FileError Place :=
  match place with
  | .file _ => .error .notDirectory
  | .directory names =>
    if part = "" ∨ part = "." then .ok (.directory names)
    else if part = ".." then .ok (.directory names.dropLast)
    else if nameLimit < part.utf8ByteSize then .error .nameTooLong
    else
      let names := names ++ [part]
      match tree.files.find? fun (file, _) => file == names with
      | some (_, text) => .ok (.file text)
      | none => if tree.isDirectory names then .ok (.directory names) else .error .missing

def start (tree : FileTree) (path : String) : Place :=
  .directory (if path.startsWith "/" then [] else tree.home)

/-- Refuses what cannot be a path. -/
def checkPath (path : String) : Except FileError Unit :=
  if path.toList.contains '\x00' then .error .nulInName
  else if path.isEmpty then .error .missing
  else if pathLimit < path.utf8ByteSize then .error .nameTooLong
  else .ok ()

/-- The text of the file that a path leads to. -/
def read (tree : FileTree) (path : String) : Except FileError String := do
  checkPath path
  match ← (path.splitOn "/").foldlM tree.follow (tree.start path) with
  | .file text => .ok text
  | .directory _ => .error .directory

/-- The tree with a text in the file at a path, whose directory must be there. -/
def write (tree : FileTree) (path text : String) : Except FileError FileTree := do
  checkPath path
  let parts := path.splitOn "/"
  match ← parts.dropLast.foldlM tree.follow (tree.start path), parts.getLast? with
  | .directory names, some name =>
    if name = "" ∨ name = "." ∨ name = ".." ∨ tree.isDirectory (names ++ [name]) then
      .error .directory
    else if nameLimit < name.utf8ByteSize then .error .nameTooLong
    else .ok { tree with files := (names ++ [name], text) :: tree.files }
  | _, _ => .error .notDirectory

end FileTree

end PushLang
