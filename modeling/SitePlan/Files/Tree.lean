/-
# Files and directories

A file tree holds regular files and directories, all of them readable and named
by texts; there are no links and no devices in it. A directory lists its entries in
the order in which they are enumerated. A path is followed segment by segment: each
step needs a directory, `..` leads back, and an empty segment or `.` stays. A
host is a tree with a working directory, from which relative paths start.

Key definitions: `FileTree`, `FileError`, `Host`, `Host.find`, `Host.isFile`,
`Host.readText`.
-/
import SitePlan.Files.Path

namespace SitePlan

/-- A regular file with its bytes, or a directory with its entries. -/
inductive FileTree
  | file (bytes : ByteArray)
  | directory (entries : List (String × FileTree))
  deriving Inhabited

/-- Why a file or directory cannot be had. -/
inductive FileError
  | notFound
  | notDirectory
  | isDirectory
  | nameTooLong
  | nulInPath
  | notText
  deriving DecidableEq, Repr

/-- The wording of the error. -/
def FileError.message : FileError → String
  | notFound => "No such file or directory (os error 2)"
  | notDirectory => "Not a directory (os error 20)"
  | isDirectory => "Is a directory (os error 21)"
  | nameTooLong => "File name too long (os error 36)"
  | nulInPath => "file name contained an unexpected NUL byte"
  | notText => "stream did not contain valid UTF-8"

namespace FileTree

/-- Whether it is a directory. -/
def isDirectory : FileTree → Bool
  | directory _ => true
  | file _ => false

/-- The entry of a directory with the given name. -/
def entry? (name : String) : FileTree → Option FileTree
  | directory entries => entries.lookup name
  | file _ => none

/-- Follows segments from `here`, the innermost of the directories `above`. -/
def follow : List FileTree → FileTree → List (List Char) → Except FileError FileTree
  | _, here, [] => .ok here
  | above, here, segment :: rest =>
    if !here.isDirectory then .error .notDirectory
    else if segment = [] ∨ segment = ['.'] then follow above here rest
    else if segment = ['.', '.'] then
      match above with
      | [] => follow [] here rest
      | parent :: above => follow above parent rest
    else
      let name := String.ofList segment
      if 255 < name.utf8ByteSize then .error .nameTooLong
      else match here.entry? name with
        | some next => follow (here :: above) next rest
        | none => .error .notFound

/-- Puts a node at the end of a list of names, making the directories before it.
A file in the way is replaced. -/
def put (node : FileTree) : List String → FileTree → FileTree
  | [], _ => node
  | name :: rest, tree =>
    let entries := match tree with
      | directory entries => entries
      | file _ => []
    match entries.lookup name with
    | some child =>
      let child := put node rest child
      directory (entries.map fun e => if e.1 = name then (name, child) else e)
    | none => directory (entries ++ [(name, put node rest (directory []))])

/-- Makes the directory at the end of a list of names, if it is not there. -/
def putDirectory (names : List String) (tree : FileTree) : FileTree :=
  match names with
  | [] => tree
  | name :: rest =>
    let entries := match tree with
      | directory entries => entries
      | file _ => []
    match entries.lookup name with
    | some child =>
      let child := putDirectory rest child
      directory (entries.map fun e => if e.1 = name then (name, child) else e)
    | none => directory (entries ++ [(name, putDirectory rest (directory []))])

end FileTree

/-- A file tree, the absolute path of the working directory in it, and the
variables of the environment. -/
structure Host where
  tree : FileTree
  workingDirectory : Path
  environment : List (String × String)

namespace Host

/-- The longest path that is followed, in bytes. -/
def maxPathBytes : Nat := 4095

/-- The file or directory at a path. -/
def find (h : Host) (p : Path) : Except FileError FileTree :=
  if p.chars.contains '\x00' then .error .nulInPath
  else if p.text = "" then .error .notFound
  else if maxPathBytes < p.text.utf8ByteSize then .error .nameTooLong
  else
    FileTree.follow [] h.tree (Text.splitAt '/' (h.workingDirectory.join p).chars)

/-- Whether anything is at a path. -/
def present (h : Host) (p : Path) : Bool := (h.find p).toOption.isSome

/-- Whether a file is at a path. -/
def isFile (h : Host) (p : Path) : Bool :=
  match h.find p with
  | .ok (.file _) => true
  | _ => false

/-- Whether a directory is at a path. -/
def isDirectory (h : Host) (p : Path) : Bool :=
  match h.find p with
  | .ok (.directory _) => true
  | _ => false

/-- The text of the file at a path. -/
def readText (h : Host) (p : Path) : Except FileError String :=
  match h.find p with
  | .ok (.file bytes) =>
    match String.fromUTF8? bytes with
    | some text => .ok text
    | none => .error .notText
  | .ok (.directory _) => .error .isDirectory
  | .error e => .error e

/-- What is found under a name among variables: the text after the name and an
equals sign, in the first variable whose name, equals sign and value begin so.
Hence a name with an equals sign in it reaches into a value. -/
def lookupIn (name : List Char) : List (String × String) → Option String
  | [] => none
  | (variableName, v) :: rest =>
    match Text.dropStart? (name ++ ['=']) (variableName.toList ++ '=' :: v.toList) with
    | some found => some (String.ofList found)
    | none => lookupIn name rest

/-- The value of a variable. -/
def lookupVariable (h : Host) (name : String) : Option String :=
  if name = "" then none else lookupIn name.toList h.environment

end Host
end SitePlan
