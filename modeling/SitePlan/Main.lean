/-
# The program

Takes a picture of what a command line can refer to (the configuration files
from the working directory upwards, the variables that the configuration names
and the source directory of the site) and runs the command on it. The picture is a
file tree: regular files and directories, all of them readable. Where the host has
something else in the source directory, the program ends with an error of its own.

Key definitions: `main`.
-/
import SitePlan.Cli.Run

namespace SitePlan
namespace Main

/-- The names that lead to a segment of an absolute path, from those that lead to
the segments before. -/
def onward (names : List String) (segment : String) : List String :=
  if segment = "" ∨ segment = "." then names
  else if segment = ".." then names.dropLast
  else names ++ [segment]

/-- Ends the program at something that no file tree holds. -/
def refuse {α : Type} (path : String) : IO α :=
  throw (IO.userError (path ++ " is neither a regular file nor a directory"))

/-- The file or directory at a path; directories are entered as deep as `depth`
says. Links are followed, but in a directory only to files: a listing does not enter
one that leads to a directory, though paths do, and lists one that leads nowhere. -/
def snapshot : Nat → String → IO FileTree
  | depth, path => do
    let place := (← IO.currentDir) / path
    match (← place.metadata).type with
    | .dir =>
      match depth with
      | 0 => return .directory []
      | depth + 1 =>
        let mut entries := []
        for entry in ← place.readDir do
          let below := path ++ "/" ++ entry.fileName
          if (← entry.path.symlinkMetadata).type == .symlink then
            unless (← entry.path.pathExists) && !(← entry.path.isDir) do refuse below
          entries := entries ++ [(entry.fileName, ← snapshot depth below)]
        return .directory entries
    | .file => return .file (← IO.FS.readBinFile place)
    | _ => refuse path

/-- Adds what is at a path to the picture, with the directories on the way. -/
def addPath (depth : Nat) (h : Host) (path : Path) : IO Host := do
  let absolute := (h.workingDirectory.join path).text
  if ← ((← IO.currentDir) / absolute).pathExists then
    let node ← snapshot depth absolute
    let mut names := []
    let mut tree := h.tree
    for segment in absolute.splitOn "/" do
      tree := FileTree.putDirectory names tree
      names := onward names segment
    return { h with tree := FileTree.put node names tree }
  else return h

/-- The directories from the given one upwards. -/
def upwards : Nat → Path → List Path
  | 0, dir => [dir]
  | n + 1, dir =>
    dir :: match dir.parent? with
      | some parent => upwards n parent
      | none => []

/-- The paths at which a configuration file may be. -/
def candidates (h : Host) (o : Cli.Options) : List Path :=
  match o.config with
  | some path => [path]
  | none =>
    (upwards h.workingDirectory.chars.length h.workingDirectory).flatMap fun dir =>
      Config.fileNames.map fun name => dir.join ⟨name⟩

/-- Adds the variables with the given names. -/
def withVariables (names : List String) (h : Host) : IO Host := do
  let mut known := h.environment
  for name in names do
    match ← IO.getEnv name with
    | some value => known := (name, value) :: known
    | none => pure ()
  return { h with environment := known }

/-- How deep the source directory of a site is looked into: no path leads
deeper. -/
def maxDepth : Nat := Host.maxPathBytes

/-- The picture of the host that a command needs. -/
def picture (o : Cli.Options) : IO Host := do
  let cwd ← IO.currentDir
  let start : Host := ⟨.directory [], ⟨cwd.toString⟩, []⟩
  let names := (cwd.toString.splitOn "/").foldl onward []
  let start := { start with tree := FileTree.putDirectory names start.tree }
  let paths := candidates start o
  let mut h := start
  for path in paths do
    h ← addPath 0 h path
  let texts := paths.filterMap fun path => (h.readText path).toOption
  h ← withVariables ("CLICOLOR_FORCE" :: texts.flatMap Environment.namesInText) h
  match Config.load h o.config o.settings with
  | .ok c => addPath maxDepth h c.paths.docsDir
  | .error _ => return h

/-- Runs a command line. -/
def run (args : List String) : IO Cli.Output := do
  match Cli.parse args with
  | .run _ o => return Cli.run (← picture o) args
  | _ => return Cli.run ⟨.directory [], ⟨"/"⟩, []⟩ args

end Main
end SitePlan

/-- Prints what the command line asks for and ends with its exit code. -/
def main (args : List String) : IO UInt32 := do
  let out ← SitePlan.Main.run args
  (← IO.getStdout).putStr out.stdout
  (← IO.getStderr).putStr out.stderr
  return out.code.toUInt32
