import DocLint.Command.Run
import DocLint.Files.Tree

/-!
# Command line

Loads the files that a run may look at, hands them to the run, and prints what it leaves behind. The files
are the settings file and the given paths. If one of the paths is no file, the names of further files are read
from standard input, one on a line, and these files are loaded too.
-/

namespace DocLint.Main

/-- The names from the root on to which a path leads from the directory with the names `home`. -/
def absolute (home : List Text) (path : Path) : List Text :=
  path.names.foldl (fun names name => if name = "..".toList then names.dropLast else names ++ [name])
    (if path.root.isEmpty then home else [])

/-- A file as an entry of a tree; none if there is no such file. -/
def load (home : List Text) (name : String) : IO (Option (List Text × Entry)) := do
  let names := absolute home (Path.ofText name.toList)
  try
    let bytes ← IO.FS.readBinFile name
    return some (names, .file bytes.data.toList)
  catch
    | .permissionDenied _ _ _ => return some (names, .file [] false)
    | _ => return none

/-- The lines of a stream. -/
partial def readLines (stream : IO.FS.Stream) : IO (List String) := do
  let line ← stream.getLine
  if line.isEmpty then return []
  return String.ofList (Text.dropEndWhile (· == '\n') line.toList) :: (← readLines stream)

/-- The files that a command line may look at. -/
def loadTree (arguments : Arguments) : IO FileTree := do
  let here := (← IO.currentDir).toString
  let home := (Path.ofText here.toList).names
  let settings ← load home (String.ofList (Options.settingsPath arguments).toText)
  let given ← arguments.paths.mapM fun path => load home (String.ofList path)
  let listed ←
    if given.all (·.isSome) then pure []
    else (← readLines (← IO.getStdin)).mapM (load home)
  return { entries := (settings :: given ++ listed).filterMap id, home }

end DocLint.Main

/-- Runs the program on its command line. -/
def main (args : List String) : IO UInt32 := do
  let commandLine := args.map (·.toList)
  let tree ← match DocLint.Arguments.ofTexts commandLine with
    | .ok arguments => DocLint.Main.loadTree arguments
    | .error _ => pure { entries := [] }
  match DocLint.run tree.disk commandLine with
  | .ok outcome =>
    IO.eprint (String.ofList outcome.stderr)
    IO.print (String.ofList outcome.stdout)
    return outcome.exit.toUInt32
  | .error fault =>
    IO.eprintln (String.ofList fault.message)
    return 1
