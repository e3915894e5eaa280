import Deeds.Simulator.Run

/-!
# The simulator

`main` runs the simulation that the environment sets up and prints its summary. What it reads is
collected first: the variables, and what is at the places that they name.
-/

namespace Deeds.Main

/-- The bytes of the nearest file of variables, in a folder or one above it. -/
partial def variablesFile (folder : String) : IO (Option ByteArray) := do
  let here ← IO.FS.realPath folder
  let file := here / Simulator.environmentFile
  if ← file.pathExists <&&> (! ·) <$> file.isDir then return some (← IO.FS.readBinFile file)
  match here.parent with
  | some above => if above == here then return none else variablesFile above.toString
  | none => return none

/-- The variables that are set, of some names. -/
def variablesOf (names : List String) : IO Environment :=
  names.eraseDups.filterMapM fun name => do
    return (← IO.getEnv name).map fun value => (name, value)

/-- What is at a path: a file, or a folder with its files of actions. -/
def itemAt (path : String) : IO (Except ReadFault Item) := do
  let here := (← IO.currentDir) / path
  if path.isEmpty || !(← here.pathExists) then return .error .notFound
  if !(← here.isDir) then return .ok (.file (← IO.FS.readBinFile here))
  let entries := (← here.readDir).toList.filter fun e =>
    (FileName.ofText e.fileName).extension? = some Content.actionExtension
  let items ← entries.mapM fun e => do
    let item ← if ← e.path.isDir then pure Item.empty else .file <$> IO.FS.readBinFile e.path
    return (.ofText e.fileName, item)
  return .ok (.folder items)

end Deeds.Main

open Deeds in
/-- Runs a simulation; a summary goes to the output, and what went wrong to the errors. -/
def main : IO UInt32 := do
  let file ← Main.variablesFile "."
  let referred := (file.map Environment.referredNames).getD []
  let given ← Main.variablesOf (Settings.variableNames ++ referred)
  let settings := Settings.ofEnvironment ((file.map given.load).getD given)
  let places ← (settings.actionsPath.toList ++ settings.enginePath.toList).mapM fun path => do
    return (path, Place.mk (← Main.itemAt path) path)
  let place (path : String) : Place := (places.lookup path).getD ⟨.error .notFound, path⟩
  match Simulator.run settings place with
  | .ok session =>
    IO.print (Simulator.summary session)
    return 0
  | .error e =>
    IO.eprintln s!"Error: {e.message}"
    return 1
