import ScriptStyle.CommandLine

/-!
The program: loads the files that a command line can reach, carries the command line out on them,
writes the files that have changed and prints what there is to say.
-/

namespace ScriptStyle.Program

/-- The text of a location as a path from the outermost folder. -/
def pathText (location : Location) : String :=
  "/" ++ String.intercalate "/" location

/-- The names of a path. -/
def namesOf (text : String) : List String :=
  (text.splitOn "/").filter fun name => name != "" && name != "."

/-- The location that a path leads to from a folder, by its names alone. -/
def locationOf (working : Location) (path : Path) : Location :=
  (namesOf path.text).foldl
    (fun location name => if name == ".." then location.dropLast else location ++ [name])
    (if path.isAbsolute then [] else working)

/-- The names of files that say something about the files around them. -/
def guidingNames : List String :=
  [Settings.fileName, Settings.packageName, ".ignore", ".gitignore"]

/-- A tree with the file at a location, if there is one. -/
def loadFile (location : Location) (tree : FileTree) : IO FileTree := do
  if (tree.contentAt? location).isSome then
    return tree
  try
    let bytes ← IO.FS.readBinFile (pathText location)
    return { tree with files := (location, .ofBytes bytes) :: tree.files }
  catch _ =>
    return tree

/-- Whether there is a folder at a location. -/
def isFolder (location : Location) : IO Bool := do
  try
    let here ← IO.currentDir
    (here / pathText location).isDir
  catch _ =>
    return false

/-- The names in a folder. -/
def namesIn (location : Location) : IO (List String) := do
  try
    let here ← IO.currentDir
    let entries ← (here / pathText location).readDir
    return entries.toList.map fun entry => entry.fileName
  catch _ =>
    return []

/-- A tree with the files in a folder that guide the search. -/
def loadGuides (folder : Location) (tree : FileTree) : IO FileTree := do
  let mut tree := { tree with folders := folder :: tree.folders }
  for name in guidingNames do
    tree ← loadFile (folder ++ [name]) tree
  tree ← loadFile (folder ++ [".git", "info", "exclude"]) tree
  if ← isFolder (folder ++ [".git"]) then
    tree := { tree with folders := (folder ++ [".git"]) :: tree.folders }
  return tree

/-- A tree with the scripts in a folder at any depth. Folders that are always left out are not
opened. -/
partial def loadBelow (folder : Location) (tree : FileTree) : IO FileTree := do
  let mut tree ← loadGuides folder tree
  for name in ← namesIn folder do
    let location := folder ++ [name]
    if Exclusion.excludes Exclusion.usual name then
      continue
    if ← isFolder location then
      tree ← loadBelow location tree
    else if isScriptName name then
      tree ← loadFile location tree
  return tree

/-- The files that a command line can reach. -/
def load (arguments : Arguments) : IO FileTree := do
  let working := namesOf (← IO.currentDir).toString
  let mut tree : FileTree := { working, files := [], folders := [] }
  if let some path := arguments.settingsFile then
    tree ← loadFile (locationOf working path) tree
  for root in arguments.roots do
    let location := locationOf working root
    for folder in FileTree.foldersAround location.dropLast do
      tree ← loadGuides folder tree
    if ← isFolder location then
      tree ← loadBelow location tree
    else
      tree ← loadFile location tree
  return tree

/-- Writes the files whose text has changed. -/
def save (before after : FileTree) : IO Unit := do
  for (old, new) in before.files.zip after.files do
    if let .text value := new.2 then
      if old.2 != new.2 then
        IO.FS.writeFile (pathText new.1) value

/-- Carries out a command line and gives its exit code. -/
def execute (texts : List String) : IO UInt32 := do
  let tree ←
    match Arguments.parse texts with
    | .ok arguments => load arguments
    | .error _ => pure default
  match run tree texts with
  | .error error =>
      IO.eprintln ("Error: " ++ error.message)
      return 1
  | .ok result =>
      save tree result.tree
      IO.eprint result.complaint
      IO.print result.output
      return result.exitCode.toUInt32

end ScriptStyle.Program

/-- The program. -/
def main (texts : List String) : IO UInt32 :=
  ScriptStyle.Program.execute texts
