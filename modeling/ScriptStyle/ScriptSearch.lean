import ScriptStyle.Exclusion
import ScriptStyle.IgnoreRule

/-!
Searching a folder for scripts. Excluded and ignored entries are left out with everything in
them, save the folder at which the search starts.
-/

namespace ScriptStyle

/-- What a search has found. -/
structure FoundScripts where
  /-- The scripts, in order. -/
  files : List Path
  /-- The number of folders below the first that were searched. -/
  folderCount : Nat
deriving DecidableEq, Repr, Inhabited

/-- The endings of the names of scripts. -/
def scriptExtensions : List String := ["js", "mjs", "cjs"]

/-- Whether a name is that of a script. -/
def isScriptName (name : String) : Bool :=
  match nameExtension? name with
  | some ending => scriptExtensions.contains ending
  | none => false

namespace FileTree

/-- Whether the entry reached by names from a folder is left out by itself. -/
def isLeftOut (tree : FileTree) (patterns : List String) (root : Location) (names : List String)
    (isFolder : Bool) : Bool :=
  (names.getLast?.map (Exclusion.excludes patterns)).getD false
    || tree.isIgnored (root ++ names) isFolder

/-- Whether the entry reached by names from a folder is left out, or a folder on the way is. -/
def isHidden (tree : FileTree) (patterns : List String) (root : Location) (names : List String)
    (isFolder : Bool) : Bool :=
  tree.isLeftOut patterns root names isFolder
    || (leadingParts names.dropLast).any fun part => tree.isLeftOut patterns root part true

/-- The scripts below the folder at a location, as paths from it. -/
def scriptsBelow (tree : FileTree) (patterns : List String) (root : Path) (location : Location)
    : List Path :=
  let kept := (tree.filesBelow location).filter fun names =>
    (names.getLast?.map isScriptName).getD false && !tree.isHidden patterns location names false
  (kept.map root.joinAll).mergeSort Path.precedes

/-- The scripts that a path stands for: a file stands for itself. -/
def scripts (tree : FileTree) (excluded : List String) (root : Path) : FoundScripts :=
  match tree.find root with
  | .ok (.file _ _) => ⟨[root], 0⟩
  | .ok (.folder location) =>
      let patterns := excluded ++ Exclusion.usual
      let folders := (tree.foldersBelow location).filter fun names =>
        !tree.isHidden patterns location names true
      ⟨tree.scriptsBelow patterns root location, folders.length⟩
  | .error _ => ⟨[], 0⟩

end FileTree

end ScriptStyle
