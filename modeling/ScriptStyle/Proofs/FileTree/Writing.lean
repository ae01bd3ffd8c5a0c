import Mathlib.Tactic.SplitIfs
import ScriptStyle.FileTree

/-!
What a write leaves behind: the file that was written holds the text, every other file is as it
was, and every path leads where it led before.
-/

namespace ScriptStyle

/-- The entry after the file at a location has been given a text. -/
def FileEntry.written (location : Location) (value : String) : FileEntry → FileEntry
  | .file place content => .file place (if place = location then .text value else content)
  | .folder place => .folder place

namespace FileTree

variable {tree : FileTree} {path other : Path} {location place : Location} {value : String}

-----------------------------------------------------------------------------------------
-- Writing at a location
-----------------------------------------------------------------------------------------

theorem contentAt?_writeAt (tree : FileTree) (location place : Location) (value : String)
    : (tree.writeAt location value).contentAt? place
      = (tree.contentAt? place).map fun content =>
          if place = location then .text value else content := by
  simp only [contentAt?, writeAt, List.find?_map, Option.map_map]
  -- Writing leaves the locations as they are, so that the same file is found.
  have same : (fun file : Location × FileContent => file.1 == place)
      ∘ (fun file => if file.1 == location then (location, .text value) else file)
      = fun file => file.1 == place := by
    funext file
    by_cases found : file.1 = location <;> simp [found]
  rw [same]
  cases found : tree.files.find? fun file => file.1 == place with
  | none => rfl
  | some file =>
      have here : file.1 = place := by simpa using List.find?_some found
      by_cases target : place = location <;> simp [here, target]

theorem hasFolder_writeAt (tree : FileTree) (location place : Location) (value : String)
    : (tree.writeAt location value).hasFolder place = tree.hasFolder place := by
  simp only [hasFolder, writeAt, List.any_map]
  congr 2
  funext file
  by_cases found : file.1 = location <;> simp [found]

theorem entryAt?_writeAt (tree : FileTree) (location place : Location) (value : String)
    : (tree.writeAt location value).entryAt? place
      = (tree.entryAt? place).map (.written location value) := by
  rw [entryAt?, entryAt?, contentAt?_writeAt, hasFolder_writeAt]
  cases tree.contentAt? place with
  | some content => rfl
  | none => cases tree.hasFolder place <;> rfl

theorem follow_writeAt (tree : FileTree) (location : Location) (value : String)
    (entry : FileEntry) (segments : List String)
    : (tree.writeAt location value).follow (entry.written location value) segments
      = (tree.follow entry segments).map (.written location value) := by
  induction segments generalizing entry with
  | nil => simp only [follow, Except.map]
  | cons segment others ih =>
      cases entry with
      | file => simp only [FileEntry.written, follow, Except.map]
      | folder place =>
          simp only [FileEntry.written, follow]
          split_ifs with here up long
          · exact ih (.folder place)
          · exact ih (.folder place.dropLast)
          · rfl
          · rw [entryAt?_writeAt]
            cases tree.entryAt? (place ++ [segment]) with
            | none => rfl
            | some entry => exact ih entry

theorem find_writeAt (tree : FileTree) (location : Location) (value : String) (path : Path)
    : (tree.writeAt location value).find path
      = (tree.find path).map (.written location value) := by
  unfold find
  split_ifs
  any_goals rfl
  all_goals exact follow_writeAt tree location value (.folder _) path.segments

-----------------------------------------------------------------------------------------
-- Writing at a path
-----------------------------------------------------------------------------------------

/-- Where the file is that a path leads to. -/
def location? (tree : FileTree) (path : Path) : Option Location :=
  match tree.find path with
  | .ok (.file location _) => some location
  | _ => none

theorem location?_eq_some
    : tree.location? path = some location
      ↔ ∃ content, tree.find path = .ok (.file location content) := by
  rw [location?]
  rcases tree.find path with error | ⟨place, content⟩ | place <;> simp

theorem location?_writeAt (tree : FileTree) (location : Location) (value : String) (path : Path)
    : (tree.writeAt location value).location? path = tree.location? path := by
  rw [location?, location?, find_writeAt]
  rcases tree.find path with _ | ⟨_ | _⟩ <;> rfl

theorem read_writeAt (tree : FileTree) (location : Location) (value : String) (path : Path)
    : (tree.writeAt location value).read path
      = if tree.location? path = some location then .ok value else tree.read path := by
  rw [read, read, location?, find_writeAt]
  rcases tree.find path with error | ⟨place, text | bytes⟩ | place
  · rfl
  · by_cases here : place = location <;> simp [Except.map, FileEntry.written, here]
  · by_cases here : place = location <;> simp [Except.map, FileEntry.written, here]
  · rfl

theorem write_eq_writeAt (found : tree.location? path = some location) (value : String)
    : tree.write path value = tree.writeAt location value := by
  obtain ⟨content, found⟩ := location?_eq_some.mp found
  rw [write, found]

theorem write_eq_self (lost : tree.location? path = none) (value : String)
    : tree.write path value = tree := by
  rw [write]
  cases found : tree.find path with
  | error => rfl
  | ok entry =>
      cases entry with
      | file place content => cases lost.symm.trans (location?_eq_some.mpr ⟨content, found⟩)
      | folder => rfl

theorem read_eq_ok
    : tree.read path = .ok value
      ↔ ∃ location, tree.find path = .ok (.file location (.text value)) := by
  rw [read]
  rcases tree.find path with error | ⟨place, text | bytes⟩ | place <;> simp

/-- A file that can be read holds what is written to it. -/
theorem read_write_self (present : tree.read path = .ok value) (text : String)
    : (tree.write path text).read path = .ok text := by
  obtain ⟨location, found⟩ := read_eq_ok.mp present
  have found := location?_eq_some.mpr ⟨_, found⟩
  rw [write_eq_writeAt found, read_writeAt, if_pos found]

/-- Whether two paths lead to different files, or one of them to none. -/
def Apart (tree : FileTree) (path other : Path) : Prop :=
  ∀ location, tree.location? path = some location → tree.location? other ≠ some location

theorem Apart.symm (apart : tree.Apart path other)
    : tree.Apart other path :=
  fun location found same => apart location same found

instance (tree : FileTree)
    : Std.Symm tree.Apart :=
  ⟨fun _ _ => Apart.symm⟩

theorem read_write_of_apart (apart : tree.Apart path other) (value : String)
    : (tree.write path value).read other = tree.read other := by
  cases found : tree.location? path with
  | none => rw [write_eq_self found]
  | some location => rw [write_eq_writeAt found, read_writeAt, if_neg (apart location found)]

theorem location?_write (tree : FileTree) (path : Path) (value : String)
    : (tree.write path value).location? = tree.location? := by
  funext other
  cases found : tree.location? path with
  | none => rw [write_eq_self found]
  | some location => rw [write_eq_writeAt found, location?_writeAt]

/-- Among the given paths, a path that leads to the file of another is that path. -/
def NamesFilesOnce (tree : FileTree) (paths : List Path) : Prop :=
  ∀ path ∈ paths, ∀ other ∈ paths,
    tree.location? path ≠ none → tree.location? path = tree.location? other → path.isSame other

theorem NamesFilesOnce.apart {paths : List Path} (named : tree.NamesFilesOnce paths)
    (first : path ∈ paths) (second : other ∈ paths) (differ : ¬path.isSame other)
    : tree.Apart path other := by
  intro location found same
  exact differ (named path first other second (by simp [found]) (found.trans same.symm))

end FileTree

end ScriptStyle
