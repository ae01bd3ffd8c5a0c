import ScriptStyle.FileTree
import ScriptStyle.Json.Reader
import ScriptStyle.Settings.Decode
import ScriptStyle.Toml.Reader

/-!
Settings files: the format is known by the name, and the nearest file around a path counts.
-/

namespace ScriptStyle

/-- Settings and the file that they are from; none if nothing is set. -/
structure LoadedSettings where
  settings : Settings
  source : Option Path
deriving DecidableEq, Repr, Inhabited

/-- Why a settings file cannot be used. -/
inductive SettingsError where
  | unreadable (path : Path) (cause : ReadError)
  /-- A package file that sets nothing. -/
  | missingKey (path : Path)
  /-- A package file whose text or values are wrong. -/
  | invalidPackage (path : Path)
  /-- A settings file whose text or values are wrong. -/
  | invalidTable (path : Path)
deriving DecidableEq, Repr, Inhabited

namespace SettingsError

/-- The wording of an error. -/
def message : SettingsError → String
  | unreadable path cause => "failed to read " ++ path.text ++ ": " ++ cause.message
  | missingKey path => path.text ++ " has no \x22semiquote\x22 key"
  | invalidPackage path | invalidTable path => "invalid configuration in " ++ path.text

end SettingsError

namespace Settings

/-- The name of settings files. -/
def fileName : String := ".semiquote.toml"

/-- The name of package files, which may hold settings. -/
def packageName : String := "package.json"

/-- The name under which a file holds settings. -/
def key : String := "semiquote"

/-- The settings in the text of a package file. -/
def ofPackage (path : Path) (text : String) : Except SettingsError Settings :=
  match Json.parse? text with
  | none => .error (.invalidPackage path)
  | some value =>
      match value.get? key with
      | none => .error (.missingKey path)
      | some value =>
          match decode .json value with
          | some settings => .ok settings
          | none => .error (.invalidPackage path)

/-- The settings in the text of a settings file. If there are none nothing is set. -/
def ofTable (path : Path) (text : String) : Except SettingsError Settings :=
  match Toml.parse? text with
  | none => .error (.invalidTable path)
  | some value =>
      match value.get? key with
      | none => .ok {}
      | some value =>
          match decode .toml value with
          | some settings => .ok settings
          | none => .error (.invalidTable path)

/-- The settings in the file that a path leads to, in the format that its name tells. -/
def load (tree : FileTree) (path : Path) : Except SettingsError LoadedSettings :=
  match tree.read path with
  | .error cause => .error (.unreadable path cause)
  | .ok text => do
      let settings ←
        if path.fileName? == some packageName then ofPackage path text else ofTable path text
      pure ⟨settings, some path⟩

/-- The settings of the first usable file in one of some folders. In each the settings file goes
before the package file. -/
def nearestIn (tree : FileTree) (folders : List Path) : Option LoadedSettings :=
  let candidates := folders.flatMap fun folder => [folder.join fileName, folder.join packageName]
  candidates.findSome? fun path => (load tree path).toOption

/-- The settings of the nearest usable file around a path, or none set. -/
def discover (tree : FileTree) (path : Path) : LoadedSettings :=
  let folders := if tree.hasFile path then path.ancestors.drop 1 else path.ancestors
  (nearestIn tree folders).getD ⟨{}, none⟩

end Settings

end ScriptStyle
