import ScriptStyle.Path

/-!
A tree of files as a value: what is stored where, and how paths lead there.
-/

namespace ScriptStyle

/-- Where something is stored: the names that lead there from the outermost folder. -/
abbrev Location := List String

/-- What a file holds. -/
inductive FileContent where
  | text (value : String)
  /-- Bytes that are not the UTF-8 encoding of a text. -/
  | bytes (value : List UInt8)
deriving DecidableEq, Repr, Inhabited

namespace FileContent

/-- The content with the given bytes. -/
def ofBytes (bytes : ByteArray) : FileContent :=
  match String.fromUTF8? bytes with
  | some value => .text value
  | none => .bytes bytes.toList

end FileContent

/-- What a path leads to. -/
inductive FileEntry where
  | file (location : Location) (content : FileContent)
  | folder (location : Location)
deriving Repr, Inhabited

/-- Why a file cannot be read as a text. -/
inductive ReadError where
  /-- Nothing is stored there. -/
  | notFound
  /-- A step of the path leads on from a file. -/
  | notAFolder
  /-- The path leads to a folder. -/
  | isAFolder
  /-- The path or a name in it is too long. -/
  | nameTooLong
  /-- The path holds a NUL character. -/
  | nulCharacter
  /-- The bytes of the file are no text. -/
  | invalidText
deriving DecidableEq, Repr, Inhabited

namespace ReadError

/-- The wording of an error. -/
def message : ReadError → String
  | notFound => "No such file or directory (os error 2)"
  | notAFolder => "Not a directory (os error 20)"
  | isAFolder => "Is a directory (os error 21)"
  | nameTooLong => "File name too long (os error 36)"
  | nulCharacter => "file name contained an unexpected NUL byte"
  | invalidText => "stream did not contain valid UTF-8"

end ReadError

/-- Files and folders, and the folder that relative paths start from. -/
structure FileTree where
  working : Location
  files : List (Location × FileContent)
  /-- Folders that exist even if nothing is stored in them. -/
  folders : List Location
deriving Repr, Inhabited

namespace FileTree

/-- Whether there is a folder at a location: something is stored in it, or it is listed. -/
def hasFolder (tree : FileTree) (location : Location) : Bool :=
  location.isEmpty || location.isPrefixOf tree.working
    || tree.folders.any (location.isPrefixOf ·)
    || tree.files.any fun file => location != file.1 && location.isPrefixOf file.1

/-- What the file at a location holds. -/
def contentAt? (tree : FileTree) (location : Location) : Option FileContent :=
  (tree.files.find? fun file => file.1 == location).map Prod.snd

/-- What is stored at a location. -/
def entryAt? (tree : FileTree) (location : Location) : Option FileEntry :=
  match tree.contentAt? location with
  | some content => some (.file location content)
  | none => if tree.hasFolder location then some (.folder location) else none

/-- The most bytes that a name may have. -/
def maxNameLength : Nat := 255

/-- The most bytes that a path may have. -/
def maxPathLength : Nat := 4095

/-- Follows the parts of a path from an entry. -/
def follow (tree : FileTree) : FileEntry → List String → Except ReadError FileEntry
  | entry, [] => .ok entry
  | .file _ _, _ :: _ => .error .notAFolder
  | .folder location, segment :: others =>
      if segment == "" || segment == "." then
        tree.follow (.folder location) others
      else if segment == ".." then
        tree.follow (.folder location.dropLast) others
      else if maxNameLength < segment.utf8ByteSize then
        .error .nameTooLong
      else
        match tree.entryAt? (location ++ [segment]) with
        | some entry => tree.follow entry others
        | none => .error .notFound

/-- What a path leads to. The empty path leads nowhere. -/
def find (tree : FileTree) (path : Path) : Except ReadError FileEntry :=
  if path.text.isEmpty then
    .error .notFound
  else if path.text.toList.contains '\x00' then
    .error .nulCharacter
  else if maxPathLength < path.text.utf8ByteSize then
    .error .nameTooLong
  else
    tree.follow (.folder (if path.isAbsolute then [] else tree.working)) path.segments

/-- Whether a path leads to something. -/
def contains (tree : FileTree) (path : Path) : Bool :=
  match tree.find path with
  | .ok _ => true
  | .error _ => false

/-- Whether a path leads to a file. -/
def hasFile (tree : FileTree) (path : Path) : Bool :=
  match tree.find path with
  | .ok (.file _ _) => true
  | _ => false

/-- The text of the file that a path leads to. -/
def read (tree : FileTree) (path : Path) : Except ReadError String :=
  match tree.find path with
  | .ok (.file _ (.text value)) => .ok value
  | .ok (.file _ (.bytes _)) => .error .invalidText
  | .ok (.folder _) => .error .isAFolder
  | .error error => .error error

/-- The tree after the file at a location has been given a text. -/
def writeAt (tree : FileTree) (location : Location) (value : String) : FileTree :=
  { tree with
    files := tree.files.map fun file =>
      if file.1 == location then (location, .text value) else file }

/-- The tree after the file that a path leads to has been given a text. -/
def write (tree : FileTree) (path : Path) (value : String) : FileTree :=
  match tree.find path with
  | .ok (.file location _) => tree.writeAt location value
  | _ => tree

/-- The nonempty parts at the front of a list, the shortest first. -/
def leadingParts {α : Type} : List α → List (List α)
  | [] => []
  | first :: others => [first] :: (leadingParts others).map (first :: ·)

/-- The files that lie below a folder at any depth, as the names that lead to them from it. -/
def filesBelow (tree : FileTree) (location : Location) : List (List String) :=
  tree.files.filterMap fun file =>
    if location.isPrefixOf file.1 && location != file.1 then
      some (file.1.drop location.length)
    else
      none

/-- The folders that lie below a folder at any depth, as the names that lead to them from it. -/
def foldersBelow (tree : FileTree) (location : Location) : List (List String) :=
  let stored := (tree.filesBelow location).flatMap fun names => leadingParts names.dropLast
  let listed := tree.folders.flatMap fun folder =>
    if location.isPrefixOf folder then leadingParts (folder.drop location.length) else []
  (stored ++ listed).eraseDups

end FileTree

end ScriptStyle
