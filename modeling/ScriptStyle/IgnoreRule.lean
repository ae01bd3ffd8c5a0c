import ScriptStyle.FileTree
import ScriptStyle.Glob.Reader
import ScriptStyle.Text.Blank

/-!
Rules on which files are not looked at, as they are kept in files beside them. The last rule that
fits an entry decides; a rule may also take an entry back in.
-/

namespace ScriptStyle

/-- One rule. -/
structure IgnoreRule where
  glob : Glob
  /-- Whether entries that fit are taken back in. -/
  keeps : Bool
  /-- Whether only folders fit. -/
  foldersOnly : Bool
deriving DecidableEq, Repr, Inhabited

namespace IgnoreRule

/-- A line without the white space at its end, unless a backslash keeps it. -/
def trimmed (line : List Char) : List Char :=
  if "\\ ".toList.isSuffixOf line then
    line
  else
    (line.reverse.dropWhile Text.isWhiteSpace).reverse

/-- The pattern of a line without its marks. A pattern without a slash fits in every folder, and
one that ends with two stars only what lies in a folder. -/
def anchored (isAnchored : Bool) (pattern : List Char) : List Char :=
  let isFree := !isAnchored && !pattern.contains '/' && pattern != "**".toList
  let pattern := if isFree then "**/".toList ++ pattern else pattern
  if "/**".toList.isSuffixOf pattern then pattern ++ "/*".toList else pattern

/-- The rule of a pattern whose marks at the front have been read. -/
def ofPattern? (keeps isAnchored : Bool) (pattern : List Char) : Option IgnoreRule :=
  let foldersOnly := pattern.getLast? == some '/'
  let name := if foldersOnly then pattern.dropLast else pattern
  let name := if foldersOnly && name.getLast? == some '\\' then name.dropLast else name
  (Glob.parse? (String.ofList (anchored isAnchored name))).map fun glob =>
    { glob, keeps, foldersOnly }

/-- The rule that a line states. Comments, blank lines and broken patterns state none. -/
def ofLine? (line : List Char) : Option IgnoreRule :=
  match trimmed line with
  | [] | '#' :: _ => none
  | '\\' :: '!' :: rest => ofPattern? false false ('!' :: rest)
  | '\\' :: '#' :: rest => ofPattern? false false ('#' :: rest)
  | '!' :: '/' :: rest => ofPattern? true true rest
  | '!' :: rest => ofPattern? true false rest
  | '/' :: rest => ofPattern? false true rest
  | pattern => ofPattern? false false pattern

/-- The lines of a text, without the characters that end them. -/
def linesOf (text : String) : List (List Char) :=
  (text.splitOn "\n").map fun line =>
    let chars := line.toList
    if chars.getLast? == some '\r' then chars.dropLast else chars

/-- The lines at the front of some bytes that are texts. -/
def textLines (bytes : List UInt8) : List (List Char) :=
  let lines := (bytes.splitOn 0x0a).map fun line => String.fromUTF8? ⟨line.toArray⟩
  (lines.takeWhile Option.isSome).flatMap fun line => linesOf (line.getD "")

/-- The rules that a file states. Byte order marks at its front are skipped. -/
def ofContent (content : FileContent) : List IgnoreRule :=
  let lines :=
    match content with
    | .text value => linesOf value
    | .bytes value => textLines value
  match lines with
  | [] => []
  | first :: others => ((first.dropWhile (· == '\ufeff')) :: others).filterMap ofLine?

/-- Whether a rule fits the entry at a path. -/
def fits (rule : IgnoreRule) (path : String) (isFolder : Bool) : Bool :=
  (isFolder || !rule.foldersOnly) && rule.glob.fits path

/-- Whether rules leave out the entry at a path or take it in, if one of them fits it. -/
def verdict? (rules : List IgnoreRule) (path : String) (isFolder : Bool) : Option Bool :=
  (rules.reverse.find? (·.fits path isFolder)).map fun rule => !rule.keeps

end IgnoreRule

namespace FileTree

/-- The rules that the file at a location states; none if there is no file. -/
def rulesAt (tree : FileTree) (location : Location) : List IgnoreRule :=
  ((tree.contentAt? location).map IgnoreRule.ofContent).getD []

/-- Whether a folder is the outermost one of a repository. -/
def isRepository (tree : FileTree) (folder : Location) : Bool :=
  (tree.entryAt? (folder ++ [".git"])).isSome

/-- A folder and the folders around it, from the inside out. -/
def foldersAround (folder : Location) : List Location :=
  (leadingParts folder).reverse ++ [[]]

/-- The folders from the inside out, up to and with the first that is a repository. -/
def throughRepository (tree : FileTree) : List Location → List Location
  | [] => []
  | folder :: others =>
      if tree.isRepository folder then [folder] else folder :: tree.throughRepository others

/-- What the rules in a file of the given place in some folders say of the entry at a location.
The first folder with a rule that fits decides. -/
def verdictIn? (tree : FileTree) (place : List String) (folders : List Location)
    (location : Location) (isFolder : Bool) : Option Bool :=
  folders.findSome? fun folder =>
    let path := String.intercalate "/" (location.drop folder.length)
    IgnoreRule.verdict? (tree.rulesAt (folder ++ place)) path isFolder

/-- Whether rules leave out the entry at a location. General rules come first; rules of
repositories count only inside one, and not beyond its outermost folder. -/
def isIgnored (tree : FileTree) (location : Location) (isFolder : Bool) : Bool :=
  let folders := foldersAround location.dropLast
  let inner := if folders.any tree.isRepository then tree.throughRepository folders else []
  let verdict :=
    (tree.verdictIn? [".ignore"] folders location isFolder)
      <|> (tree.verdictIn? [".gitignore"] inner location isFolder)
      <|> (tree.verdictIn? [".git", "info", "exclude"] inner location isFolder)
  verdict.getD false

end FileTree

end ScriptStyle
