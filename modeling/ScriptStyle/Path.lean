/-!
Paths as they are written. Two paths are the same when their steps are, however many slashes
stand between them.
-/

namespace ScriptStyle

/-- One step of a path. -/
inductive PathStep where
  /-- To the outermost folder. -/
  | root
  /-- To the folder that the path starts from, written as a dot. -/
  | here
  /-- To the folder around. -/
  | up
  /-- To the entry of a name. -/
  | name (text : String)
deriving DecidableEq, Repr, Inhabited

namespace PathStep

/-- The rank of a kind of step: steps of different kinds are ordered by it. -/
def rank : PathStep → Nat
  | root => 0
  | here => 1
  | up => 2
  | name _ => 3

/-- The order of steps. Names are ordered by their characters. -/
def compare (first second : PathStep) : Ordering :=
  match first, second with
  | name a, name b => if a < b then .lt else if b < a then .gt else .eq
  | _, _ => Ord.compare first.rank second.rank

end PathStep

/-- A path as it is written. -/
structure Path where
  text : String
deriving DecidableEq, Repr, Inhabited

namespace Path

/-- The parts of a path between slashes, which may be empty. -/
def segments (path : Path) : List String :=
  path.text.splitOn "/"

/-- Whether a path starts from the outermost folder. -/
def isAbsolute (path : Path) : Bool :=
  path.text.toList.head? == some '/'

/-- The step that a part of a path stands for, if it stands for one. A dot counts only at the
front of a path. -/
def stepOf? (isFirst : Bool) : String → Option PathStep
  | "" => none
  | "." => if isFirst then some .here else none
  | ".." => some .up
  | text => some (.name text)

/-- The steps of parts of a path, each with the text up to it. -/
def prefixesFrom (before : String) : List String → List (PathStep × String)
  | [] => []
  | segment :: others =>
      let text := before ++ "/" ++ segment
      let rest := prefixesFrom text others
      match stepOf? false segment with
      | some step => (step, text) :: rest
      | none => rest

/-- The steps of a path, each with the text up to it. -/
def prefixes (path : Path) : List (PathStep × String) :=
  match path.segments with
  | [] => []
  | first :: others =>
      let rest := prefixesFrom first others
      if path.isAbsolute then
        (.root, "/") :: rest
      else
        match stepOf? true first with
        | some step => (step, first) :: rest
        | none => rest

/-- The steps of a path. -/
def steps (path : Path) : List PathStep :=
  path.prefixes.map Prod.fst

/-- Compares lists of steps, the first difference deciding. -/
def compareSteps : List PathStep → List PathStep → Ordering
  | [], [] => .eq
  | [], _ :: _ => .lt
  | _ :: _, [] => .gt
  | a :: first, b :: second => (a.compare b).then (compareSteps first second)

/-- Whether a path comes before another or is the same: step by step, so that what lies in a
folder comes before the entries after the folder. -/
def precedes (first second : Path) : Bool :=
  compareSteps first.steps second.steps != .gt

/-- Whether two paths have the same steps. -/
def isSame (first second : Path) : Bool :=
  first.steps == second.steps

/-- The path of the entry with a name in the folder of a path. -/
def join (path : Path) (name : String) : Path :=
  if path.text.isEmpty then ⟨name⟩
  else if path.text.toList.getLast? == some '/' then ⟨path.text ++ name⟩
  else ⟨path.text ++ "/" ++ name⟩

/-- The path of the entry reached by names from the folder of a path. -/
def joinAll (path : Path) (names : List String) : Path :=
  names.foldl join path

/-- The name of the entry at a path, unless the path ends with another step. -/
def fileName? (path : Path) : Option String :=
  match path.steps.getLast? with
  | some (.name text) => some text
  | _ => none

/-- A path and the paths of the folders around it, from the inside out. The last of them is
empty unless the path is absolute. -/
def ancestors (path : Path) : List Path :=
  let outer := path.prefixes.dropLast.reverse.map fun entry => Path.mk entry.2
  if path.isAbsolute || path.prefixes.isEmpty then
    path :: outer
  else
    path :: (outer ++ [⟨""⟩])

/-- The text without every copy of a word at its front. At most `fuel` are removed. -/
def dropRepeated (word : List Char) : Nat → List Char → List Char
  | 0, text => text
  | fuel + 1, text =>
      if word.isPrefixOf text && !word.isEmpty then
        dropRepeated word fuel (text.drop word.length)
      else
        text

/-- A path as reports show it: with forward slashes, without a dot at its front and without the
mark of long paths. -/
def display (path : Path) : String :=
  let text := path.text.toList
  let unmarked := dropRepeated "\\\\?\\".toList text.length text
  let slashed := unmarked.map fun c => if c == '\\' then '/' else c
  String.ofList (if "./".toList.isPrefixOf slashed then slashed.drop 2 else slashed)

end Path

/-- The part of a name after its last dot. A dot at the front does not count. -/
def nameExtension? (name : String) : Option String :=
  let reversed := name.toList.reverse
  match reversed.dropWhile (· != '.') with
  | '.' :: _ :: _ => some (String.ofList (reversed.takeWhile (· != '.')).reverse)
  | _ => none

end ScriptStyle
