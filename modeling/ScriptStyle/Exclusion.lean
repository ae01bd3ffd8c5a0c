/-!
Names that are not looked at when scripts are searched for. A pattern is a name, or a star and
an ending that begins with a dot.
-/

namespace ScriptStyle.Exclusion

/-- The patterns that always apply, in order. -/
def usual : List String :=
  ["*.min.js", ".cache", ".git", ".hg", ".next", ".nuxt", ".svn", "bower_components", "build",
    "coverage", "dist", "node_modules"]

/-- Whether a name fits a pattern. -/
def fits (name : String) (pattern : String) : Bool :=
  match pattern.toList with
  | '*' :: '.' :: ending => ('.' :: ending).isSuffixOf name.toList
  | _ => name == pattern

/-- Whether a name fits one of some patterns. -/
def excludes (patterns : List String) (name : String) : Bool :=
  patterns.any (fits name)

/-- What is said about patterns that were given. -/
def describe (patterns : List String) : String :=
  if patterns.isEmpty then
    "[OK] Using default exclusions only: " ++ String.intercalate ", " usual ++ "\n"
  else
    "Excluding: " ++ String.intercalate ", " patterns ++ "\n"

end ScriptStyle.Exclusion
