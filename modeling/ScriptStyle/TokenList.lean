import ScriptStyle.Scanner

/-!
All tokens of a source. Each is kept with the scanner in front of it, so that the list can be
read again from any slash whose first reading did not suit the grammar.
-/

namespace ScriptStyle

/-- A token and the scanner that read it. -/
structure ScannedToken where
  token : Token
  scanner : Scanner

/-- The tokens of a source, up to its end or to the first fault. -/
structure TokenList where
  entries : List ScannedToken
  fault : Option SyntaxError

namespace TokenList

/-- The tokens themselves. -/
def tokens (list : TokenList) : List Token :=
  list.entries.map ScannedToken.token

/-- Reads at most `count` tokens, the first with the given reading of a slash. -/
def scanUpTo : Nat → Scanner → SlashReading → TokenList
  | 0, _, _ => ⟨[], none⟩
  | count + 1, scanner, reading =>
      match scanner.next reading with
      | (.error fault, _) => ⟨[], some fault⟩
      | (.ok none, _) => ⟨[], none⟩
      | (.ok (some token), after) =>
          let others := scanUpTo count after .guessed
          { others with entries := ⟨token, scanner⟩ :: others.entries }

/-- All tokens from a scanner on, the first with the given reading of a slash.
A token takes at least one character, which bounds their number. -/
def scan (scanner : Scanner) (reading : SlashReading) : TokenList :=
  scanUpTo (scanner.rest.length + 1) scanner reading

/-- The largest source whose offsets fit in 32 bits, in bytes. -/
def maxSourceLength : Nat := 4294967295

/-- The tokens of a source, with the given guess for slashes. -/
def ofSourceWith (guess : SlashGuess) (source : String) : Except SyntaxError TokenList :=
  if source.utf8ByteSize > maxSourceLength then
    .error .sourceTooLarge
  else
    .ok (scan (Scanner.ofText guess source.toList) .guessed)

/-- The tokens of a source. -/
def ofSource (source : String) : Except SyntaxError TokenList :=
  ofSourceWith SlashGuess.standard source

/-- Reads a token again, and all tokens after it, with the given reading of its slash.
There is no such list unless the token begins with a slash. -/
def reread? (list : TokenList) (index : Nat) (reading : SlashReading) : Option TokenList :=
  match list.entries[index]? with
  | some entry =>
      if entry.token.startsWithSlash then
        let others := scan entry.scanner reading
        some { others with entries := list.entries.take index ++ others.entries }
      else
        none
  | none => none

end TokenList

/-- All tokens of a source, comments included, or the first fault. -/
def tokenize (source : String) : Except SyntaxError (List Token) := do
  let list ← TokenList.ofSource source
  match list.fault with
  | some fault => .error fault
  | none => .ok list.tokens

end ScriptStyle
