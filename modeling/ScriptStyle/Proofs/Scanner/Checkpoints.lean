import ScriptStyle.Proofs.Scanner.Tiling

/-!
Tokens with a map of checkpoints beside them. Each token that begins with a slash has a checkpoint,
the state of the scanner in front of it. When it is read again, tokens and checkpoints are cut off
at its index and filled up from its checkpoint. However often that is done, they stay in step with
the list that keeps each token with the scanner that read it.
-/

namespace ScriptStyle

-----------------------------------------------------------------------------------------
-- Checkpoints
-----------------------------------------------------------------------------------------

/-- The state of a scanner, apart from the text that is still to be read. -/
structure Checkpoint where
  offset : Nat
  braces : List Brace
  newlineBefore : Bool
  previous : Option (TokenKind × String)

/-- The state of a scanner right before a token. -/
def Scanner.checkpoint (scanner : Scanner) : Checkpoint :=
  ⟨scanner.offset, scanner.braces, scanner.newlineBefore, scanner.previous⟩

/-- A scanner that goes on with a text at a checkpoint. -/
def Checkpoint.restore (checkpoint : Checkpoint) (text : List Char) : Scanner where
  rest := ((Text.cutAt? text checkpoint.offset).map Prod.snd).getD []
  offset := checkpoint.offset
  braces := checkpoint.braces
  newlineBefore := checkpoint.newlineBefore
  previous := checkpoint.previous
  guess := SlashGuess.standard

/-- The checkpoint for a token, if it begins with a slash. -/
def ScannedToken.checkpoint? (entry : ScannedToken) : Option Checkpoint :=
  if entry.token.startsWithSlash then some entry.scanner.checkpoint else none

/-- How slashes in doubt are read is the same from the start of a trail to its end. -/
theorem Trail.guess_eq {start stop : Scanner} {tokens : List Token}
    (trail : Trail start tokens stop)
    : stop.guess = start.guess := by
  induction trail with
  | nil => rfl
  | cons read _ ih =>
      obtain ⟨_, -, -, -, -, -, -, guess⟩ := Scanner.next_splits read
      exact ih.trans guess

/-- A scanner to which tokens of a text lead is restored from its checkpoint. -/
theorem Trail.restore_checkpoint {text : List Char} {tokens : List Token} {scanner : Scanner}
    (trail : Trail (.ofText .standard text) tokens scanner)
    : scanner.checkpoint.restore text = scanner := by
  obtain ⟨taken, split, offset⟩ := trail.taken
  have guess : scanner.guess = SlashGuess.standard := trail.guess_eq
  have begins : (Scanner.ofText .standard text).offset = 0 := rfl
  have same : (Scanner.ofText .standard text).rest = text := rfl
  rw [begins, Nat.zero_add] at offset
  rw [same] at split
  obtain ⟨rest, _, braces, newline, previous, _⟩ := scanner
  obtain rfl := guess
  obtain rfl := offset
  rw [Scanner.checkpoint, Checkpoint.restore, split, Text.cutAt?_append]
  rfl

-----------------------------------------------------------------------------------------
-- Buffers
-----------------------------------------------------------------------------------------

/-- The tokens of a text, with checkpoints by the indices of those that begin with a slash. -/
structure TokenBuffer where
  text : List Char
  tokens : Array Token
  fault : Option SyntaxError
  checkpoints : Std.ExtHashMap Nat Checkpoint

namespace TokenBuffer

/-- Adds a token that was read by a scanner, and its checkpoint if it begins with a slash. -/
def add (buffer : TokenBuffer) (token : Token) (scanner : Scanner) : TokenBuffer :=
  { buffer with
    tokens := buffer.tokens.push token
    checkpoints :=
      if token.startsWithSlash then
        buffer.checkpoints.insert buffer.tokens.size scanner.checkpoint
      else
        buffer.checkpoints }

/-- Adds at most `count` tokens, the first read with the given reading of a slash. -/
def fillUpTo : Nat → Scanner → SlashReading → TokenBuffer → TokenBuffer
  | 0, _, _, buffer => buffer
  | count + 1, scanner, reading, buffer =>
      match scanner.next reading with
      | (.error fault, _) => { buffer with fault := some fault }
      | (.ok none, _) => buffer
      | (.ok (some token), after) => (buffer.add token scanner).fillUpTo count after .guessed

/-- Adds all tokens from a scanner on, the first read with the given reading of a slash. -/
def fill (buffer : TokenBuffer) (scanner : Scanner) (reading : SlashReading) : TokenBuffer :=
  buffer.fillUpTo (scanner.rest.length + 1) scanner reading

/-- The tokens of a source. -/
def ofSource (source : String) : Except SyntaxError TokenBuffer :=
  if source.utf8ByteSize > TokenList.maxSourceLength then
    .error .sourceTooLarge
  else
    .ok (fill ⟨source.toList, #[], none, ∅⟩ (.ofText .standard source.toList) .guessed)

/-- What stands before an index. -/
def cut (buffer : TokenBuffer) (index : Nat) : TokenBuffer :=
  { buffer with
    tokens := buffer.tokens.take index
    fault := none
    checkpoints := buffer.checkpoints.filter fun place _ => place < index }

/-- Reads a token again, and all tokens after it, if there is a checkpoint for it; and whether
that was done. -/
def rereadAt (buffer : TokenBuffer) (index : Nat) (reading : SlashReading) : Bool × TokenBuffer :=
  match buffer.checkpoints[index]? with
  | none => (false, buffer)
  | some checkpoint => (true, (buffer.cut index).fill (checkpoint.restore buffer.text) reading)

/-- A buffer after tokens at some indices were read again, one after another. -/
def rereadAll (buffer : TokenBuffer) (calls : List (Nat × SlashReading)) : TokenBuffer :=
  calls.foldl (fun buffer call => (buffer.rereadAt call.1 call.2).2) buffer

-----------------------------------------------------------------------------------------
-- Buffers in step with lists
-----------------------------------------------------------------------------------------

/-- A buffer over a text holds the tokens and the fault of a list, and for each token that begins
with a slash the state of the scanner that the list keeps with it. -/
structure InStep (text : List Char) (buffer : TokenBuffer) (list : TokenList) : Prop where
  text : buffer.text = text
  tokens : buffer.tokens.toList = list.tokens
  fault : buffer.fault = list.fault
  checkpoints
    : ∀ index : Nat,
        buffer.checkpoints[index]? = list.entries[index]?.bind ScannedToken.checkpoint?

variable {text : List Char} {buffer other : TokenBuffer} {list : TokenList}

namespace InStep

theorem size_eq (inStep : InStep text buffer list)
    : buffer.tokens.size = list.entries.length := by
  rw [← Array.length_toList, inStep.tokens, TokenList.tokens, List.length_map]

/-- A list tells all that a buffer in step with it holds. -/
theorem unique (inStep : InStep text buffer list) (inStep' : InStep text other list)
    : buffer = other := by
  obtain ⟨_, _, _, _⟩ := buffer
  obtain ⟨_, _, _, _⟩ := other
  obtain ⟨rfl, tokens, rfl, checkpoints⟩ := inStep
  obtain ⟨rfl, tokens', rfl, checkpoints'⟩ := inStep'
  simp only [TokenBuffer.mk.injEq, true_and]
  exact ⟨Array.toList_inj.mp (tokens.trans tokens'.symm),
    Std.ExtHashMap.ext_getElem? fun index => (checkpoints index).trans (checkpoints' index).symm⟩

theorem empty (text : List Char)
    : InStep text ⟨text, #[], none, ∅⟩ ⟨[], none⟩ where
  text := rfl
  tokens := rfl
  fault := rfl
  checkpoints _ := Std.ExtHashMap.getElem?_empty

/-- A token is added with its scanner. -/
theorem add (inStep : InStep text buffer list) (token : Token) (scanner : Scanner)
    : InStep text (buffer.add token scanner) ⟨list.entries ++ [⟨token, scanner⟩], list.fault⟩ where
  text := inStep.text
  tokens := by simp [TokenBuffer.add, inStep.tokens, TokenList.tokens]
  fault := inStep.fault
  checkpoints index := by
    have before := inStep.checkpoints index
    rw [TokenBuffer.add]
    rcases Nat.lt_trichotomy index list.entries.length with inside | rfl | beyond
    · rw [List.getElem?_append_left inside, ← before]
      split
      · rw [Std.ExtHashMap.getElem?_insert, if_neg (by simp [inStep.size_eq]; omega)]
      · rfl
    · rw [List.getElem?_concat_length, Option.bind_some, ScannedToken.checkpoint?]
      split
      · rw [inStep.size_eq, Std.ExtHashMap.getElem?_insert_self]
      · rw [before, List.getElem?_eq_none (Nat.le_refl _), Option.bind_none]
    · rw [List.getElem?_eq_none (Nat.le_of_lt beyond), Option.bind_none] at before
      rw [List.getElem?_eq_none (by simp; omega), Option.bind_none]
      split
      · rw [Std.ExtHashMap.getElem?_insert, if_neg (by simp [inStep.size_eq]; omega), before]
      · exact before

/-- Up to an index, the tokens and their checkpoints are those of the list up to there. -/
theorem cut (inStep : InStep text buffer list) (index : Nat)
    : InStep text (buffer.cut index) ⟨list.entries.take index, none⟩ where
  text := inStep.text
  tokens := by simp [TokenBuffer.cut, inStep.tokens, TokenList.tokens]
  fault := rfl
  checkpoints place := by
    rw [TokenBuffer.cut, Std.ExtHashMap.getElem?_filter', inStep.checkpoints, List.getElem?_take]
    by_cases before : place < index
    · rw [if_pos before]
      generalize list.entries[place]?.bind ScannedToken.checkpoint? = checkpoint
      cases checkpoint <;> simp [before]
    · simp [before]

/-- A buffer is filled up with the tokens that a list goes on with. -/
theorem fillUpTo (inStep : InStep text buffer list) (clean : list.fault = none) (count : Nat)
    (scanner : Scanner) (reading : SlashReading)
    : InStep text (buffer.fillUpTo count scanner reading)
        ⟨list.entries ++ (TokenList.scanUpTo count scanner reading).entries,
          (TokenList.scanUpTo count scanner reading).fault⟩ := by
  induction count generalizing buffer list scanner reading with
  | zero =>
      rw [TokenBuffer.fillUpTo, TokenList.scanUpTo, List.append_nil, ← clean]
      exact inStep
  | succ count ih =>
      cases read : scanner.next reading with
      | mk result after =>
          cases result with
          | error fault =>
              simp only [TokenBuffer.fillUpTo, TokenList.scanUpTo, read, List.append_nil]
              exact { inStep with fault := rfl }
          | ok found =>
              cases found with
              | none =>
                  simp only [TokenBuffer.fillUpTo, TokenList.scanUpTo, read, List.append_nil]
                  exact { inStep with fault := inStep.fault.trans clean }
              | some token =>
                  simp only [TokenBuffer.fillUpTo, TokenList.scanUpTo, read]
                  have filled := ih (inStep.add token scanner) clean after .guessed
                  rwa [List.append_assoc] at filled

theorem fill (inStep : InStep text buffer list) (clean : list.fault = none) (scanner : Scanner)
    (reading : SlashReading)
    : InStep text (buffer.fill scanner reading)
        ⟨list.entries ++ (TokenList.scan scanner reading).entries,
          (TokenList.scan scanner reading).fault⟩ :=
  inStep.fillUpTo clean _ scanner reading

variable (inStep : InStep text buffer list)
  (runs : TokenList.RunsFrom (.ofText .standard text) list)

include inStep runs

/-- A token is read again in a buffer just where it is in the list, and stays in step with it. -/
theorem rereadAt (index : Nat) (reading : SlashReading)
    : (buffer.rereadAt index reading).1 = (list.rereadAt index reading).1
      ∧ InStep text (buffer.rereadAt index reading).2 (list.rereadAt index reading).2 := by
  have kept := inStep.checkpoints index
  rcases list.rereadAt_cases index reading with ⟨entry, here, slash, again⟩ | ⟨none, same⟩
  · obtain ⟨stop, chain, -⟩ := runs
    rw [here, Option.bind_some, ScannedToken.checkpoint?, if_pos slash] at kept
    have restored := (chain.before here).1.trail.restore_checkpoint
    simp only [again, TokenBuffer.rereadAt, kept, inStep.text, restored, true_and]
    exact (inStep.cut index).fill rfl entry.scanner reading
  · have missing : buffer.checkpoints[index]? = Option.none := by
      rw [kept, Option.bind_eq_none_iff]
      exact fun entry here => if_neg (none entry here)
    simp only [same, TokenBuffer.rereadAt, missing, true_and]
    exact inStep

/-- Whatever is read again, a buffer stays in step with the list. -/
theorem rereadAll (calls : List (Nat × SlashReading))
    : InStep text (buffer.rereadAll calls) (list.rereadAll calls) := by
  induction calls generalizing buffer list with
  | nil => exact inStep
  | cons call calls ih =>
      exact ih (inStep.rereadAt runs call.1 call.2).2 (runs.rereadAt call.1 call.2)

end InStep

-----------------------------------------------------------------------------------------
-- One run
-----------------------------------------------------------------------------------------

/-- What holds of a buffer, however slashes in it were read again before. -/
structure OneRun (origin : Scanner) (buffer : TokenBuffer) : Prop where
  /-- Only a token that begins with a slash is read again. -/
  again
    : ∀ index reading, (buffer.rereadAt index reading).1
        ↔ ∃ token, buffer.tokens[index]? = some token ∧ token.startsWithSlash
  /-- Where no token is read again, nothing changes. -/
  same
    : ∀ index reading, (buffer.rereadAt index reading).1 = false →
        (buffer.rereadAt index reading).2 = buffer
  /-- Nothing changes before the token that is read again. -/
  before
    : ∀ index reading,
        (buffer.rereadAt index reading).2.tokens.take index = buffer.tokens.take index
  /-- A scanner that reads regular expressions where the buffer has them, and divisions where it
  has them, finds all tokens of the buffer, and then the end of the source or the fault. -/
  run
    : ∃ stop, origin.readAll? (buffer.tokens.toList.map Token.reading)
          = some (buffer.tokens.toList, stop)
        ∧ TokenList.StopsAt stop buffer.fault
  /-- Of two readings of one slash only the last matters, if the first left a token there. -/
  last
    : ∀ index first second, index < (buffer.rereadAt index first).2.tokens.size →
        (buffer.rereadAt index first).2.rereadAt index second = buffer.rereadAt index second

/-- A buffer in step with a list holds the tokens of one run if the list does. -/
theorem InStep.oneRun (inStep : InStep text buffer list)
    (runs : TokenList.RunsFrom (.ofText .standard text) list)
    : OneRun (.ofText .standard text) buffer where
  again index reading := by
    rw [(inStep.rereadAt runs index reading).1, runs.oneRun.again, ← inStep.tokens,
      Array.getElem?_toList]
  same index reading unread := by
    rw [(inStep.rereadAt runs index reading).1] at unread
    have unchanged := (inStep.rereadAt runs index reading).2
    rw [runs.oneRun.same index reading unread] at unchanged
    exact unchanged.unique inStep
  before index reading := by
    have front := congrArg (List.map ScannedToken.token) (list.take_rereadAt index reading)
    rw [List.map_take, List.map_take] at front
    refine Array.toList_inj.mp ?_
    have again := (inStep.rereadAt runs index reading).2.tokens
    simpa [again, inStep.tokens, TokenList.tokens] using front
  run := by
    rw [inStep.tokens, inStep.fault]
    exact runs.oneRun.run
  last index first second left := by
    have once := inStep.rereadAt runs index first
    have still := runs.rereadAt index first
    rw [once.2.size_eq] at left
    have same := runs.oneRun.last index first second left
    have twice := once.2.rereadAt still index second
    rw [same] at twice
    have only := inStep.rereadAt runs index second
    exact Prod.ext (twice.1.trans only.1.symm) (twice.2.unique only.2)

end TokenBuffer

namespace TokenList

/-- The tokens of a source stay as they are when a guess is repeated, and whatever slashes are
read again, they are the tokens of one run over the source. A buffer that keeps checkpoints beside
its tokens holds the same tokens all along.
-/
theorem rereads_as_one_run {source : String} {list : TokenList} (lexed : ofSource source = .ok list)
    : (∀ index, (list.rereadAt index .guessed).2 = list)
      ∧ (∀ calls, OneRun (.ofText .standard source.toList) (list.rereadAll calls))
      ∧ ∃ buffer, TokenBuffer.ofSource source = .ok buffer
        ∧ (∀ index, (buffer.rereadAt index .guessed).2 = buffer)
        ∧ ∀ calls,
            TokenBuffer.InStep source.toList (buffer.rereadAll calls) (list.rereadAll calls)
            ∧ TokenBuffer.OneRun (.ofText .standard source.toList) (buffer.rereadAll calls) := by
  simp only [ofSource, ofSourceWith] at lexed
  split at lexed
  · cases lexed
  case isFalse small =>
    obtain rfl := Except.ok.inj lexed
    have runs := scan_runsFrom (.ofText .standard source.toList) .guessed
    have inStep
        : TokenBuffer.InStep source.toList _ (scan (.ofText .standard source.toList) .guessed) :=
      (TokenBuffer.InStep.empty source.toList).fill rfl _ .guessed
    refine ⟨rereadAt_guessed _, fun calls => (runs.rereadAll calls).oneRun, _,
      if_neg small, fun index => ?_, fun calls => ?_⟩
    · have again := (inStep.rereadAt runs index .guessed).2
      rw [rereadAt_guessed] at again
      exact again.unique inStep
    · have still := inStep.rereadAll runs calls
      exact ⟨still, still.oneRun (runs.rereadAll calls)⟩

/-- A quote that a guess takes for the start of a string is part of a regular expression once
the slash in front of it is read as the start of one, in the list as in the buffer. -/
theorem rereads_as_one_run_of_hidden_quote
    : ∃ list buffer, ofSource "1 /'/ 2" = .ok list
        ∧ TokenBuffer.ofSource "1 /'/ 2" = .ok buffer
        ∧ list.fault = some (.unterminatedString 3)
        ∧ (list.rereadAll [(1, .regex)]).tokens.map Token.text = ["1", "/'/", "2"]
        ∧ (list.rereadAll [(1, .regex)]).fault = none
        ∧ OneRun (.ofText .standard "1 /'/ 2".toList) (list.rereadAll [(1, .regex)])
        ∧ (buffer.rereadAll [(1, .regex)]).tokens.toList.map Token.text = ["1", "/'/", "2"]
        ∧ TokenBuffer.OneRun (.ofText .standard "1 /'/ 2".toList)
          (buffer.rereadAll [(1, .regex)]) := by
  obtain ⟨-, oneRun, buffer, lexed, -, inStep⟩ :=
    rereads_as_one_run (rfl : ofSource "1 /'/ 2" = .ok _)
  have texts : ((scan (.ofText .standard "1 /'/ 2".toList) .guessed).rereadAll
      [(1, .regex)]).tokens.map Token.text = ["1", "/'/", "2"] := by
    decide +kernel
  obtain ⟨held, oneRun'⟩ := inStep [(1, .regex)]
  exact ⟨_, buffer, rfl, lexed, by decide +kernel, texts, by decide +kernel, oneRun _,
    held.tokens ▸ texts, oneRun'⟩

end TokenList

end ScriptStyle
