import ScriptStyle.Proofs.Grammar.Cursors

/-!
Lists of tokens whose slashes were read again any number of times. However that was done, the
tokens are those of one run over the source that knows of each slash how to read it.
-/

namespace ScriptStyle

/-- The reading with which a token is found whatever is guessed of slashes. -/
def Token.reading (token : Token) : SlashReading :=
  if token.kind == .regex then
    .regex
  else if token.startsWithSlash then
    .division
  else
    .guessed

namespace Scanner

variable {scanner stop : Scanner} {reading : SlashReading}

/-- Reads one token after another, each with its own reading of a slash; nothing if the source
ends before all are read, or a fault is met. -/
def readAll? (scanner : Scanner) : List SlashReading → Option (List Token × Scanner)
  | [] => some ([], scanner)
  | reading :: others =>
      match scanner.next reading with
      | (.ok (some token), after) =>
          (after.readAll? others).map fun found => (token :: found.1, found.2)
      | _ => none

/-- Nothing is read but at the end of the source. -/
theorem read?_eq_none
    : scanner.read? reading = none ↔ scanner.rest = [] := by
  constructor
  · intro missing
    revert missing
    fun_cases read? scanner reading <;> intro missing
    case case1 ended => exact ended
    all_goals cases missing
  · intro ended
    simp [read?, ended]

/-- At the end of a source no token is read, and nowhere else. -/
theorem next_eq_none
    : (scanner.next reading).1 = .ok none ↔ scanner.skipBlank.rest = [] := by
  refine Iff.trans ?_ (read?_eq_none : scanner.skipBlank.read? reading = none ↔ _)
  simp only [next]
  cases scanner.skipBlank.read? reading with
  | none => simp
  | some front => cases outcome : front.outcome <;> simp [outcome]

/-- A slash that is read as a regular expression by a guess is read so if that is asked for, and
one that is read as an operator is one as a division. -/
theorem readSlash_reading {kind : TokenKind} {tail : List Char}
    (outcome : (scanner.readSlash reading tail).outcome = .ok kind)
    : scanner.readSlash (if kind == .regex then .regex else .division) tail
      = scanner.readSlash reading tail := by
  have divides : scanner.readSlash .division tail = scanner.readDivision tail := rfl
  by_cases regex : scanner.slashIsRegex reading
  · by_cases closed : (Lexeme.regexReach false tail).closed
    · simp only [readSlash, regex, closed, if_true] at outcome ⊢
      obtain rfl := Except.ok.inj outcome
      simp [slashIsRegex]
    · by_cases forced : reading == .regex
      · simp only [readSlash, regex, closed, forced, if_true, Bool.false_eq_true, if_false] at outcome
        cases outcome
      · simp only [readSlash, regex, closed, forced, if_true, Bool.false_eq_true, if_false]
          at outcome ⊢
        obtain rfl := Except.ok.inj outcome
        exact divides
  · simp only [readSlash, regex, Bool.false_eq_true, if_false] at outcome ⊢
    obtain rfl := Except.ok.inj outcome
    exact divides

/-- A token is read again with the reading that its kind tells. -/
theorem next_reading {token : Token} {after : Scanner}
    (read : scanner.next reading = (.ok (some token), after))
    : scanner.next token.reading = (.ok (some token), after) := by
  by_cases slash : token.startsWithSlash
  · obtain ⟨tail, text, notLine, notBlock⟩ := slash_of_next read slash
    obtain ⟨front, kind, reads, outcome, rfl, rfl⟩ := next_eq_token.mp read
    rw [read?_slash text notLine notBlock] at reads
    obtain rfl := Option.some.inj reads
    refine next_eq_token.mpr ⟨_, kind, ?_, outcome, rfl, rfl⟩
    rw [read?_slash text notLine notBlock, Token.reading, if_pos slash]
    exact congrArg some (readSlash_reading outcome)
  · exact next_of_not_slash read slash _

end Scanner

namespace TokenList

variable {start middle stop origin : Scanner} {entries others : List ScannedToken}
  {entry : ScannedToken} {list : TokenList}

-----------------------------------------------------------------------------------------
-- Runs over a source
-----------------------------------------------------------------------------------------

/-- Tokens that are read one after another between two scanners, each kept with the scanner in
front of it and read as its kind tells. -/
inductive Chain : Scanner → List ScannedToken → Scanner → Prop
  | nil {start : Scanner} : Chain start [] start
  | cons {start next stop : Scanner} {token : Token} {rest : List ScannedToken}
      (read : start.next token.reading = (.ok (some token), next)) (chain : Chain next rest stop)
      : Chain start (⟨token, start⟩ :: rest) stop

/-- Reading stops at a scanner: at the end of the source, or at a fault. -/
inductive StopsAt (stop : Scanner) : Option SyntaxError → Prop
  | ended (silent : ∀ reading, (stop.next reading).1 = .ok none) : StopsAt stop none
  | failed {fault : SyntaxError} (reading : SlashReading)
      (fails : (stop.next reading).1 = .error fault) : StopsAt stop (some fault)

/-- A list holds the tokens from a scanner on, up to where reading stops. -/
def RunsFrom (origin : Scanner) (list : TokenList) : Prop :=
  ∃ stop, Chain origin list.entries stop ∧ StopsAt stop list.fault

namespace Chain

theorem append (first : Chain start entries middle) (second : Chain middle others stop)
    : Chain start (entries ++ others) stop := by
  induction first with
  | nil => exact second
  | cons read _ ih => exact .cons read (ih second)

/-- The tokens before one of a chain lead to the scanner in front of it, which reads it. -/
theorem before (chain : Chain start entries stop) {index : Nat}
    (here : entries[index]? = some entry)
    : Chain start (entries.take index) entry.scanner
      ∧ ∃ after, entry.scanner.next entry.token.reading = (.ok (some entry.token), after) := by
  induction chain generalizing index with
  | nil => cases here
  | cons read chain ih =>
      cases index with
      | zero =>
          obtain rfl := Option.some.inj here
          exact ⟨.nil, _, read⟩
      | succ index =>
          obtain ⟨leads, reads⟩ := ih here
          exact ⟨.cons read leads, reads⟩

/-- The tokens of a chain are a trail. -/
theorem trail (chain : Chain start entries stop)
    : Trail start (entries.map ScannedToken.token) stop := by
  induction chain with
  | nil => exact .nil
  | cons read _ ih => exact .cons read ih

/-- A scanner that is told of each slash how to read it reads the tokens of a chain. -/
theorem readAll? (chain : Chain start entries stop)
    : start.readAll? ((entries.map ScannedToken.token).map Token.reading)
      = some (entries.map ScannedToken.token, stop) := by
  induction chain with
  | nil => rfl
  | cons read _ ih => simp only [List.map_cons, Scanner.readAll?, read, ih, Option.map_some]

end Chain

/-- What is read from a scanner on is a run, whatever the first slash is taken for. -/
theorem scan_runsFrom (scanner : Scanner) (reading : SlashReading)
    : RunsFrom scanner (scan scanner reading) := by
  generalize measured : scanner.rest.length = length
  induction length using Nat.strong_induction_on generalizing scanner reading with
  | _ length ih =>
      cases read : scanner.next reading with
      | mk result after =>
          cases result with
          | error fault =>
              have single : scan scanner reading = ⟨[], some fault⟩ := by
                simp [scan, scanUpTo, read]
              rw [single]
              exact ⟨scanner, .nil, .failed reading (by rw [read])⟩
          | ok found =>
              cases found with
              | none =>
                  have empty : scan scanner reading = ⟨[], none⟩ := by
                    simp [scan, scanUpTo, read]
                  have ended := Scanner.next_eq_none.mp (congrArg Prod.fst read)
                  rw [empty]
                  exact ⟨scanner, .nil, .ended fun _ => Scanner.next_eq_none.mpr ended⟩
              | some token =>
                  have shorter := Scanner.rest_length_of_next read
                  obtain ⟨entries, fault⟩ := scan_of_next read
                  obtain ⟨stop, chain, stops⟩ := ih _ (measured ▸ shorter) after .guessed rfl
                  refine ⟨stop, ?_, by rwa [fault]⟩
                  rw [entries]
                  exact .cons (Scanner.next_reading read) chain

/-- Behind a token that was read by guess, all others were too. -/
theorem scan_drop {scanner : Scanner} {index : Nat}
    (here : (scan scanner .guessed).entries[index]? = some entry)
    : (scan entry.scanner .guessed).entries = (scan scanner .guessed).entries.drop index
      ∧ (scan entry.scanner .guessed).fault = (scan scanner .guessed).fault := by
  induction index generalizing scanner with
  | zero =>
      obtain ⟨rest, listed⟩ := List.head?_eq_some_iff.mp (List.head?_eq_getElem? ▸ here)
      obtain ⟨-, -, same, -⟩ := next_of_scan listed
      rw [same, List.drop_zero]
      exact ⟨rfl, rfl⟩
  | succ index ih =>
      cases listed : (scan scanner .guessed).entries with
      | nil =>
          rw [listed] at here
          cases here
      | cons first rest =>
          obtain ⟨after, -, -, rfl, fault⟩ := next_of_scan listed
          rw [listed, List.getElem?_cons_succ] at here
          obtain ⟨entries, stillFault⟩ := ih here
          exact ⟨entries, stillFault.trans fault.symm⟩

-----------------------------------------------------------------------------------------
-- Slashes that are read again
-----------------------------------------------------------------------------------------

/-- Whether a token is one to read again, and the list after it was. -/
def rereadAt (list : TokenList) (index : Nat) (reading : SlashReading) : Bool × TokenList :=
  match list.reread? index reading with
  | some again => (true, again)
  | none => (false, list)

/-- A list after tokens at some indices were read again, one after another. -/
def rereadAll (list : TokenList) (calls : List (Nat × SlashReading)) : TokenList :=
  calls.foldl (fun list call => (list.rereadAt call.1 call.2).2) list

/-- A token is read again if it begins with a slash, and otherwise the list stays as it is. -/
theorem rereadAt_cases (list : TokenList) (index : Nat) (reading : SlashReading)
    : (∃ entry, list.entries[index]? = some entry ∧ entry.token.startsWithSlash
        ∧ list.rereadAt index reading = (true, { scan entry.scanner reading with
            entries := list.entries.take index ++ (scan entry.scanner reading).entries }))
      ∨ ((∀ entry, list.entries[index]? = some entry → ¬entry.token.startsWithSlash)
        ∧ list.rereadAt index reading = (false, list)) := by
  simp only [rereadAt, reread?]
  cases here : list.entries[index]? with
  | none => exact .inr ⟨by simp, rfl⟩
  | some entry =>
      by_cases slash : entry.token.startsWithSlash
      · exact .inl ⟨entry, rfl, slash, by simp [slash]⟩
      · exact .inr ⟨by simpa using slash, by simp [slash]⟩

/-- Reading a slash again leaves a run over the source. -/
theorem RunsFrom.rereadAt (runs : RunsFrom origin list) (index : Nat) (reading : SlashReading)
    : RunsFrom origin (list.rereadAt index reading).2 := by
  rcases list.rereadAt_cases index reading with ⟨entry, here, slash, again⟩ | ⟨-, same⟩
  · obtain ⟨stop, chain, stops⟩ := runs
    obtain ⟨stop', others, stops'⟩ := scan_runsFrom entry.scanner reading
    rw [again]
    exact ⟨stop', (chain.before here).1.append others, stops'⟩
  · rwa [same]

/-- Whatever slashes are read again, the list is a run over the source. -/
theorem RunsFrom.rereadAll (runs : RunsFrom origin list) (calls : List (Nat × SlashReading))
    : RunsFrom origin (list.rereadAll calls) := by
  induction calls generalizing list with
  | nil => exact runs
  | cons call calls ih => exact ih (runs.rereadAt call.1 call.2)

/-- What was read before a token stays when that token is read again. -/
theorem take_rereadAt (list : TokenList) (index : Nat) (reading : SlashReading)
    : (list.rereadAt index reading).2.entries.take index = list.entries.take index := by
  rcases list.rereadAt_cases index reading with ⟨entry, here, -, again⟩ | ⟨-, same⟩
  · obtain ⟨inside, -⟩ := List.getElem?_eq_some_iff.mp here
    have full : (list.entries.take index).length = index := by
      rw [List.length_take]
      omega
    rw [again, List.take_append_of_le_length full.ge, List.take_take, Nat.min_self]
  · rw [same]

/-- Of two readings of one slash only the last matters, if the first left a token there. -/
theorem RunsFrom.rereadAt_rereadAt (runs : RunsFrom origin list) {index : Nat}
    (first second : SlashReading)
    (left : index < (list.rereadAt index first).2.entries.length)
    : (list.rereadAt index first).2.rereadAt index second = list.rereadAt index second := by
  rcases list.rereadAt_cases index first with ⟨entry, here, slash, again⟩ | ⟨-, same⟩
  · obtain ⟨stop, chain, -⟩ := runs
    obtain ⟨-, after, read⟩ := chain.before here
    obtain ⟨inside, -⟩ := List.getElem?_eq_some_iff.mp here
    have full : (list.entries.take index).length = index := by
      rw [List.length_take]
      omega
    rw [again] at left ⊢
    -- The token that is there now was read from the same scanner, and begins with a slash too.
    cases listed : (scan entry.scanner first).entries with
    | nil =>
        rw [listed, List.append_nil, full] at left
        omega
    | cons found rest =>
        obtain ⟨_, reread, scanner, -⟩ := next_of_scan listed
        have slashed := Scanner.next_slash read slash reread
        have there : (list.entries.take index ++ found :: rest)[index]? = some found := by
          rw [List.getElem?_append_right full.le, full, Nat.sub_self, List.getElem?_cons_zero]
        have front : (list.entries.take index ++ found :: rest).take index
            = list.entries.take index := by
          rw [List.take_append_of_le_length full.ge, List.take_take, Nat.min_self]
        simp only [TokenList.rereadAt, reread?, here, there, slash, slashed, scanner, front, if_true]
  · rw [same]

/-- A list that was read by guess stays as it is when a guess is repeated. -/
theorem rereadAt_guessed (scanner : Scanner) (index : Nat)
    : ((scan scanner .guessed).rereadAt index .guessed).2 = scan scanner .guessed := by
  rcases (scan scanner .guessed).rereadAt_cases index .guessed with ⟨entry, here, -, again⟩ | ⟨-, same⟩
  · obtain ⟨entries, fault⟩ := scan_drop here
    rw [again]
    simp only [entries, fault, List.take_append_drop]
  · rw [same]

-----------------------------------------------------------------------------------------
-- One run
-----------------------------------------------------------------------------------------

/-- What holds of the tokens of a source, however their slashes were read again before. -/
structure OneRun (origin : Scanner) (list : TokenList) : Prop where
  /-- Only a token that begins with a slash is read again. -/
  again
    : ∀ index reading, (list.rereadAt index reading).1
        ↔ ∃ token, list.tokens[index]? = some token ∧ token.startsWithSlash
  /-- Where no token is read again, nothing changes. -/
  same
    : ∀ index reading, (list.rereadAt index reading).1 = false →
        (list.rereadAt index reading).2 = list
  /-- Nothing changes before the token that is read again. -/
  before
    : ∀ index reading,
        (list.rereadAt index reading).2.entries.take index = list.entries.take index
  /-- A scanner that reads regular expressions where the list has them, and divisions where the
  list has them, finds all tokens of the list, and then the end of the source or the fault. -/
  run
    : ∃ stop, origin.readAll? (list.tokens.map Token.reading) = some (list.tokens, stop)
        ∧ StopsAt stop list.fault
  /-- Of two readings of one slash only the last matters, if the first left a token there. -/
  last
    : ∀ index first second, index < (list.rereadAt index first).2.entries.length →
        (list.rereadAt index first).2.rereadAt index second = list.rereadAt index second

/-- A list that holds the tokens from a scanner on holds those of one run. -/
theorem RunsFrom.oneRun (runs : RunsFrom origin list)
    : OneRun origin list where
  again := by
    intro index reading
    simp only [tokens, List.getElem?_map, Option.map_eq_some_iff]
    rcases list.rereadAt_cases index reading with ⟨entry, here, slash, again⟩ | ⟨none, same⟩
    · rw [again]
      exact ⟨fun _ => ⟨_, ⟨entry, here, rfl⟩, slash⟩, fun _ => rfl⟩
    · rw [same]
      constructor
      · intro unread
        cases unread
      · rintro ⟨_, ⟨entry, here, rfl⟩, slash⟩
        exact absurd slash (none entry here)
  same := by
    intro index reading unread
    rcases list.rereadAt_cases index reading with ⟨entry, -, -, again⟩ | ⟨-, same⟩
    · rw [again] at unread
      cases unread
    · rw [same]
  before := list.take_rereadAt
  run := by
    obtain ⟨stop, chain, stops⟩ := runs
    exact ⟨stop, chain.readAll?, stops⟩
  last _ first second left := runs.rereadAt_rereadAt first second left

end TokenList

end ScriptStyle
