import ScriptStyle.Proofs.Grammar.Runs
import ScriptStyle.Proofs.Scanner.Trail

/-!
Cursors that stand in a source: the tokens behind were read one after another from its start,
and those ahead are what is read from there on. Every move of a parser keeps a cursor in place
in this sense and only adds to the tokens behind it.
-/

namespace ScriptStyle

-----------------------------------------------------------------------------------------
-- Token lists
-----------------------------------------------------------------------------------------

namespace TokenList

variable {scanner after : Scanner} {reading : SlashReading} {token : Token}

/-- More fuel than characters changes nothing. -/
theorem scanUpTo_eq_scan {count : Nat} (enough : scanner.rest.length < count)
    : scanUpTo count scanner reading = scan scanner reading := by
  suffices agree : ∀ first second scanner reading, scanner.rest.length < first
      → scanner.rest.length < second
      → scanUpTo first scanner reading = scanUpTo second scanner reading from
    agree _ _ _ _ enough (Nat.lt_succ_self _)
  intro first
  induction first with
  | zero => intro _ _ _ below; omega
  | succ first ih =>
      intro second scanner reading below below'
      obtain ⟨second, rfl⟩ : ∃ fewer, second = fewer + 1 := ⟨second - 1, by omega⟩
      simp only [scanUpTo]
      cases read : scanner.next reading with
      | mk result after =>
          cases result with
          | error fault => rfl
          | ok found =>
              cases found with
              | none => rfl
              | some token =>
                  have shorter := Scanner.rest_length_of_next read
                  simp only [ih second after .guessed (by omega) (by omega)]

/-- The first token of a list and the tokens after it. -/
theorem scan_of_next (read : scanner.next reading = (.ok (some token), after))
    : (scan scanner reading).entries = ⟨token, scanner⟩ :: (scan after .guessed).entries
      ∧ (scan scanner reading).fault = (scan after .guessed).fault := by
  have shorter := Scanner.rest_length_of_next read
  rw [scan, scanUpTo, read]
  simp only [scanUpTo_eq_scan shorter, and_self]

/-- A list that is not empty begins with a token that is read at its start. -/
theorem next_of_scan {entry : ScannedToken} {others : List ScannedToken}
    (listed : (scan scanner reading).entries = entry :: others)
    : ∃ after, scanner.next reading = (.ok (some entry.token), after) ∧ entry.scanner = scanner
        ∧ others = (scan after .guessed).entries
        ∧ (scan scanner reading).fault = (scan after .guessed).fault := by
  cases read : scanner.next reading with
  | mk result after =>
      cases result with
      | error fault => simp [scan, scanUpTo, read] at listed
      | ok found =>
          cases found with
          | none => simp [scan, scanUpTo, read] at listed
          | some token =>
              obtain ⟨entries, fault⟩ := scan_of_next read
              rw [entries] at listed
              obtain ⟨rfl, rfl⟩ := List.cons.inj listed
              exact ⟨after, rfl, rfl, rfl, fault⟩

end TokenList

-----------------------------------------------------------------------------------------
-- Cursors in a source
-----------------------------------------------------------------------------------------

namespace Grammar

/-- The index and the end of the last significant token of a list, zero if there is none. -/
def LastSignificant (tokens : List Token) (index stop : Nat) : Prop :=
  (index = 0 ∧ stop = 0 ∧ ∀ token ∈ tokens, token.isSignificant = false)
    ∨ ∃ before token after, tokens = before ++ token :: after ∧ token.isSignificant
        ∧ (∀ comment ∈ after, comment.isSignificant = false)
        ∧ index = before.length ∧ stop = token.span.stop

/-- A comment at the end of a list does not change which significant token is the last. -/
theorem LastSignificant.comment {tokens : List Token} {index stop : Nat} {comment : Token}
    (last : LastSignificant tokens index stop) (isComment : comment.isSignificant = false)
    : LastSignificant (tokens ++ [comment]) index stop := by
  rcases last with ⟨first, zero, none⟩ | ⟨before, token, after, rfl, found, comments, place⟩
  · refine .inl ⟨first, zero, fun token member => ?_⟩
    rcases List.mem_append.mp member with old | new
    · exact none token old
    · rwa [List.mem_singleton.mp new]
  · refine .inr ⟨before, token, after ++ [comment], by simp, found, fun other member => ?_, place⟩
    rcases List.mem_append.mp member with old | new
    · exact comments other old
    · rwa [List.mem_singleton.mp new]

namespace Cursor

theorem peek?_eq_some {c : Cursor} {token : Token}
    : c.peek? = some token ↔ ∃ scanner rest, c.ahead = ⟨token, scanner⟩ :: rest := by
  cases text : c.ahead with
  | nil => simp [peek?, text]
  | cons entry rest =>
      obtain ⟨found, scanner⟩ := entry
      simp [peek?, text]

/-- A cursor stands in the source that begins at a scanner, save that comments may be in front
of it. -/
structure Placed (origin : Scanner) (c : Cursor) : Prop where
  trail
    : ∃ scanner reading, Trail origin c.behind.toList scanner
        ∧ c.ahead = (TokenList.scan scanner reading).entries
        ∧ c.fault = (TokenList.scan scanner reading).fault
  length : c.sourceLength = origin.offset + Text.byteLength origin.rest
  last : LastSignificant c.behind.toList c.lastIndex c.lastStop

/-- A cursor stands in the source that begins at a scanner, in front of a significant token or
at the end of what can be read. -/
structure Sound (origin : Scanner) (c : Cursor) : Prop extends Placed origin c where
  significant : ∀ token, c.peek? = some token → token.isSignificant

variable {origin : Scanner} {c : Cursor}

/-- A cursor behind the next token, comments and all. -/
def step (c : Cursor) (entry : ScannedToken) (rest : List ScannedToken) : Cursor :=
  { c with behind := c.behind.push entry.token, ahead := rest }

theorem skipComments_nil (ended : c.ahead = [])
    : c.skipComments = c := by
  cases c
  simp_all [skipComments]

theorem skipComments_cons {entry : ScannedToken} {rest : List ScannedToken}
    (text : c.ahead = entry :: rest)
    : c.skipComments
      = if entry.token.kind.isComment then (c.step entry rest).skipComments else c := by
  cases c
  simp only at text
  subst text
  cases comment : entry.token.kind.isComment with
  | true => simp [skipComments, step, comment]
  | false => simp [skipComments, comment]

/-- Moving comments behind a cursor leaves it in place. -/
theorem Placed.skipComments (placed : c.Placed origin)
    : c.skipComments.Sound origin ∧ c.behind.toList <+: c.skipComments.behind.toList := by
  generalize measured : c.ahead = ahead
  induction ahead generalizing c with
  | nil =>
      rw [skipComments_nil measured]
      exact ⟨⟨placed, by simp [peek?, measured]⟩, List.prefix_rfl⟩
  | cons entry rest ih =>
      rw [skipComments_cons measured]
      by_cases comment : entry.token.kind.isComment = true
      · rw [if_pos comment]
        obtain ⟨scanner, reading, trail, entries, fault⟩ := placed.trail
        obtain ⟨after, read, -, others, stillFault⟩ :=
          TokenList.next_of_scan (entries.symm.trans measured)
        have stepped : (c.step entry rest).Placed origin := by
          refine ⟨⟨after, .guessed, ?_, others, fault.trans stillFault⟩, placed.length, ?_⟩
          · rw [step, Array.toList_push]
            exact trail.append (.cons read .nil)
          · rw [step, Array.toList_push]
            exact placed.last.comment (by rw [Token.isSignificant, comment]; rfl)
        obtain ⟨sound, grows⟩ := ih stepped rfl
        refine ⟨sound, List.IsPrefix.trans ?_ grows⟩
        rw [step, Array.toList_push]
        exact List.prefix_append ..
      · rw [if_neg comment]
        refine ⟨⟨placed, ?_⟩, List.prefix_rfl⟩
        intro token here
        simp only [peek?, measured, List.head?_cons, Option.map_some, Option.some.injEq] at here
        simpa [← here, Token.isSignificant] using comment

@[simp] theorem skipComments_lastIndex : c.skipComments.lastIndex = c.lastIndex := rfl

@[simp] theorem skipComments_lastStop : c.skipComments.lastStop = c.lastStop := rfl

@[simp] theorem skipComments_arrowEnds : c.skipComments.arrowEnds = c.arrowEnds := rfl

/-- A significant token at a cursor is the first of those that can be looked at. -/
theorem peekAt?_zero {token : Token} (here : c.peek? = some token) (significant : token.isSignificant)
    : c.peekAt? 0 = some token := by
  obtain ⟨scanner, rest, text⟩ := peek?_eq_some.mp here
  simp [peekAt?, Grammar.significant, text, significant]

/-- The current token is what is read where the tokens behind it end. -/
theorem Placed.head {token : Token} (placed : c.Placed origin) (here : c.peek? = some token)
    : ∃ scanner reading after, Trail origin c.behind.toList scanner
        ∧ scanner.next reading = (.ok (some token), after)
        ∧ c.ahead = ⟨token, scanner⟩ :: (TokenList.scan after .guessed).entries
        ∧ c.fault = (TokenList.scan after .guessed).fault := by
  obtain ⟨found, rest, text⟩ := peek?_eq_some.mp here
  obtain ⟨scanner, reading, trail, entries, fault⟩ := placed.trail
  obtain ⟨after, read, same, others, stillFault⟩ :=
    TokenList.next_of_scan (entries.symm.trans text)
  obtain rfl : found = scanner := same
  exact ⟨found, reading, after, trail, read, by rw [text, others], fault.trans stillFault⟩

theorem advance_cons {entry : ScannedToken} {rest : List ScannedToken}
    (text : c.ahead = entry :: rest)
    : c.advance
      = { c.step entry rest with
          lastIndex := c.behind.size
          lastStop := entry.token.span.stop }.skipComments := by
  simp only [advance, text, step]

/-- Moving past a token keeps a cursor in place and puts that token behind it. -/
theorem Sound.advance {token : Token} (sound : c.Sound origin) (here : c.peek? = some token)
    : c.advance.Sound origin ∧ c.behind.toList ++ [token] <+: c.advance.behind.toList := by
  obtain ⟨scanner, reading, after, trail, read, text, fault⟩ := sound.head here
  rw [advance_cons text]
  have moved
      : { c.step ⟨token, scanner⟩ (TokenList.scan after .guessed).entries with
          lastIndex := c.behind.size
          lastStop := token.span.stop }.Placed origin := by
    refine ⟨⟨after, .guessed, ?_, rfl, fault⟩, sound.length, ?_⟩
    · simp only [step, Array.toList_push]
      exact trail.append (.cons read .nil)
    · refine .inr ⟨c.behind.toList, token, [], ?_, sound.significant token here, by simp, ?_, rfl⟩
      · simp only [step, Array.toList_push]
      · simp
  obtain ⟨placed, grows⟩ := moved.skipComments
  refine ⟨placed, ?_⟩
  simpa only [step, Array.toList_push] using grows

@[simp] theorem advance_lastIndex {token : Token} (here : c.peek? = some token)
    : c.advance.lastIndex = c.index := by
  obtain ⟨found, rest, text⟩ := peek?_eq_some.mp here
  rw [advance_cons text]
  rfl

@[simp] theorem advance_lastStop {token : Token} (here : c.peek? = some token)
    : c.advance.lastStop = token.span.stop := by
  obtain ⟨found, rest, text⟩ := peek?_eq_some.mp here
  rw [advance_cons text]
  rfl

theorem advance_of_none (ended : c.peek? = none)
    : c.advance = c := by
  have empty : c.ahead = [] := by simpa [peek?] using ended
  simp only [advance, empty]

/-- The significant token behind the current one is current once that is moved past. -/
theorem peekAt?_one {token : Token} (here : c.peek? = some token) (significant : token.isSignificant)
    : c.peekAt? 1 = c.advance.peek? := by
  obtain ⟨scanner, rest, text⟩ := peek?_eq_some.mp here
  rw [advance_cons text]
  simp only [peekAt?, Grammar.significant, text, List.map_cons, List.filter_cons_of_pos significant,
    List.getElem?_cons_succ, peek?, skipComments, step]
  clear text
  induction rest with
  | nil => rfl
  | cons entry others ih =>
      cases isComment : entry.token.kind.isComment
        <;> simp [Token.isSignificant, isComment, ih]

theorem reread_of_not_slash {reading : SlashReading}
    (other : ∀ token, c.peek? = some token → ¬token.startsWithSlash)
    : c.reread reading = c := by
  cases text : c.ahead with
  | nil => simp only [Cursor.reread, text]
  | cons entry rest =>
      have here : c.peek? = some entry.token := by simp [peek?, text]
      simp only [Cursor.reread, text, if_neg (other _ here)]

/-- A token that begins with a slash is read again from the scanner in front of it. -/
theorem Placed.reread_slash {token : Token} (placed : c.Placed origin)
    (here : c.peek? = some token) (slash : token.startsWithSlash) (reading : SlashReading)
    : ∃ scanner guess after, Trail origin c.behind.toList scanner
        ∧ scanner.next guess = (.ok (some token), after)
        ∧ c.reread reading
          = { c with
              ahead := (TokenList.scan scanner reading).entries
              fault := (TokenList.scan scanner reading).fault } := by
  obtain ⟨scanner, guess, after, trail, read, text, -⟩ := placed.head here
  exact ⟨scanner, guess, after, trail, read, by simp only [Cursor.reread, text, if_pos slash]⟩

/-- Reading the current token again keeps a cursor in place. -/
theorem Sound.reread {reading : SlashReading} (sound : c.Sound origin)
    : (c.reread reading).Sound origin := by
  by_cases slash : ∃ token, c.peek? = some token ∧ token.startsWithSlash
  · obtain ⟨token, here, slash⟩ := slash
    obtain ⟨scanner, guess, after, trail, read, again⟩ := sound.reread_slash here slash reading
    rw [again]
    refine ⟨⟨⟨scanner, reading, trail, rfl, rfl⟩, sound.length, sound.last⟩, ?_⟩
    intro token here
    obtain ⟨found, others, listed⟩ := peek?_eq_some.mp here
    obtain ⟨_, reread, -⟩ := TokenList.next_of_scan listed
    obtain ⟨tail, slashed, notLine, notBlock⟩ := Scanner.slash_of_next read slash
    exact Scanner.significant_of_slash reread slashed notLine notBlock
  · rw [reread_of_not_slash fun token here slashed => slash ⟨token, here, slashed⟩]
    exact sound

@[simp] theorem reread_lastStop (reading : SlashReading)
    : (c.reread reading).lastStop = c.lastStop := by
  simp only [Cursor.reread]
  split
  · rfl
  · split <;> rfl

/-- A token that is read again begins where it did before. -/
theorem Sound.reread_start {token again : Token} {reading : SlashReading} (sound : c.Sound origin)
    (here : c.peek? = some token) (there : (c.reread reading).peek? = some again)
    : again.span.start = token.span.start := by
  by_cases slash : token.startsWithSlash
  · obtain ⟨scanner, guess, after, trail, read, equal⟩ := sound.reread_slash here slash reading
    rw [equal] at there
    obtain ⟨found, others, listed⟩ := peek?_eq_some.mp there
    obtain ⟨_, reread, -⟩ := TokenList.next_of_scan listed
    rw [Scanner.start_of_next read, Scanner.start_of_next reread]
  · rw [reread_of_not_slash fun found equal => by rwa [← Option.some.inj (here.symm.trans equal)],
      here] at there
    rw [Option.some.inj there]

end Cursor

end Grammar

end ScriptStyle
