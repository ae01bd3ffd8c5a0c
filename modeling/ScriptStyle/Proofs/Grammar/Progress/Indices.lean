import Mathlib.Logic.Relation
import ScriptStyle.Proofs.Grammar.Coverage.Source
import ScriptStyle.Proofs.Grammar.Layout.Basic
import ScriptStyle.Proofs.Scanner.Rereading

/-!
The indices of the significant tokens, kept in a list of their own. When a slash is read again
both that list and the tokens are cut off at the slash and continued; they stay in step with each
other and with a cursor that is changed in the same way.
-/

namespace ScriptStyle

-----------------------------------------------------------------------------------------
-- Significant tokens
-----------------------------------------------------------------------------------------

section Significant

variable {tokens others front rest : List Token} {token : Token} {first stop : Nat}

/-- Which tokens are significant up to an index depends on the tokens up to there. -/
theorem significantIndices_congr
    (same : ∀ index, first ≤ index → index < stop → tokens[index]? = others[index]?)
    : significantIndices tokens first stop = significantIndices others first stop := by
  refine List.filter_congr fun index member => ?_
  have inside := List.mem_range'_1.mp member
  rw [same index (by omega) (by omega)]

theorem significantIndices_singleton (here : tokens[first]? = some token)
    (significant : token.isSignificant)
    : significantIndices tokens first (first + 1) = [first] := by
  simp [significantIndices, here, significant]

/-- The significant token at an index comes first among those from there on. -/
theorem significantIndices_cons (here : tokens[first]? = some token) (significant : token.isSignificant)
    : significantIndices tokens first tokens.length
      = first :: significantIndices tokens (first + 1) tokens.length := by
  obtain ⟨inside, -⟩ := List.getElem?_eq_some_iff.mp here
  rw [← significantIndices_append (Nat.le_succ first) inside,
    significantIndices_singleton here significant, List.singleton_append]

theorem isSignificant_of_isComment (comment : token.kind.isComment)
    : token.isSignificant = false := by
  rw [Token.isSignificant, comment]
  rfl

/-- There are no significant tokens among comments. -/
theorem significantIndices_comments (front comments rest : List Token)
    (silent : ∀ comment ∈ comments, comment.isSignificant = false)
    : significantIndices (front ++ (comments ++ rest)) front.length (front.length + comments.length)
      = [] := by
  refine significantIndices_eq_nil fun index above below found => ?_
  rw [List.getElem?_append_right above, List.getElem?_append_left (by omega)] at found
  obtain ⟨comment, there, significant⟩ := Option.any_eq_true .. |>.mp found
  rw [silent comment (List.mem_of_getElem? there)] at significant
  cases significant

/-- The tokens at the indices of the significant ones are the significant ones. -/
theorem map_significantIndices (front rest : List Token)
    : (significantIndices (front ++ rest) front.length (front ++ rest).length).map
        ((front ++ rest)[·]?)
      = (rest.filter Token.isSignificant).map some := by
  induction rest generalizing front with
  | nil => simp [significantIndices]
  | cons token rest ih =>
      have later := ih (front ++ [token])
      simp only [List.append_assoc, List.singleton_append, List.length_append,
        List.length_singleton] at later
      have here : (front ++ token :: rest)[front.length]? = some token := by simp
      cases significant : token.isSignificant with
      | true =>
          rw [significantIndices_cons here significant, List.map_cons, here, List.length_append,
            later, List.filter_cons_of_pos significant, List.map_cons]
      | false =>
          have none : significantIndices (front ++ token :: rest) front.length (front.length + 1)
              = [] := by
            simp [significantIndices, significant]
          rw [← significantIndices_append (Nat.le_succ front.length) (by simp), none,
            List.nil_append, List.length_append, later, List.filter_cons_of_neg (by simp [significant])]

end Significant

/-- Every token takes at least one byte. -/
theorem TokenList.length_scan_le (scanner : Scanner) (reading : SlashReading)
    : (scan scanner reading).entries.length ≤ Text.byteLength scanner.rest := by
  generalize size : scanner.rest.length = length
  induction length using Nat.strongRecOn generalizing scanner reading with
  | ind length ih =>
      cases listed : (scan scanner reading).entries with
      | nil => exact Nat.zero_le _
      | cons entry others =>
          obtain ⟨after, read, -, rfl, -⟩ := next_of_scan listed
          obtain ⟨gap, -, text, nonempty, -⟩ := Scanner.next_splits read
          have positive := Text.byteLength_pos nonempty
          have fewer := ih _ (size ▸ Scanner.rest_length_of_next read) after .guessed rfl
          rw [List.length_cons, text, Text.byteLength_append, Text.byteLength_append]
          omega

namespace Grammar

variable {origin : Scanner} {source : String} {c m c' : Cursor}

-----------------------------------------------------------------------------------------
-- Changes of a cursor
-----------------------------------------------------------------------------------------

namespace Cursor

/-- One change of a cursor. -/
inductive Change : Cursor → Cursor → Prop
  | advance (c : Cursor) : Change c c.advance
  | reread (c : Cursor) (reading : SlashReading) : Change c (c.reread reading)
  | markArrowEnd (c : Cursor)
    : Change c { c with arrowEnds := c.lastIndex :: c.arrowEnds }

/-- A cursor becomes another by changes, one after another. -/
abbrev Leads : Cursor → Cursor → Prop :=
  Relation.ReflTransGen Change

/-- Each change moves a cursor on. -/
theorem Change.moves (change : Change c c') (sound : c.Sound origin)
    : Moves origin c c' := by
  cases change with
  | advance => exact .advance sound
  | reread reading => exact (sound.reread_held reading).moves
  | markArrowEnd => exact sound.markArrowEnd_held.moves

/-- Any changes move a cursor on. -/
theorem Leads.moves (leads : Leads c c') (sound : c.Sound origin)
    : Moves origin c c' := by
  induction leads with
  | refl => exact .refl sound
  | tail _ change ih => exact ih.trans (change.moves ih.sound)

/-- The tokens that are moved past, and those still ahead. -/
theorem advance_entries {entry : ScannedToken} {others : List ScannedToken}
    (text : c.ahead = entry :: others)
    : ∃ comments, others = comments ++ c.advance.ahead
        ∧ c.advance.behind.toList
          = c.behind.toList ++ entry.token :: comments.map ScannedToken.token
        ∧ ∀ comment ∈ comments, comment.token.isSignificant = false := by
  refine ⟨others.takeWhile (·.token.kind.isComment), ?_, ?_, fun comment member => ?_⟩
  · rw [advance_cons text]
    exact (List.takeWhile_append_dropWhile ..).symm
  · rw [advance_cons text]
    simp [skipComments, step]
  · have isComment := List.mem_takeWhile_imp member
    simpa [Token.isSignificant] using isComment

end Cursor

-----------------------------------------------------------------------------------------
-- Indexed tokens
-----------------------------------------------------------------------------------------

/-- The tokens of a source, the indices of the significant ones in a list of their own, and the
place of the current token in that list. -/
structure IndexedTokens where
  list : TokenList
  significant : List Nat
  place : Nat
  /-- The length of the source in bytes. -/
  sourceLength : Nat

namespace IndexedTokens

/-- The indices of the significant tokens of a list from an index on. -/
def significantFrom (list : TokenList) (first : Nat) : List Nat :=
  significantIndices list.tokens first list.tokens.length

/-- Indexed tokens at the start of a source. -/
def ofSource (source : String) : IndexedTokens :=
  let list := TokenList.scan (.ofSource source) .guessed
  ⟨list, significantFrom list 0, 0, source.utf8ByteSize⟩

/-- The index of the current token, or the number of all tokens at the end. -/
def index (state : IndexedTokens) : Nat :=
  state.significant[state.place]?.getD state.list.tokens.length

/-- The significant token after a number of others, counted from the current one. -/
def peekAt? (state : IndexedTokens) (count : Nat) : Option Token :=
  state.significant[state.place + count]?.bind (state.list.tokens[·]?)

/-- The byte offset of the current token, or the length of the source at the end. -/
def offset (state : IndexedTokens) : Nat :=
  ((state.peekAt? 0).map (·.span.start)).getD state.sourceLength

/-- Moves past the current token. -/
def advance (state : IndexedTokens) : IndexedTokens :=
  { state with place := state.place + 1 }

/-- Reads the current token and all after it again, if it begins with a slash. The indices are cut
off at the current one and continued with those of the tokens that are read now. -/
def reread (state : IndexedTokens) (reading : SlashReading) : IndexedTokens :=
  match state.significant[state.place]? with
  | none => state
  | some index =>
      match state.list.rereadAt index reading with
      | (false, _) => state
      | (true, list) =>
          { state with
            list
            significant := state.significant.take state.place ++ significantFrom list index }

end IndexedTokens

/-- Indexed tokens and a cursor that are changed alike, from the start of a source on. -/
inductive Reached (source : String) : IndexedTokens → Cursor → Prop
  | start : Reached source (.ofSource source) (.ofSource source)
  | advance {state : IndexedTokens} {c : Cursor} (before : Reached source state c)
    : Reached source state.advance c.advance
  | reread {state : IndexedTokens} {c : Cursor} (reading : SlashReading)
      (before : Reached source state c) : Reached source (state.reread reading) (c.reread reading)
  | markArrowEnd {state : IndexedTokens} {c : Cursor} (before : Reached source state c)
    : Reached source state { c with arrowEnds := c.lastIndex :: c.arrowEnds }

/-- However a cursor was reached, changes of it reach another. -/
theorem Reached.leads {state : IndexedTokens} (reached : Reached source state c)
    (leads : c.Leads c')
    : ∃ state', Reached source state' c' := by
  induction leads with
  | refl => exact ⟨state, reached⟩
  | tail _ change ih =>
      obtain ⟨state', reached'⟩ := ih
      cases change with
      | advance => exact ⟨_, reached'.advance⟩
      | reread reading => exact ⟨_, reached'.reread reading⟩
      | markArrowEnd => exact ⟨_, reached'.markArrowEnd⟩

/-- Indexed tokens keep track of a cursor: the tokens are those behind and ahead of it, and the
indices of the significant ones among both are divided at the place of the current token. -/
structure IndexedTokens.Tracks (origin : Scanner) (state : IndexedTokens) (c : Cursor) : Prop where
  sound : c.Sound origin
  entries
    : ∃ front, state.list.entries = front ++ c.ahead
        ∧ front.map ScannedToken.token = c.behind.toList
  fault : state.list.fault = c.fault
  behind
    : state.significant.take state.place = significantIndices state.list.tokens 0 c.index
  ahead
    : state.significant.drop state.place
        = significantIndices state.list.tokens c.index state.list.tokens.length
  sourceLength : state.sourceLength = c.sourceLength

namespace IndexedTokens.Tracks

variable {state : IndexedTokens}

/-- The tokens are those behind the cursor and those ahead. -/
theorem tokens (tracks : state.Tracks origin c)
    : state.list.tokens = c.behind.toList ++ c.ahead.map ScannedToken.token := by
  obtain ⟨front, entries, behind⟩ := tracks.entries
  rw [TokenList.tokens, entries, List.map_append, behind]

theorem index_le (tracks : state.Tracks origin c)
    : c.index ≤ state.list.tokens.length := by
  simp [tracks.tokens, Cursor.index]

/-- The current token stands at the index of the cursor. -/
theorem getElem?_index {entry : ScannedToken} {others : List ScannedToken}
    (tracks : state.Tracks origin c) (text : c.ahead = entry :: others)
    : state.list.entries[c.index]? = some entry
      ∧ state.list.tokens[c.index]? = some entry.token := by
  obtain ⟨front, entries, behind⟩ := tracks.entries
  have size : front.length = c.index := by
    simpa [Cursor.index] using congrArg List.length behind
  have there : state.list.entries[c.index]? = some entry := by simp [entries, text, ← size]
  exact ⟨there, by simp [TokenList.tokens, there]⟩

theorem significant_of_ahead {entry : ScannedToken} {others : List ScannedToken}
    (tracks : state.Tracks origin c) (text : c.ahead = entry :: others)
    : entry.token.isSignificant :=
  tracks.sound.significant entry.token (by simp [Cursor.peek?, text])

/-- Where no token is ahead there are no indices from the place on. -/
theorem ahead_of_ended (tracks : state.Tracks origin c) (ended : c.ahead = [])
    : state.significant.drop state.place = [] := by
  have all : state.list.tokens.length = c.index := by simp [tracks.tokens, ended, Cursor.index]
  rw [tracks.ahead, all]
  simp [significantIndices]

/-- The index of the current token is the first from the place on. -/
theorem ahead_of_entry {entry : ScannedToken} {others : List ScannedToken}
    (tracks : state.Tracks origin c) (text : c.ahead = entry :: others)
    : state.significant.drop state.place
      = c.index :: significantIndices state.list.tokens (c.index + 1) state.list.tokens.length := by
  rw [tracks.ahead]
  exact significantIndices_cons (tracks.getElem?_index text).2 (tracks.significant_of_ahead text)

/-- At the start of a source only comments are behind. -/
theorem start
    : (IndexedTokens.ofSource source).Tracks (.ofSource source) (.ofSource source) := by
  let c := Cursor.ofSource source
  let list := TokenList.scan (.ofSource source) .guessed
  let comments := (list.entries.takeWhile (·.token.kind.isComment)).map ScannedToken.token
  let rest := (list.entries.dropWhile (·.token.kind.isComment)).map ScannedToken.token
  have behind : c.behind.toList = comments := by
    simp [c, comments, list, Cursor.ofSource, Cursor.ofTokens, Cursor.skipComments]
  have split : list.tokens = comments ++ rest := by
    rw [TokenList.tokens, ← List.map_append, List.takeWhile_append_dropWhile]
  have size : c.index = comments.length := by
    rw [← behind, Array.length_toList, Cursor.index]
  have within : c.index ≤ list.tokens.length := by
    rw [size, split, List.length_append]
    exact Nat.le_add_right ..
  have silent : significantIndices list.tokens 0 c.index = [] := by
    have none := significantIndices_comments [] comments rest fun comment member =>
      isSignificant_of_isComment (Cursor.isComment_of_behind (behind ▸ member))
    rwa [List.nil_append, List.length_nil, Nat.zero_add, ← split, ← size] at none
  have ahead
      : significantIndices list.tokens 0 list.tokens.length
        = significantIndices list.tokens c.index list.tokens.length := by
    rw [← significantIndices_append (Nat.zero_le _) within, silent, List.nil_append]
  exact ⟨Cursor.ofSource_sound source,
    ⟨_, (List.takeWhile_append_dropWhile ..).symm, behind.symm⟩, rfl, silent.symm, ahead, rfl⟩

/-- The place moves past one index when the cursor moves past a token and comments. -/
theorem advance (tracks : state.Tracks origin c)
    : state.advance.Tracks origin c.advance := by
  cases text : c.ahead with
  | nil =>
      have ended := tracks.ahead_of_ended text
      have stays : c.advance = c := Cursor.advance_of_none (by simp [Cursor.peek?, text])
      have beyond : state.significant.length ≤ state.place := List.drop_eq_nil_iff.mp ended
      rw [stays]
      refine ⟨tracks.sound, tracks.entries, tracks.fault, ?_, ?_, tracks.sourceLength⟩
      · change state.significant.take (state.place + 1) = _
        rw [List.take_of_length_le (Nat.le_succ_of_le beyond), ← List.take_of_length_le beyond]
        exact tracks.behind
      · change state.significant.drop (state.place + 1) = _
        rw [List.drop_eq_nil_iff.mpr (Nat.le_succ_of_le beyond), ← ended]
        exact tracks.ahead
  | cons entry others =>
      obtain ⟨comments, rest, behind, silent⟩ := Cursor.advance_entries text
      obtain ⟨front, entries, before⟩ := tracks.entries
      have ahead := tracks.ahead_of_entry text
      have here : c.peek? = some entry.token := by simp [Cursor.peek?, text]
      have size : c.advance.index = c.index + 1 + comments.length := by
        have length := congrArg List.length behind
        simp only [List.length_append, List.length_cons, List.length_map, Array.length_toList]
          at length
        simp only [Cursor.index]
        omega
      have between
          : significantIndices state.list.tokens (c.index + 1) c.advance.index = [] := by
        have silence := significantIndices_comments (c.behind.toList ++ [entry.token])
          (comments.map ScannedToken.token) (c.advance.ahead.map ScannedToken.token) (by simpa)
        rw [tracks.tokens, text, rest, size]
        simpa [Cursor.index] using silence
      have first := significantIndices_singleton (tracks.getElem?_index text).2
        (tracks.significant_of_ahead text)
      have whole : state.list.tokens.length
          = c.advance.index + (c.advance.ahead.map ScannedToken.token).length := by
        rw [tracks.tokens, text, rest, size]
        simp only [Cursor.index, List.map_cons, List.map_append, List.length_append,
          List.length_cons, List.length_map, Array.length_toList]
        omega
      refine ⟨(tracks.sound.advance here).1, ⟨front ++ entry :: comments, ?_, ?_⟩, ?_, ?_, ?_, ?_⟩
      · simp [entries, text, rest, IndexedTokens.advance]
      · simp [before, behind]
      · rw [Cursor.advance_cons text]
        exact tracks.fault
      · change state.significant.take (state.place + 1) = significantIndices state.list.tokens _ _
        have divided
            : significantIndices state.list.tokens 0 (c.index + 1) ++ []
              = significantIndices state.list.tokens 0 c.advance.index := by
          rw [← between, significantIndices_append (Nat.zero_le _) (by omega)]
        rw [List.take_add, tracks.behind, ahead, List.take_succ_cons, List.take_zero, ← first,
          significantIndices_append (Nat.zero_le _) (Nat.le_succ _), ← divided, List.append_nil]
      · change state.significant.drop (state.place + 1) = significantIndices state.list.tokens _ _
        rw [← List.drop_drop, ahead, List.drop_succ_cons, List.drop_zero,
          ← significantIndices_append (show c.index + 1 ≤ c.advance.index by omega) (by omega),
          between, List.nil_append]
        rfl
      · rw [Cursor.advance_cons text]
        exact tracks.sourceLength

/-- Where a slash is read again, the indices are cut off and continued as the tokens are. -/
theorem reread (tracks : state.Tracks origin c) (reading : SlashReading)
    : (state.reread reading).Tracks origin (c.reread reading) := by
  cases text : c.ahead with
  | nil =>
      have none : state.significant[state.place]? = none := by
        rw [← Nat.add_zero state.place, ← List.getElem?_drop, tracks.ahead_of_ended text]
        rfl
      simp only [IndexedTokens.reread, none, Cursor.reread, text]
      exact tracks
  | cons entry others =>
      have here : state.significant[state.place]? = some c.index := by
        rw [← Nat.add_zero state.place, ← List.getElem?_drop, tracks.ahead_of_entry text]
        rfl
      obtain ⟨there, -⟩ := tracks.getElem?_index text
      rcases state.list.rereadAt_cases c.index reading with
        ⟨entry', there', slash, again⟩ | ⟨other, again⟩
      · obtain rfl := Option.some.inj (there.symm.trans there')
        obtain ⟨front, entries, before⟩ := tracks.entries
        have size : front.length = c.index := by
          simpa [Cursor.index] using congrArg List.length before
        have kept : state.list.entries.take c.index = front := by simp [entries, ← size]
        obtain ⟨within, -⟩ := List.getElem?_eq_some_iff.mp here
        have place : (state.significant.take state.place).length = state.place :=
          List.length_take_of_le (Nat.le_of_lt within)
        have moved : (c.reread reading).Sound origin := tracks.sound.reread
        simp only [IndexedTokens.reread, here, again, Cursor.reread, text, if_pos slash, kept]
          at moved ⊢
        refine ⟨moved, ⟨front, rfl, before⟩, rfl, ?_, ?_, tracks.sourceLength⟩
        · rw [List.take_append_of_le_length place.ge, List.take_take, Nat.min_self, tracks.behind]
          refine significantIndices_congr fun index _ below => ?_
          have inside : index < (front.map ScannedToken.token).length := by
            rw [List.length_map, size]
            exact below
          simp only [TokenList.tokens, entries, List.map_append]
          rw [List.getElem?_append_left inside, List.getElem?_append_left inside]
        · rw [List.drop_left' place]
          rfl
      · simp only [IndexedTokens.reread, here, again, Cursor.reread, text,
          if_neg (other entry there)]
        exact tracks

end IndexedTokens.Tracks

/-- No more tokens are ahead than bytes. -/
theorem Cursor.Sound.length_ahead_le (sound : c.Sound origin)
    : c.ahead.length ≤ c.remaining := by
  cases here : c.peek? with
  | none =>
      have none : c.ahead = [] := by simpa [Cursor.peek?] using here
      simp [none]
  | some token =>
      obtain ⟨scanner, reading, after, trail, read, ahead, -⟩ := sound.head here
      obtain ⟨-, -, -, nonempty, -, stop, ends, -⟩ := Scanner.next_splits read
      have positive := Text.byteLength_pos nonempty
      have fewer := TokenList.length_scan_le after .guessed
      have reach := (trail.append (.cons read .nil)).offset_le.2
      have length := sound.length
      rw [ahead, List.length_cons, Cursor.remaining, Cursor.Sound.offset_eq here]
      omega

/-- What indexed tokens show of themselves is what a cursor shows. The indices of the significant
tokens are just those of all the tokens that are no comments. -/
structure IndexedTokens.Shows (state : IndexedTokens) (c : Cursor) : Prop where
  significant
    : state.significant = significantIndices state.list.tokens 0 state.list.tokens.length
  tokens : state.list.tokens = c.tokens.toList
  fault : state.list.fault = c.fault
  sourceLength : state.sourceLength = c.sourceLength
  index : state.index = c.index
  peekAt? (count : Nat) : state.peekAt? count = c.peekAt? count
  offset : state.offset = c.offset
  /-- However the tokens ahead were read, there are no more of them than bytes. -/
  ahead_le : state.list.tokens.length - state.index ≤ state.sourceLength - state.offset

theorem IndexedTokens.Tracks.shows {state : IndexedTokens} (tracks : state.Tracks origin c)
    : state.Shows c := by
  have tokens := tracks.tokens
  have size : c.behind.toList.length = c.index := by simp [Cursor.index]
  have index : state.index = c.index := by
    rw [IndexedTokens.index, ← Nat.add_zero state.place, ← List.getElem?_drop]
    cases text : c.ahead with
    | nil =>
        rw [tracks.ahead_of_ended text, tokens, text]
        simpa using size
    | cons entry others =>
        rw [tracks.ahead_of_entry text]
        rfl
  have peekAt? (count : Nat) : state.peekAt? count = c.peekAt? count := by
    have mapped := map_significantIndices c.behind.toList (c.ahead.map ScannedToken.token)
    rw [← tokens, size, ← tracks.ahead] at mapped
    have same := congrArg (·[count]?) mapped
    simp only [List.getElem?_map, List.getElem?_drop] at same
    rw [IndexedTokens.peekAt?, Cursor.peekAt?, Grammar.significant]
    generalize state.significant[state.place + count]? = found at same ⊢
    generalize ((c.ahead.map ScannedToken.token).filter Token.isSignificant)[count]? = found' at same ⊢
    cases found <;> cases found' <;> simp_all
  have offset : state.offset = c.offset := by
    rw [IndexedTokens.offset, peekAt?, Cursor.offset, tracks.sourceLength]
    cases here : c.peek? with
    | some token => rw [Cursor.peekAt?_zero here (tracks.sound.significant token here)]; rfl
    | none =>
        have none : c.ahead = [] := by simpa [Cursor.peek?] using here
        simp [Cursor.peekAt?, Grammar.significant, none]
  refine ⟨?_, ?_, tracks.fault, tracks.sourceLength, index, peekAt?, offset, ?_⟩
  · rw [← significantIndices_append (Nat.zero_le _) tracks.index_le, ← tracks.behind, ← tracks.ahead,
      List.take_append_drop]
  · simp [tokens, Cursor.tokens]
  · have fewer := tracks.sound.length_ahead_le
    rw [index, offset, tracks.sourceLength, tokens, List.length_append, size, List.length_map,
      Nat.add_sub_cancel_left]
    exact fewer

/-- Indexed tokens that are changed as a cursor is keep track of it. -/
theorem Reached.tracks {state : IndexedTokens} (reached : Reached source state c)
    : state.Tracks (.ofSource source) c := by
  induction reached with
  | start => exact .start
  | advance _ ih => exact ih.advance
  | reread reading _ ih => exact ih.reread reading
  | markArrowEnd _ ih =>
      exact ⟨ih.sound.markArrowEnd_held.sound, ih.entries, ih.fault, ih.behind, ih.ahead,
        ih.sourceLength⟩

end Grammar

end ScriptStyle
