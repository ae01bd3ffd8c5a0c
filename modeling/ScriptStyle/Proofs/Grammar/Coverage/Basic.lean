import Mathlib.Data.List.Nodup
import ScriptStyle.Proofs.Grammar.Cursors
import ScriptStyle.Proofs.Scanner.Spelling
import ScriptStyle.Proofs.Tree.Ledger

/-!
What a parser leaves behind. Between two cursors it reads tokens and makes parts of the tree:
these parts have just the literals and the semicolons that were read, no two constructs among
them end at one token, and each part agrees with the tokens that it was made from.
-/

namespace ScriptStyle.Grammar

variable {origin : Scanner} {c m c' : Cursor} {parts others : List Shown}

namespace Cursor

/-- The literals behind a cursor. -/
def read (c : Cursor) : List (TokenKind × Span) :=
  c.behind.toList.filterMap Token.literal?

/-- Whether an arrow is at a cursor. Only the parser of an arrow function gets past one. -/
def atArrow (c : Cursor) : Bool :=
  c.peek?.any (·.isPunctuator "=>")

/-- Tokens that may turn out to be all tokens of a source: those behind a cursor and others, but
no others at the end. -/
structure Completes (origin : Scanner) (c : Cursor) (tokens : List Token) : Prop where
  trail : ∃ stop, Trail origin tokens stop
  grows : c.behind.toList <+: tokens
  ended : c.ahead = [] → tokens = c.behind.toList

end Cursor

/-- What is read from one cursor to another is what the shown parts say. -/
structure Ledger (origin : Scanner) (c : Cursor) (parts : List Shown) (c' : Cursor) : Prop where
  sound : c'.Sound origin
  grows : c.behind.toList <+: c'.behind.toList
  ended : c.ahead = [] → c'.ahead = [] ∧ c'.behind = c.behind ∧ c'.fault = c.fault
  lastIndex_le : c.lastIndex ≤ c'.lastIndex
  lastStop_le : c.lastStop ≤ c'.lastStop
  offset_le : c.offset ≤ c'.offset
  literals : ∀ key, (literalTokens parts).count key + c.read.count key = c'.read.count key
  ends : (endIndices parts).Nodup
  within : ∀ index ∈ endIndices parts, c.index ≤ index ∧ index < c'.index
  semicolons
    : ∀ tokens, c'.Completes origin tokens → ∀ index,
        (ownSemicolons tokens parts).count index
          = if c.index ≤ index ∧ index < c'.index ∧ isSemicolonAt tokens index then 1 else 0
  grounded : ∀ tokens, c'.Completes origin tokens → ∀ part ∈ parts, part.Grounded tokens

namespace Cursor.Completes

variable {tokens : List Token}

/-- What completes a later cursor completes an earlier one. -/
theorem of_ledger (complete : c'.Completes origin tokens) (ledger : Ledger origin c parts c')
    : c.Completes origin tokens where
  trail := complete.trail
  grows := ledger.grows.trans complete.grows
  ended := by
    intro none
    obtain ⟨still, same, -⟩ := ledger.ended none
    rw [complete.ended still, same]

/-- The tokens behind a cursor may be all there are. -/
theorem behind (sound : c.Sound origin)
    : c.Completes origin c.behind.toList := by
  obtain ⟨stop, -, trail, -⟩ := sound.trail
  exact ⟨⟨stop, trail⟩, List.prefix_rfl, fun _ => rfl⟩

/-- A token behind a cursor has the same place among all tokens. -/
theorem getElem? (complete : c.Completes origin tokens) {index : Nat} (inside : index < c.index)
    : tokens[index]? = c.behind.toList[index]? := by
  obtain ⟨more, rfl⟩ := complete.grows
  exact List.getElem?_append_left (by simpa [Cursor.index] using inside)

end Cursor.Completes

namespace Ledger

theorem index_le (ledger : Ledger origin c parts c')
    : c.index ≤ c'.index := by
  have shorter := ledger.grows.length_le
  simpa [Cursor.index] using shorter

/-- Where nothing is read there is nothing to show. -/
theorem refl (sound : c.Sound origin)
    : Ledger origin c [] c where
  sound := sound
  grows := List.prefix_rfl
  ended := fun none => ⟨none, rfl, rfl⟩
  lastIndex_le := Nat.le_refl _
  lastStop_le := Nat.le_refl _
  offset_le := Nat.le_refl _
  literals := by simp
  ends := List.nodup_nil
  within := by simp
  semicolons := by
    intro tokens complete index
    rw [if_neg (by omega)]
    rfl
  grounded := by simp

/-- Parts that are read one after another are read together. -/
theorem trans (first : Ledger origin c parts m) (second : Ledger origin m others c')
    : Ledger origin c (parts ++ others) c' where
  sound := second.sound
  grows := first.grows.trans second.grows
  ended := by
    intro none
    obtain ⟨ended, behind, fault⟩ := first.ended none
    obtain ⟨ended', behind', fault'⟩ := second.ended ended
    exact ⟨ended', behind'.trans behind, fault'.trans fault⟩
  lastIndex_le := first.lastIndex_le.trans second.lastIndex_le
  lastStop_le := first.lastStop_le.trans second.lastStop_le
  offset_le := first.offset_le.trans second.offset_le
  literals := by
    intro key
    have before := first.literals key
    have behind := second.literals key
    rw [literalTokens_append, List.count_append]
    omega
  ends := by
    rw [endIndices_append]
    refine List.nodup_append.mpr ⟨first.ends, second.ends, fun index before other behind => ?_⟩
    have := first.within index before
    have := second.within other behind
    omega
  within := by
    intro index member
    have start := first.index_le
    have stop := second.index_le
    rw [endIndices_append] at member
    rcases List.mem_append.mp member with before | behind
    · have := first.within index before
      omega
    · have := second.within index behind
      omega
  semicolons := by
    intro tokens complete index
    have before := first.semicolons tokens (complete.of_ledger second) index
    have behind := second.semicolons tokens complete index
    have start := first.index_le
    have stop := second.index_le
    rw [ownSemicolons_append, List.count_append, before, behind]
    cases isSemicolonAt tokens index
    · simp
    · simp only [and_true]
      split_ifs <;> omega
  grounded := by
    intro tokens complete part member
    rcases List.mem_append.mp member with before | behind
    · exact first.grounded tokens (complete.of_ledger second) part before
    · exact second.grounded tokens complete part behind

/-- Parts may be shown otherwise if they say the same. -/
theorem congr (ledger : Ledger origin c parts c') (same : SameLedger parts others)
    : Ledger origin c others c' where
  sound := ledger.sound
  grows := ledger.grows
  ended := ledger.ended
  lastIndex_le := ledger.lastIndex_le
  lastStop_le := ledger.lastStop_le
  offset_le := ledger.offset_le
  literals := by
    intro key
    rw [← same.literals.count_eq]
    exact ledger.literals key
  ends := same.ends.nodup_iff.mp ledger.ends
  within := fun index member => ledger.within index (same.ends.mem_iff.mpr member)
  semicolons := by
    intro tokens complete index
    rw [← (same.semicolons tokens).count_eq]
    exact ledger.semicolons tokens complete index
  grounded := fun tokens complete => same.grounded tokens (ledger.grounded tokens complete)

/-- A semicolon at the last token that was read is none of the parts'. -/
theorem mem_semicolons (ledger : Ledger origin c parts c') {tokens : List Token}
    (complete : c'.Completes origin tokens) {index : Nat}
    : index ∈ ownSemicolons tokens parts
      ↔ c.index ≤ index ∧ index < c'.index ∧ isSemicolonAt tokens index := by
  rw [← List.count_pos_iff, ledger.semicolons tokens complete index]
  split_ifs with holds <;> simp [holds]

end Ledger

/-- From one cursor to another the shown parts are read, and an arrow is not passed. -/
structure Covered (origin : Scanner) (c : Cursor) (parts : List Shown) (c' : Cursor) : Prop
    extends Ledger origin c parts c' where
  stuck : c.atArrow → c'.atArrow

namespace Covered

theorem refl (sound : c.Sound origin)
    : Covered origin c [] c :=
  ⟨.refl sound, id⟩

theorem trans (first : Covered origin c parts m) (second : Covered origin m others c')
    : Covered origin c (parts ++ others) c' :=
  ⟨first.toLedger.trans second.toLedger, second.stuck ∘ first.stuck⟩

theorem congr (covered : Covered origin c parts c') (same : SameLedger parts others)
    : Covered origin c others c' :=
  ⟨covered.toLedger.congr same, covered.stuck⟩

theorem perm (covered : Covered origin c parts c') (same : parts.Perm others)
    : Covered origin c others c' :=
  covered.congr (.of_perm same)

end Covered

/-- All constructs among shown parts, and all semicolons of theirs, end before the last
significant token. -/
def Enclosed (origin : Scanner) (parts : List Shown) (c' : Cursor) : Prop :=
  ∀ tokens, c'.Completes origin tokens → ∀ index ∈ endIndices parts ++ ownSemicolons tokens parts,
    index < c'.lastIndex

namespace Enclosed

theorem nil
    : Enclosed origin [] c' := by
  intro tokens complete index member
  cases member

theorem append (first : Enclosed origin parts c') (second : Enclosed origin others c')
    : Enclosed origin (parts ++ others) c' := by
  intro tokens complete index member
  have before := first tokens complete index
  have behind := second tokens complete index
  simp only [endIndices_append, ownSemicolons_append, List.mem_append] at member before behind
  tauto

theorem mono (enclosed : Enclosed origin parts m) (later : Ledger origin m others c')
    : Enclosed origin parts c' :=
  fun tokens complete index member =>
    Nat.lt_of_lt_of_le (enclosed tokens (complete.of_ledger later) index member) later.lastIndex_le

theorem congr (enclosed : Enclosed origin parts c') (same : SameLedger parts others)
    : Enclosed origin others c' := by
  intro tokens complete index member
  exact enclosed tokens complete index
    ((same.ends.append (same.semicolons tokens)).mem_iff.mpr member)

end Enclosed

-----------------------------------------------------------------------------------------
-- Elementary moves
-----------------------------------------------------------------------------------------

namespace Cursor

/-- The token at a cursor is no arrow, begins no literal and is no semicolon. -/
structure Plain (c : Cursor) : Prop where
  noArrow : ¬c.atArrow
  noLiteral : ∀ token, c.peek? = some token → token.literal? = none
  noSemicolon : ∀ token, c.peek? = some token → token.isPunctuator ";" = false

namespace Sound

variable {token : Token} {reading : SlashReading}

theorem lastIndex_le (sound : c.Sound origin)
    : c.lastIndex ≤ c.index := by
  rcases sound.last with ⟨zero, -⟩ | ⟨before, last, after, split, -, -, index, -⟩
  · omega
  · have size : c.index = c.behind.toList.length := by simp [Cursor.index]
    rw [size, split, index]
    simp

/-- The current token begins where the tokens behind it have ended. -/
theorem lastStop_le_start (sound : c.Sound origin) (here : c.peek? = some token)
    : c.lastStop ≤ token.span.start ∧ token.span.start < token.span.stop := by
  obtain ⟨scanner, reading, after, trail, read, -⟩ := sound.head here
  obtain ⟨gap, -, -, nonempty, opens, closes, -⟩ := Scanner.next_splits read
  have positive := Text.byteLength_pos nonempty
  refine ⟨?_, by omega⟩
  rcases sound.last with ⟨-, zero, -⟩ | ⟨before, last, after, split, -, -, -, stop⟩
  · omega
  · have bounds := trail.bounds (show last ∈ c.behind.toList by simp [split])
    simp only [stop] at opens ⊢
    omega

theorem offset_eq (here : c.peek? = some token)
    : c.offset = token.span.start := by
  rw [Cursor.offset, here]

/-- What is behind a cursor ends before what is ahead, and that is in the source. -/
theorem lastStop_le_offset (sound : c.Sound origin)
    : c.lastStop ≤ c.offset ∧ c.offset ≤ c.sourceLength := by
  obtain ⟨scanner, reading, trail, -⟩ := sound.trail
  have inside := trail.offset_le
  have length := sound.length
  cases here : c.peek? with
  | some token =>
      obtain ⟨scanner, reading, after, trail, read, -⟩ := sound.head here
      have bounds := (trail.append (.cons read .nil)).bounds (show token ∈ _ by simp)
      have inside := (trail.append (.cons read .nil)).offset_le
      rw [offset_eq here]
      exact ⟨(sound.lastStop_le_start here).1, by omega⟩
  | none =>
      rw [Cursor.offset, here]
      refine ⟨?_, Nat.le_refl _⟩
      rcases sound.last with ⟨-, zero, -⟩ | ⟨before, last, after, split, -, -, -, stop⟩
      · simp only [zero]
        exact Nat.zero_le _
      · have bounds := trail.bounds (show last ∈ c.behind.toList by simp [split])
        simp only [stop]
        omega

/-- Moving past a token takes the bytes of that token. -/
theorem offset_lt_advance (sound : c.Sound origin) (here : c.peek? = some token)
    : c.offset < c.advance.lastStop ∧ c.advance.lastStop ≤ c.advance.offset := by
  rw [offset_eq here]
  refine ⟨?_, (sound.advance here).1.lastStop_le_offset.1⟩
  rw [Cursor.advance_lastStop here]
  exact (sound.lastStop_le_start here).2

theorem index_lt_advance (sound : c.Sound origin) (here : c.peek? = some token)
    : c.index < c.advance.index := by
  have longer := (sound.advance here).2.length_le
  simp only [List.length_append, List.length_cons, List.length_nil, Array.length_toList] at longer
  exact longer

/-- A current token that is spelled like a punctuator is none but that. -/
theorem isPunctuator_of_sees {text : String} {first : Char} {rest : List Char}
    (sound : c.Sound origin) (here : c.peek? = some token) (sees : c.sees text)
    (spelled : text.toList = first :: rest)
    (sign : (Text.isIdentifierStart first || first == '\\') = false)
    : token.isPunctuator text := by
  obtain ⟨scanner, reading, after, -, read, -⟩ := sound.head here
  rw [Cursor.sees, here] at sees
  exact Scanner.isPunctuator_of_isTerminal read sees spelled sign

/-- Behind a token that was moved past there are only comments. -/
theorem advance_behind (here : c.peek? = some token)
    : ∃ comments, c.advance.behind.toList = c.behind.toList ++ token :: comments
        ∧ ∀ comment ∈ comments, comment.kind.isComment := by
  obtain ⟨scanner, rest, text⟩ := Cursor.peek?_eq_some.mp here
  refine ⟨(rest.takeWhile (·.token.kind.isComment)).map ScannedToken.token, ?_, ?_⟩
  · rw [Cursor.advance_cons text]
    simp [Cursor.skipComments, Cursor.step]
  · intro comment member
    obtain ⟨entry, taken, rfl⟩ := List.mem_map.mp member
    have isComment := List.mem_takeWhile_imp taken
    exact isComment

/-- Moving past a token takes that token and comments, and a part that says of the tokens what
is so of that token is read with it. -/
theorem advance_ledger (sound : c.Sound origin) (here : c.peek? = some token)
    (literals : literalTokens parts = token.literal?.toList) (ends : endIndices parts = [])
    (semicolons
      : ∀ tokens, ownSemicolons tokens parts = if token.isPunctuator ";" then [c.index] else [])
    (grounded : ∀ tokens, tokens[c.index]? = some token → ∀ part ∈ parts, part.Grounded tokens)
    : Ledger origin c parts c.advance := by
  obtain ⟨moved, grows⟩ := sound.advance here
  obtain ⟨comments, behind, isComment⟩ := advance_behind here
  have taken := sound.offset_lt_advance here
  have bounds := sound.lastStop_le_offset
  have size : c.index = c.behind.toList.length := by simp [Cursor.index]
  have size' : c.advance.index = c.index + 1 + comments.length := by
    have length := congrArg List.length behind
    simp only [List.length_append, List.length_cons, Array.length_toList] at length
    simp only [Cursor.index]
    omega
  have place (tokens : List Token) (complete : c.advance.Completes origin tokens)
      : tokens[c.index]? = some token := by
    rw [complete.getElem? (by omega), behind, size]
    simp
  refine ⟨moved, (List.prefix_append ..).trans grows, ?_, ?_, by omega, by omega, ?_, by simp [ends],
    by simp [ends], ?_, fun tokens complete => grounded tokens (place tokens complete)⟩
  · intro none
    simp [Cursor.peek?, none] at here
  · rw [Cursor.advance_lastIndex here]
    exact sound.lastIndex_le
  · intro key
    have silent : comments.filterMap Token.literal? = [] :=
      List.filterMap_eq_nil_iff.mpr fun comment member =>
        Token.literal?_of_isComment (isComment comment member)
    rw [Cursor.read, Cursor.read, behind, List.filterMap_append, literals, ← List.singleton_append,
      List.filterMap_append, silent, List.append_nil, List.count_append, Nat.add_comm]
    cases found : token.literal? <;> simp [found]
  · intro tokens complete index
    rw [semicolons]
    by_cases same : index = c.index
    · subst same
      have found : isSemicolonAt tokens c.index = token.isPunctuator ";" := by
        simp [isSemicolonAt, place tokens complete]
      rw [found]
      cases token.isPunctuator ";" <;> simp [size']
      omega
    · have absent : ¬(c.index ≤ index ∧ index < c.advance.index ∧ isSemicolonAt tokens index) := by
        rintro ⟨above, below, semicolon⟩
        obtain ⟨more, rfl⟩ : ∃ more, index = c.index + 1 + more := ⟨index - c.index - 1, by omega⟩
        have found : comments[more]?.any (·.isPunctuator ";") := by
          rw [isSemicolonAt, complete.getElem? below, behind, size] at semicolon
          rwa [List.getElem?_append_right (by omega), Nat.add_assoc, Nat.add_sub_cancel_left,
            Nat.add_comm 1, List.getElem?_cons_succ] at semicolon
        obtain ⟨comment, there, semicolon⟩ := Option.any_eq_true .. |>.mp found
        have := isComment comment (List.mem_of_getElem? there)
        cases kind : comment.kind <;> simp_all [TokenKind.isComment, Token.isPunctuator]
      rw [if_neg absent]
      split
      · rw [List.count_singleton, if_neg (by simpa using Ne.symm same)]
      · rfl

end Sound

end Cursor

end ScriptStyle.Grammar
