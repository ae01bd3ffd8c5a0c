import Mathlib.Data.Prod.Lex
import Mathlib.Data.Set.Card
import ScriptStyle.Proofs.Text.Positions

/-!
A line and a column identify a place of a text. The line counts the line breaks that end up to
there and the column the characters since the last of them, so that both together grow from place
to place.
-/

namespace ScriptStyle.Text

variable {text : List Char} {numbers : List Nat} {low high offset sought : Nat}

-----------------------------------------------------------------------------------------
-- Searches
-----------------------------------------------------------------------------------------

/-- What a search for a number among ascending numbers comes to: the place of the number, or the
one where it could be put in. -/
inductive SearchResult where
  | found (place : Nat)
  | missing (place : Nat)

namespace SearchResult

/-- A search for a number among some numbers may come to a result. -/
inductive Answers (numbers : List Nat) (sought : Nat) : SearchResult → Prop
  | found {place : Nat} (here : numbers[place]? = some sought) : Answers numbers sought (found place)
  | missing {before after : List Nat} (split : numbers = before ++ after)
      (below : ∀ number ∈ before, number < sought) (above : ∀ number ∈ after, sought < number)
      : Answers numbers sought (missing before.length)

/-- The line that a search for an offset among the starts of the lines tells. -/
def line : SearchResult → Nat
  | found place => place + 1
  | missing place => place

/-- A search among ascending numbers always comes to a result. -/
theorem exists_answers (ordered : numbers.Pairwise (· < ·)) (sought : Nat)
    : ∃ result, Answers numbers sought result := by
  induction numbers with
  | nil => exact ⟨_, .missing (List.append_nil []).symm (by simp) (by simp)⟩
  | cons first others ih =>
      obtain ⟨above, ordered⟩ := List.pairwise_cons.mp ordered
      rcases Nat.lt_trichotomy sought first with lower | rfl | higher
      · refine ⟨_, .missing (List.nil_append _).symm (by simp) ?_⟩
        exact List.forall_mem_cons.mpr ⟨lower, fun number later => lower.trans (above number later)⟩
      · exact ⟨.found 0, .found rfl⟩
      · obtain ⟨_, answers⟩ := ih ordered
        cases answers with
        | @found place here => exact ⟨.found (place + 1), .found here⟩
        | missing split below beyond =>
            rw [split]
            refine ⟨_, .missing (List.cons_append ..).symm ?_ beyond⟩
            exact List.forall_mem_cons.mpr ⟨higher, below⟩

theorem countP_of_found {place : Nat} (ordered : numbers.Pairwise (· < ·))
    (here : numbers[place]? = some sought)
    : numbers.countP (· ≤ sought) = place + 1 := by
  induction numbers generalizing place with
  | nil => cases here
  | cons first others ih =>
      obtain ⟨above, ordered⟩ := List.pairwise_cons.mp ordered
      cases place with
      | zero =>
          obtain rfl := Option.some.inj here
          have none : others.countP (· ≤ first) = 0 :=
            List.countP_eq_zero.mpr fun number later => by simpa using above number later
          rw [List.countP_cons_of_pos (by simp), none]
      | succ place =>
          have lower := Nat.le_of_lt (above sought (List.mem_of_getElem? here))
          rw [List.countP_cons_of_pos (by simpa using lower), ih ordered here]

/-- Either result of a search tells how many numbers are within a bound. -/
theorem line_eq_countP {result : SearchResult} (ordered : numbers.Pairwise (· < ·))
    (answers : Answers numbers sought result)
    : result.line = numbers.countP (· ≤ sought) := by
  cases answers with
  | found here => exact (countP_of_found ordered here).symm
  | @missing before after split below above =>
      have all : before.countP (· ≤ sought) = before.length :=
        List.countP_eq_length.mpr fun number member => by
          simpa using Nat.le_of_lt (below number member)
      have none : after.countP (· ≤ sought) = 0 :=
        List.countP_eq_zero.mpr fun number member => by simpa using above number member
      rw [split, List.countP_append, all, none, line, Nat.add_zero]

end SearchResult

-----------------------------------------------------------------------------------------
-- Line breaks
-----------------------------------------------------------------------------------------

/-- A line begins in a text or at its end. -/
theorem LineBegins.le_byteLength {start : Nat} (begins : LineBegins text start)
    : start ≤ byteLength text := by
  obtain ⟨before, c, after, rfl, -, rfl⟩ := begins
  simp only [byteLength_append, byteLength_cons, byteLength_nil]
  omega

/-- The later starts of lines within a bound are as many as the line breaks that end there. -/
theorem countP_laterLineStarts (text : List Char) (offset : Nat)
    : (laterLineStarts 0 text).countP (· ≤ offset)
      = {stop | LineBegins text stop ∧ stop ≤ offset}.ncard := by
  have nodup : ((laterLineStarts 0 text).filter (· ≤ offset)).Nodup := by
    refine List.Nodup.filter _ ?_
    exact (List.pairwise_cons.mp (pairwise_laterLineStarts 0 text)).2.imp fun lower => lower.ne
  have same : {stop | LineBegins text stop ∧ stop ≤ offset}
      = ((laterLineStarts 0 text).filter (· ≤ offset)).toFinset := by
    ext stop
    simp [mem_laterLineStarts]
  rw [same, Set.ncard_coe_finset, List.toFinset_card_of_nodup nodup, List.countP_eq_length_filter]

namespace LineIndex

/-- The line and the column of an offset. -/
def position (index : LineIndex) (offset : Nat) : Nat × Nat :=
  (index.lineAt offset, index.columnAt offset)

/-- What is known of the line and the column of any offset, be it behind the end of the text or
inside a character. -/
structure Numbers (text : List Char) (offset : Nat) : Prop where
  /-- The line is one more than the line breaks that end before the offset or at it. -/
  line
    : (ofText text).lineAt offset = 1 + {stop | LineBegins text stop ∧ stop ≤ offset}.ncard
  /-- The line is what a search for the offset among the starts of the lines tells. -/
  searched
    : ∀ result, SearchResult.Answers (ofText text).starts offset result →
        (ofText text).lineAt offset = result.line
  line_pos : 1 ≤ (ofText text).lineAt offset
  line_le : (ofText text).lineAt offset ≤ (ofText text).count
  /-- There is a start of that line. -/
  start
    : (ofText text).starts[(ofText text).lineAt offset - 1]?
        = some ((ofText text).lineStart offset)
  /-- Nothing is taken away from less when bytes are counted from there. -/
  start_le : (ofText text).lineStart offset ≤ min offset (byteLength text)
  column_pos : 1 ≤ (ofText text).columnAt offset

/-- Every start of a line is in the text or at its end. -/
theorem le_byteLength_of_mem {start : Nat} (member : start ∈ (ofText text).starts)
    : start ≤ byteLength text := by
  rcases List.mem_cons.mp member with rfl | later
  · exact Nat.zero_le _
  · obtain ⟨further, begins, rfl⟩ := mem_laterLineStarts.mp later
    rw [Nat.zero_add]
    exact begins.le_byteLength

theorem numbered (text : List Char) (offset : Nat)
    : Numbers text offset := by
  have ordered : (ofText text).starts.Pairwise (· < ·) := pairwise_laterLineStarts 0 text
  have counted : (ofText text).lineAt offset
      = (laterLineStarts 0 text).countP (· ≤ offset) + 1 :=
    List.countP_cons_of_pos (by simp)
  obtain ⟨start, there, inside, -⟩ := getElem?_countP ordered (Nat.zero_le offset)
  have same : (ofText text).lineStart offset = start := by
    rw [lineStart]
    exact (congrArg (·.getD 0) there).trans rfl
  refine ⟨?_, fun result answers => (SearchResult.line_eq_countP ordered answers).symm, ?_,
    List.countP_le_length, ?_, ?_, ?_⟩
  · rw [counted, countP_laterLineStarts, Nat.add_comm]
  · omega
  · rw [same]
    exact there
  · rw [same]
    exact Nat.le_min.mpr ⟨inside, le_byteLength_of_mem (List.mem_of_getElem? there)⟩
  · rw [columnAt]
    split <;> omega

-----------------------------------------------------------------------------------------
-- Places
-----------------------------------------------------------------------------------------

/-- The column of a place is one more than the characters since the start of its line. -/
def CountsColumn (text : List Char) (offset : Nat) : Prop :=
  ∃ front within rest, text = front ++ (within ++ rest)
    ∧ byteLength front = (ofText text).lineStart offset
    ∧ byteLength front + byteLength within = offset
    ∧ (ofText text).columnAt offset = within.length + 1

theorem countsColumn (boundary : isBoundary text offset)
    : CountsColumn text offset := by
  obtain ⟨before, after, whole, rfl⟩ := isBoundary_iff.mp boundary
  obtain ⟨front, within, rest, split, place, there, -, column⟩ := (locates whole).place
  have start := (numbered text (byteLength before)).start
  exact ⟨front, within, rest, split, Option.some.inj (there.symm.trans start), place.symm, column⟩

/-- Of two places in one line the later one has the greater column. -/
theorem columnAt_lt_columnAt (first : CountsColumn text low) (second : CountsColumn text high)
    (ordered : low < high) (inLine : (ofText text).lineAt low = (ofText text).lineAt high)
    : (ofText text).columnAt low < (ofText text).columnAt high := by
  obtain ⟨front, within, rest, split, start, rfl, column⟩ := first
  obtain ⟨front', within', rest', split', start', rfl, column'⟩ := second
  have same : byteLength front = byteLength front' := by
    rw [start, start', lineStart, lineStart, inLine]
  obtain ⟨none, longer, tail⟩ := append_eq_append_of_le (split.symm.trans split') same.le
  have length := congrArg byteLength longer
  rw [byteLength_append] at length
  obtain rfl : none = [] := byteLength_eq_zero.mp (by omega)
  rw [List.nil_append] at tail
  obtain ⟨more, rfl, -⟩ := append_eq_append_of_le tail (by omega)
  have nonempty : more ≠ [] := by
    rintro rfl
    rw [List.append_nil] at ordered
    omega
  have positive := List.length_pos_iff.mpr nonempty
  rw [column, column', List.length_append]
  omega

/-- Lines and columns grow from place to place. -/
theorem strictMonoOn_position (text : List Char)
    : StrictMonoOn (fun offset => toLex ((ofText text).position offset))
        {offset | isBoundary text offset} := by
  intro low boundary high boundary' ordered
  rw [Prod.Lex.toLex_lt_toLex]
  rcases ((ofText text).lineAt_le_lineAt (Nat.le_of_lt ordered)).lt_or_eq with earlier | inLine
  · exact .inl earlier
  · exact .inr ⟨inLine,
      columnAt_lt_columnAt (countsColumn boundary) (countsColumn boundary') ordered inLine⟩

/-- The starts of the lines of a text are in order and the first is its start. Every offset has a
line that is counted from the line breaks before it, a search for it among the starts tells that
line, and there is always a start to count the column from. Between characters the lines and
columns grow with the offset, so that they identify it, and columns count characters. -/
theorem positions_identified (text : List Char)
    : (ofText text).starts.head? = some 0
      ∧ (ofText text).starts.Pairwise (· < ·)
      ∧ (∀ offset, Numbers text offset
          ∧ ∃ result, SearchResult.Answers (ofText text).starts offset result)
      ∧ StrictMonoOn (fun offset => toLex ((ofText text).position offset))
          {offset | isBoundary text offset}
      ∧ Set.InjOn (ofText text).position {offset | isBoundary text offset}
      ∧ ∀ offset, isBoundary text offset → CountsColumn text offset := by
  have ordered : (ofText text).starts.Pairwise (· < ·) := pairwise_laterLineStarts 0 text
  have grows := strictMonoOn_position text
  refine ⟨rfl, ordered, fun offset => ⟨numbered text offset, ?_⟩, grows, ?_,
    fun offset => countsColumn⟩
  · exact SearchResult.exists_answers ordered offset
  · exact fun low boundary high boundary' same =>
      grows.injOn boundary boundary' (congrArg toLex same)

/-- Between the halves of a CR LF pair the line is still the one before. -/
theorem positions_identified_of_pair
    : isBoundary "é\r\nb".toList 3 ∧ isBoundary "é\r\nb".toList 4
      ∧ (ofText "é\r\nb".toList).starts = [0, 4]
      ∧ (ofText "é\r\nb".toList).position 1 = (1, 2)
      ∧ (ofText "é\r\nb".toList).position 3 = (1, 3)
      ∧ (ofText "é\r\nb".toList).position 4 = (2, 1)
      ∧ toLex ((ofText "é\r\nb".toList).position 3) < toLex ((ofText "é\r\nb".toList).position 4)
      ∧ CountsColumn "é\r\nb".toList 3
      ∧ Numbers "é\r\nb".toList 9 := by
  obtain ⟨-, -, numbers, grows, -, counts⟩ := positions_identified "é\r\nb".toList
  have between : isBoundary "é\r\nb".toList 3 := by decide
  have behind : isBoundary "é\r\nb".toList 4 := by decide
  exact ⟨between, behind, by decide, by decide, by decide, by decide,
    grows between behind (by decide), counts 3 between, (numbers 9).1⟩

end LineIndex

end ScriptStyle.Text
