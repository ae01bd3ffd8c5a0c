import ScriptStyle.Proofs.Text.LineStarts

/-!
Lines and columns of the places of a text. The line of a place is the last one that does not begin
behind it, and its column counts the characters from where that line begins.
-/

namespace ScriptStyle.Text

variable {text front rest : List Char} {numbers others : List Nat} {first bound : Nat}

/-- The starts of the lines are in order. -/
theorem pairwise_laterLineStarts (offset : Nat) (text : List Char)
    : (offset :: laterLineStarts offset text).Pairwise (· < ·) := by
  have later {low middle : Nat} {starts : List Nat} (lower : low < middle)
      (ordered : (middle :: starts).Pairwise (· < ·)) : ∀ start ∈ starts, low < start :=
    fun start member => Nat.lt_trans lower (List.rel_of_pairwise_cons ordered member)
  fun_induction laterLineStarts offset text with
  | case1 => simp
  | case2 offset rest ih =>
      have lower : offset < offset + 2 := by omega
      exact List.pairwise_cons.mpr ⟨List.forall_mem_cons.mpr ⟨lower, later lower ih⟩, ih⟩
  | case3 offset c rest _ next _ ih =>
      have lower : offset < next := Nat.lt_add_of_pos_right c.utf8Size_pos
      exact List.pairwise_cons.mpr ⟨List.forall_mem_cons.mpr ⟨lower, later lower ih⟩, ih⟩
  | case4 offset c rest _ next _ ih =>
      have lower : offset < next := Nat.lt_add_of_pos_right c.utf8Size_pos
      exact List.pairwise_cons.mpr ⟨later lower ih, (List.pairwise_cons.mp ih).2⟩

/-- Of numbers in order, as many as are within a bound lead up to the last of these. -/
theorem getElem?_countP (ordered : (first :: others).Pairwise (· < ·)) (low : first ≤ bound)
    : ∃ last, (first :: others)[(first :: others).countP (· ≤ bound) - 1]? = some last
        ∧ last ≤ bound ∧ ∀ number ∈ first :: others, number ≤ bound → number ≤ last := by
  induction others generalizing first with
  | nil => exact ⟨first, by simp [low], low, by simp⟩
  | cons second others ih =>
      obtain ⟨above, ordered⟩ := List.pairwise_cons.mp ordered
      have rises : first < second := above second (List.mem_cons_self ..)
      rw [List.countP_cons_of_pos (by simpa using low), Nat.add_sub_cancel]
      by_cases low' : second ≤ bound
      · obtain ⟨last, there, inside, largest⟩ := ih ordered low'
        have some : 0 < (second :: others).countP (· ≤ bound) :=
          List.countP_pos_iff.mpr ⟨second, List.mem_cons_self .., by simpa using low'⟩
        obtain ⟨fewer, count⟩ := Nat.exists_eq_add_one.mpr some
        rw [count, Nat.add_sub_cancel] at there
        have le := largest second (List.mem_cons_self ..) low'
        refine ⟨last, by rw [count, List.getElem?_cons_succ, there], inside, ?_⟩
        exact List.forall_mem_cons.mpr ⟨fun _ => by omega, largest⟩
      · have none : (second :: others).countP (· ≤ bound) = 0 := by
          refine List.countP_eq_zero.mpr fun number member => ?_
          have le : second ≤ number := by
            rcases List.mem_cons.mp member with rfl | later
            · exact Nat.le_refl _
            · exact Nat.le_of_lt (List.rel_of_pairwise_cons ordered later)
          simp only [decide_eq_true_eq]
          omega
        refine ⟨first, by rw [none]; rfl, low, ?_⟩
        refine List.forall_mem_cons.mpr ⟨fun _ => Nat.le_refl _, fun number member inside => ?_⟩
        have some : 0 < (second :: others).countP (· ≤ bound) :=
          List.countP_pos_iff.mpr ⟨number, member, by simpa using inside⟩
        omega

namespace LineIndex

/-- A line and a column are those of an offset: the line is one of the text and the last that does
not begin behind the offset, and the column counts the characters from there. -/
structure Locates (text : List Char) (offset line column : Nat) : Prop where
  positive : 1 ≤ line
  le_count : line ≤ (ofText text).count
  place
    : ∃ (front within rest : List Char), text = front ++ (within ++ rest)
        ∧ offset = byteLength front + byteLength within
        ∧ (ofText text).starts[line - 1]? = some (byteLength front)
        ∧ (∀ start ∈ (ofText text).starts, start ≤ offset → start ≤ byteLength front)
        ∧ column = within.length + 1

/-- A place that is not behind a line start cuts the text there, too. -/
theorem exists_line {start : Nat} (member : start ∈ (ofText (front ++ rest)).starts)
    (inside : start ≤ byteLength front)
    : ∃ before within, front = before ++ within ∧ byteLength before = start := by
  rcases List.mem_cons.mp member with rfl | later
  · exact ⟨[], front, rfl, rfl⟩
  · obtain ⟨further, ⟨before, c, after, whole, -, rfl⟩, rfl⟩ := mem_laterLineStarts.mp later
    rw [Nat.zero_add] at inside ⊢
    rw [List.append_cons] at whole
    obtain ⟨within, rfl, -⟩ := append_eq_append_of_le whole.symm inside
    exact ⟨_, within, rfl, rfl⟩

/-- Every place of a text has the line and the column that are computed for it. -/
theorem locates (whole : text = front ++ rest)
    : Locates text (byteLength front) ((ofText text).lineAt (byteLength front))
        ((ofText text).columnAt (byteLength front)) := by
  subst whole
  obtain ⟨start, there, inside, largest⟩ :=
    getElem?_countP (pairwise_laterLineStarts 0 (front ++ rest)) (Nat.zero_le (byteLength front))
  obtain ⟨before, within, rfl, rfl⟩ := exists_line (List.mem_of_getElem? there) inside
  have line : (ofText (before ++ within ++ rest)).lineStart (byteLength (before ++ within))
      = byteLength before := by
    rw [lineStart]
    exact (congrArg (·.getD 0) there).trans rfl
  refine ⟨?_, List.countP_le_length, before, within, rest, List.append_assoc .., ?_, there, largest,
    ?_⟩
  · exact List.countP_pos_iff.mpr ⟨0, List.mem_cons_self .., by simp⟩
  · rw [byteLength_append]
  · have stop : min (byteLength (before ++ within)) (byteLength (before ++ within ++ rest))
        = byteLength before + byteLength within := by
      simp only [byteLength_append]
      omega
    rw [columnAt, line]
    simp only [ofText]
    rw [stop, List.append_assoc, slice?_append]

end LineIndex

end ScriptStyle.Text
