import ScriptStyle.Text.Bytes

/-!
Cutting a text at a byte offset gives the two parts whose byte lengths meet there.
All facts on offsets into a source go back to this one.
-/

namespace ScriptStyle.Text

-----------------------------------------------------------------------------------------
-- Byte lengths
-----------------------------------------------------------------------------------------

/-- The byte length of a list of characters is that of the string made of them.
Witness: both grow by the size of one character.
-/
theorem utf8ByteSize_ofList (text : List Char)
    : (String.ofList text).utf8ByteSize = byteLength text := by
  have encoded : text.utf8Encode.size = byteLength text := by
    induction text with
    | nil => rfl
    | cons c rest ih =>
        rw [List.utf8Encode_cons, ByteArray.size_append, ih, byteLength_cons,
          ← String.toByteArray_singleton, String.size_toByteArray, String.utf8ByteSize_singleton]
  rw [← String.size_toByteArray, String.toByteArray_ofList, encoded]

/-- The byte length of a string is that of its characters. -/
theorem byteLength_toList (text : String)
    : byteLength text.toList = text.utf8ByteSize := by
  rw [← utf8ByteSize_ofList, String.ofList_toList]

/-- A text without bytes is empty. -/
theorem byteLength_eq_zero {text : List Char}
    : byteLength text = 0 ↔ text = [] := by
  cases text with
  | nil => simp
  | cons c rest =>
      have positive := c.utf8Size_pos
      simp only [byteLength_cons, reduceCtorEq, iff_false]
      omega

/-- A text with a character in it has bytes. -/
theorem byteLength_pos {text : List Char} (nonempty : text ≠ [])
    : 0 < byteLength text :=
  Nat.pos_of_ne_zero fun empty => nonempty (byteLength_eq_zero.mp empty)

/-- A text has no more characters than bytes. -/
theorem length_le_byteLength (text : List Char)
    : text.length ≤ byteLength text := by
  induction text with
  | nil => simp
  | cons c rest ih =>
      have positive : 0 < c.utf8Size := c.utf8Size_pos
      simp only [List.length_cons, byteLength_cons]
      omega

-----------------------------------------------------------------------------------------
-- Cuts
-----------------------------------------------------------------------------------------

/-- A text can be cut after any of its prefixes. -/
@[simp] theorem cutAt?_append (before after : List Char)
    : cutAt? (before ++ after) (byteLength before) = some (before, after) := by
  induction before with
  | nil => simp [cutAt?]
  | cons c rest ih =>
      have positive := c.utf8Size_pos
      obtain ⟨size, sized⟩ : ∃ size, c.utf8Size + byteLength rest = size + 1 :=
        ⟨c.utf8Size + byteLength rest - 1, by omega⟩
      have fits : c.utf8Size ≤ size + 1 := by omega
      have left : size + 1 - c.utf8Size = byteLength rest := by omega
      simp [byteLength_cons, sized, cutAt?, fits, left, ih]

/-- The two parts of a cut make up the text, and the first has the bytes up to the cut.
Witness: cutting is undone by appending, character by character.
-/
theorem cutAt?_eq_some {text before after : List Char} {offset : Nat}
    : cutAt? text offset = some (before, after)
      ↔ text = before ++ after ∧ byteLength before = offset := by
  constructor
  · intro cut
    induction text generalizing offset before with
    | nil =>
        cases offset with
        | zero => simp_all [cutAt?]
        | succ offset => simp [cutAt?] at cut
    | cons c rest ih =>
        cases offset with
        | zero => simp_all [cutAt?]
        | succ offset =>
            simp only [cutAt?] at cut
            split at cut
            · next fits =>
                obtain ⟨⟨front, back⟩, inner, paired⟩ := Option.map_eq_some_iff.mp cut
                obtain ⟨rfl, rfl⟩ := Prod.mk.inj paired
                obtain ⟨joined, measured⟩ := ih inner
                refine ⟨by simp [joined], ?_⟩
                simp only [byteLength_cons, measured]
                omega
            · cases cut
  · rintro ⟨rfl, rfl⟩
    exact cutAt?_append before after

/-- An offset is a boundary exactly if some prefix has that many bytes. -/
theorem isBoundary_iff {text : List Char} {offset : Nat}
    : isBoundary text offset ↔ ∃ before after, text = before ++ after ∧ byteLength before = offset := by
  simp only [isBoundary, Option.isSome_iff_exists, Prod.exists, cutAt?_eq_some]

/-- Of two prefixes of a text the one with fewer bytes is a prefix of the other. -/
theorem append_eq_append_of_le {front tail before after : List Char}
    (same : front ++ tail = before ++ after) (shorter : byteLength front ≤ byteLength before)
    : ∃ middle, before = front ++ middle ∧ tail = middle ++ after := by
  rcases List.append_eq_append_iff.mp same with found | ⟨middle, longer, rest⟩
  · exact found
  · have length := congrArg byteLength longer
    rw [byteLength_append] at length
    obtain rfl : middle = [] := byteLength_eq_zero.mp (by omega)
    exact ⟨[], by simpa using longer.symm, rest.symm⟩

/-- A character that ends behind one offset and not behind another stands between them. -/
theorem mem_of_ends_between {before gap after front rest : List Char} {c : Char}
    (same : before ++ (gap ++ after) = front ++ c :: rest)
    (behind : byteLength before < byteLength (front ++ [c]))
    (inside : byteLength (front ++ [c]) ≤ byteLength (before ++ gap))
    : c ∈ gap := by
  rw [List.append_cons front, ← List.append_assoc] at same
  obtain ⟨more, longer, -⟩ := append_eq_append_of_le same.symm inside
  obtain ⟨middle, split, rfl⟩ := append_eq_append_of_le longer (Nat.le_of_lt behind)
  rcases List.eq_nil_or_concat middle with rfl | ⟨most, last, rfl⟩
  · rw [split, List.append_nil] at behind
    exact absurd behind (Nat.lt_irrefl _)
  · rw [List.concat_eq_append, ← List.append_assoc] at split
    obtain ⟨-, same⟩ := List.append_inj' split rfl
    obtain rfl := List.singleton_inj.mp same
    simp

/-- A boundary that is not in front of a prefix cuts what follows the prefix. -/
theorem split_of_isBoundary {front tail : List Char} {offset : Nat}
    (boundary : isBoundary (front ++ tail) offset) (beyond : byteLength front ≤ offset)
    : ∃ middle after, tail = middle ++ after ∧ byteLength (front ++ middle) = offset := by
  obtain ⟨before, after, whole, rfl⟩ := isBoundary_iff.mp boundary
  obtain ⟨middle, rfl, rest⟩ := append_eq_append_of_le whole beyond
  exact ⟨middle, after, rest, rfl⟩

-----------------------------------------------------------------------------------------
-- Slices
-----------------------------------------------------------------------------------------

/-- The slice between two boundaries is the text between them. -/
theorem slice?_append (before middle after : List Char)
    : slice? (before ++ (middle ++ after)) (byteLength before)
        (byteLength before + byteLength middle)
      = some middle := by
  have ordered : byteLength before ≤ byteLength before + byteLength middle := Nat.le_add_right _ _
  simp [slice?, ordered]

/-- The slice between two boundaries is the text between them, also as a total function. -/
theorem slice_append (before middle after : List Char)
    : slice (before ++ (middle ++ after)) (byteLength before)
        (byteLength before + byteLength middle)
      = middle := by
  rw [slice, slice?_append, Option.getD_some]

-----------------------------------------------------------------------------------------
-- Runs of characters
-----------------------------------------------------------------------------------------

/-- The run of characters with a property is what the library takes while the property holds. -/
theorem take_lengthWhile (p : Char → Bool) (text : List Char)
    : text.take (lengthWhile p text) = text.takeWhile p := by
  induction text with
  | nil => rfl
  | cons c rest ih =>
      cases holds : p c with
      | false => simp [lengthWhile, holds]
      | true => simp [lengthWhile, holds, ih]

/-- What follows the run of characters with a property is what the library drops to. -/
theorem drop_lengthWhile (p : Char → Bool) (text : List Char)
    : text.drop (lengthWhile p text) = text.dropWhile p := by
  induction text with
  | nil => rfl
  | cons c rest ih =>
      cases holds : p c with
      | false => simp [lengthWhile, holds]
      | true => simp [lengthWhile, holds, ih]

end ScriptStyle.Text
