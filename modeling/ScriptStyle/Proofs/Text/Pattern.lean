import ScriptStyle.Text.Blank

/-!
Patterns of characters, as they are searched for in a text. What a pattern matches depends on
the text in front of it, since a pattern can ask to stand at the start.
-/

namespace ScriptStyle.Text

/-- What texts can be asked for. -/
inductive Pattern where
  /-- Nothing, at the start of the text. -/
  | start
  | one (allowed : Char → Bool)
  | both (first second : Pattern)
  | either (first second : Pattern)
  /-- Any number of texts one after another, or none. -/
  | many (repeated : Pattern)

namespace Pattern

/-- A pattern matches a text that stands behind another one. -/
inductive Matches : Pattern → List Char → List Char → Prop
  | start : Matches .start [] []
  | one {allowed : Char → Bool} {before : List Char} {c : Char} (fits : allowed c)
    : Matches (.one allowed) before [c]
  | both {first second : Pattern} {before front back : List Char}
    (leads : Matches first before front) (follows : Matches second (before ++ front) back)
    : Matches (.both first second) before (front ++ back)
  | left {first second : Pattern} {before found : List Char} (fits : Matches first before found)
    : Matches (.either first second) before found
  | right {first second : Pattern} {before found : List Char} (fits : Matches second before found)
    : Matches (.either first second) before found
  | none {repeated : Pattern} {before : List Char} : Matches (.many repeated) before []
  | more {repeated : Pattern} {before front back : List Char}
    (leads : Matches repeated before front)
    (follows : Matches (.many repeated) (before ++ front) back)
    : Matches (.many repeated) before (front ++ back)

/-- A search for a pattern succeeds if it matches anywhere in the text. -/
def FoundIn (pattern : Pattern) (text : List Char) : Prop :=
  ∃ before found after, text = before ++ (found ++ after) ∧ pattern.Matches before found

variable {first second repeated : Pattern} {allowed : Char → Bool} {before found text : List Char}

-----------------------------------------------------------------------------------------
-- What each pattern matches
-----------------------------------------------------------------------------------------

@[simp] theorem matches_start
    : Matches .start before found ↔ before = [] ∧ found = [] := by
  constructor
  · intro fits
    cases fits
    exact ⟨rfl, rfl⟩
  · rintro ⟨rfl, rfl⟩
    exact .start

@[simp] theorem matches_one
    : Matches (.one allowed) before found ↔ ∃ c, found = [c] ∧ allowed c := by
  constructor
  · intro fits
    cases fits with
    | one fits => exact ⟨_, rfl, fits⟩
  · rintro ⟨c, rfl, fits⟩
    exact .one fits

theorem matches_both
    : Matches (.both first second) before found
      ↔ ∃ front back, found = front ++ back ∧ Matches first before front
          ∧ Matches second (before ++ front) back := by
  constructor
  · intro fits
    cases fits with
    | both leads follows => exact ⟨_, _, rfl, leads, follows⟩
  · rintro ⟨front, back, rfl, leads, follows⟩
    exact .both leads follows

@[simp] theorem matches_either
    : Matches (.either first second) before found
      ↔ Matches first before found ∨ Matches second before found := by
  constructor
  · intro fits
    cases fits with
    | left fits => exact .inl fits
    | right fits => exact .inr fits
  · rintro (fits | fits)
    · exact .left fits
    · exact .right fits

/-- Where a pattern does not depend on what is in front of it, its repetition matches what falls
into parts that it matches. -/
theorem matches_many {Part : List Char → Prop}
    (parts : ∀ before found, repeated.Matches before found ↔ Part found)
    : Matches (.many repeated) before found
      ↔ ∃ pieces : List (List Char), found = pieces.flatten ∧ ∀ piece ∈ pieces, Part piece := by
  constructor
  · intro fits
    generalize same : many repeated = pattern at fits
    induction fits with
    | start | one | both | left | right => cases same
    | none => exact ⟨[], rfl, by simp⟩
    | more leads _ _ ih =>
        obtain rfl := many.inj same
        obtain ⟨pieces, rfl, each⟩ := ih rfl
        exact ⟨_ :: pieces, rfl, List.forall_mem_cons.mpr ⟨(parts _ _).mp leads, each⟩⟩
  · rintro ⟨pieces, rfl, each⟩
    induction pieces generalizing before with
    | nil => exact .none
    | cons piece others ih =>
        obtain ⟨here, each⟩ := List.forall_mem_cons.mp each
        exact .more ((parts _ _).mpr here) (ih each)

/-- A pattern that asks for the start is found where it matches the front of a text. -/
theorem foundIn_start
    : (both .start second).FoundIn text
      ↔ ∃ found after, text = found ++ after ∧ second.Matches [] found := by
  constructor
  · rintro ⟨before, found, after, rfl, fits⟩
    obtain ⟨front, back, rfl, atStart, follows⟩ := matches_both.mp fits
    obtain ⟨rfl, rfl⟩ := matches_start.mp atStart
    exact ⟨back, after, rfl, follows⟩
  · rintro ⟨found, after, rfl, fits⟩
    exact ⟨[], found, after, rfl, .both .start fits⟩

end Pattern

end ScriptStyle.Text
