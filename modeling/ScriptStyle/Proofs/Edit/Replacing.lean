import ScriptStyle.Proofs.Edit.Validity

/-!
What comes of making edits. They are made from the back of a text to its front, each to the text
that the edits behind it have left. The result is the text with all of them made at once, and does
not depend on the order of the list.
-/

namespace ScriptStyle.Edit

open ScriptStyle.Text
open MergedFixes (editsInOrder)

variable {text middle result : List Char} {edits others : List Edit} {edit : Edit}

-----------------------------------------------------------------------------------------
-- One edit after another
-----------------------------------------------------------------------------------------

/-- Edits are made to a text one after another. Each replaces the characters between its offsets,
which are boundaries of the text that the edits before it have left. -/
inductive Makes : List Char → List Edit → List Char → Prop
  | nil {text : List Char} : Makes text [] text
  | cons {before middle after result : List Char} {edit : Edit} {others : List Edit}
      (opens : byteLength before = edit.span.start)
      (closes : byteLength (before ++ middle) = edit.span.stop)
      (rest : Makes (before ++ edit.replacement.toList ++ after) others result)
      : Makes (before ++ middle ++ after) (edit :: others) result

/-- An edit between two boundaries replaces what is between them. -/
theorem apply_append {before middle after : List Char}
    (opens : byteLength before = edit.span.start)
    (closes : byteLength (before ++ middle) = edit.span.stop)
    : apply (before ++ middle ++ after) edit = before ++ edit.replacement.toList ++ after := by
  have start : cutAt? (before ++ middle ++ after) edit.span.start
      = some (before, middle ++ after) :=
    cutAt?_eq_some.mpr ⟨List.append_assoc .., opens⟩
  have stop : cutAt? (before ++ middle ++ after) edit.span.stop = some (before ++ middle, after) :=
    cutAt?_eq_some.mpr ⟨rfl, closes⟩
  simp only [apply, start, stop]

namespace Makes

theorem foldl_apply (makes : Makes text edits result)
    : edits.foldl apply text = result := by
  induction makes with
  | nil => rfl
  | cons opens closes _ ih => rw [List.foldl_cons, apply_append opens closes, ih]

theorem append (first : Makes text edits middle) (second : Makes middle others result)
    : Makes text (edits ++ others) result := by
  induction first with
  | nil => exact second
  | cons opens closes _ ih => exact .cons opens closes (ih second)

end Makes

-----------------------------------------------------------------------------------------
-- All edits at once
-----------------------------------------------------------------------------------------

/-- The text from an offset on with edits in it that come in the order of their spans: the text
in front of each edit, what replaces its span, and the text behind the last. There is none where
an offset is no boundary or lies in front of the one before it. -/
def replacedFrom? (text : List Char) (offset : Nat) : List Edit → Option (List Char)
  | [] => slice? text offset (byteLength text)
  | edit :: others => do
      let kept ← slice? text offset edit.span.start
      let rest ← replacedFrom? text edit.span.stop others
      pure (kept ++ edit.replacement.toList ++ rest)

/-- Edits that follow one another can be made from the last to the first, which replaces them all
at once. Witness: making the later ones leaves the text in front of them as it was. -/
theorem makes_reverse {front tail : List Char} (whole : text = front ++ tail)
    (fits : ∀ edit ∈ edits, edit.Fits text)
    (leads : edits.Pairwise fun first second => first.span.Leads second.span)
    (beyond : ∀ edit ∈ edits, byteLength front ≤ edit.span.start)
    : ∃ changed, replacedFrom? text (byteLength front) edits = some changed
        ∧ Makes text edits.reverse (front ++ changed) := by
  induction edits generalizing front tail with
  | nil =>
      refine ⟨tail, ?_, whole ▸ .nil⟩
      have rest := slice?_append front tail []
      rwa [List.append_nil, ← whole, ← byteLength_append, ← whole] at rest
  | cons edit others ih =>
      obtain ⟨place, fits⟩ := List.forall_mem_cons.mp fits
      obtain ⟨next, leads⟩ := List.pairwise_cons.mp leads
      subst whole
      obtain ⟨kept, rest, rfl, opens⟩ :=
        split_of_isBoundary place.opens (beyond edit List.mem_cons_self)
      rw [← List.append_assoc] at place fits ih
      obtain ⟨replaced, after, rfl, closes⟩ :=
        split_of_isBoundary place.closes (opens ▸ place.ordered)
      have later : ∀ other ∈ others, byteLength (front ++ kept ++ replaced) ≤ other.span.start := by
        intro other member
        rw [closes]
        exact (next other member).between
      obtain ⟨changed, found, makes⟩ := ih (List.append_assoc ..).symm fits leads later
      refine ⟨kept ++ edit.replacement.toList ++ changed, ?_, ?_⟩
      · have cut := slice?_append front kept (replaced ++ after)
        rw [← byteLength_append, opens] at cut
        rw [closes, List.append_assoc] at found
        simp only [replacedFrom?, cut, found, Option.bind_eq_bind, Option.bind_some,
          Option.pure_def]
      · have last : Makes (front ++ kept ++ replaced ++ changed) [edit]
            (front ++ kept ++ edit.replacement.toList ++ changed) := .cons opens closes .nil
        have all := makes.append last
        rw [← List.reverse_cons] at all
        simpa only [List.append_assoc] using all

-----------------------------------------------------------------------------------------
-- Orders
-----------------------------------------------------------------------------------------

/-- Edits from the back of a text to its front. Of two with one start the longer comes first. -/
def backToFront (edits : List Edit) : List Edit :=
  edits.mergeSort fun first second => second.span.precedes first.span

/-- Edits that lie apart have one order from back to front, which is that of the source reversed. -/
theorem backToFront_eq (apart : edits.Pairwise fun first second => first.span.Apart second.span)
    : backToFront edits = (editsInOrder edits).reverse := by
  have sorted : (backToFront edits).Pairwise
      fun first second => second.span.precedes first.span := by
    apply List.pairwise_mergeSort
    · intro first second third behind before
      exact Span.precedes_trans before behind
    · intro first second
      exact Span.precedes_total
  have perm : (backToFront edits).Perm edits := List.mergeSort_perm ..
  rw [← List.reverse_eq_iff]
  apply @eq_of_perm_of_precedes Edit Edit.span
  · exact apart.perm ((List.reverse_perm _).trans perm).symm Span.Apart.symm
  · exact (List.reverse_perm _).trans (perm.trans (List.mergeSort_perm ..).symm)
  · exact List.pairwise_reverse.mpr sorted
  · exact pairwise_mergeSort Edit.span edits

/-- Whether a text takes edits does not depend on their order. -/
theorem validate_eq_ok_of_perm (valid : validate text edits = .ok ()) (same : others.Perm edits)
    : validate text others = .ok () := by
  obtain ⟨fits, agree⟩ := validate_eq_ok_iff.mp valid
  refine validate_eq_ok_iff.mpr ⟨fun edit member => fits edit (same.mem_iff.mp member), ?_⟩
  exact agree.perm same.symm fun agree => (conflicts_comm ..).trans agree

/-- The edits that a text takes lie apart. -/
theorem apart_of_validate (valid : validate text edits = .ok ())
    : edits.Pairwise fun first second => first.span.Apart second.span := by
  obtain ⟨fits, agree⟩ := validate_eq_ok_iff.mp valid
  exact agree.imp_of_mem fun member member' =>
    apart_of_not_conflicts (fits _ member).ordered (fits _ member').ordered

/-- Edits that a text takes are all made, and none where it would cut a character. However they
are listed, this gives what comes of replacing their spans at once, in the order of the source. -/
theorem made_at_once (valid : validate text edits = .ok ())
    : ∃ result, replacedFrom? text 0 (editsInOrder edits) = some result
        ∧ ∀ others, others.Perm edits →
            applyAll text others = .ok result ∧ Makes text (backToFront others) result := by
  have apart := apart_of_validate valid
  have perm : (editsInOrder edits).Perm edits := List.mergeSort_perm ..
  have fits : ∀ edit ∈ editsInOrder edits, edit.Fits text := fun edit member =>
    (validate_eq_ok_iff.mp valid).1 edit (perm.mem_iff.mp member)
  have leads : (editsInOrder edits).Pairwise fun first second => first.span.Leads second.span := by
    have sorted := pairwise_mergeSort Edit.span edits
    refine (sorted.and (apart.perm perm.symm Span.Apart.symm)).imp_of_mem ?_
    rintro first second member member' ⟨before, apart⟩
    exact .of_apart apart before (fits first member).ordered (fits second member').ordered
  obtain ⟨result, found, makes⟩ :=
    makes_reverse (List.nil_append text).symm fits leads fun _ _ => Nat.zero_le _
  rw [List.nil_append] at makes
  refine ⟨result, found, fun others same => ?_⟩
  have sorted : backToFront others = (editsInOrder edits).reverse := by
    rw [backToFront_eq (apart.perm same.symm Span.Apart.symm)]
    exact congrArg List.reverse (mergeSort_eq_of_perm (apart.perm same.symm Span.Apart.symm) same)
  rw [← sorted] at makes
  refine ⟨?_, makes⟩
  rw [applyAll, validate_eq_ok_of_perm valid same]
  exact congrArg Except.ok makes.foldl_apply

/-- An insertion in front of a replaced literal comes to stand before the replacement, although the
replacement is listed first and changes the length of the text. -/
theorem made_at_once_of_insertion
    : validate "x 'é';".toList
          [⟨⟨2, 2⟩, "= ", none⟩, ⟨⟨2, 6⟩, "0", none⟩, ⟨⟨6, 7⟩, "", none⟩] = .ok ()
      ∧ applyAll "x 'é';".toList [⟨⟨2, 6⟩, "0", none⟩, ⟨⟨6, 7⟩, "", none⟩, ⟨⟨2, 2⟩, "= ", none⟩]
        = .ok "x = 0".toList := by
  have valid : validate "x 'é';".toList
      [⟨⟨2, 2⟩, "= ", none⟩, ⟨⟨2, 6⟩, "0", none⟩, ⟨⟨6, 7⟩, "", none⟩] = .ok () := by
    rw [validate, List.mergeSort_of_pairwise (by decide)]
    rfl
  obtain ⟨result, found, made⟩ := made_at_once valid
  rw [editsInOrder, List.mergeSort_of_pairwise (by decide)] at found
  obtain rfl : "x = 0".toList = result := Option.some.inj found
  exact ⟨valid, (made _ (by decide)).1⟩

end ScriptStyle.Edit
