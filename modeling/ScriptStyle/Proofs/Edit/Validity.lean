import Mathlib.Tactic.SplitIfs
import ScriptStyle.Proofs.Edit.Apart

/-!
Which edits a text takes. Validation compares only edits that are next to each other in the order
of their spans; it finds a conflict whenever there is one, since of edits in that order each ends
before the next begins as long as no neighbours conflict.
-/

namespace ScriptStyle

-----------------------------------------------------------------------------------------
-- Spans in order
-----------------------------------------------------------------------------------------

namespace Span

/-- Two well-ordered spans of which the first ends before the second begins. They may touch, but
are not both empty at one place. -/
structure Leads (first second : Span) : Prop where
  opens : first.start ≤ first.stop
  between : first.stop ≤ second.start
  closes : second.start ≤ second.stop
  differ : first.start < second.stop

variable {first second third : Span}

/-- What lies between two spans in order is in order with both. -/
theorem Leads.trans (leads : Leads first second) (follows : Leads second third)
    : Leads first third := by
  have middle := leads.closes
  have before := leads.between
  have behind := follows.between
  have differ := leads.differ
  have last := follows.closes
  exact ⟨leads.opens, by omega, last, by omega⟩

instance : Trans Leads Leads Leads where
  trans := Leads.trans

theorem Leads.apart (leads : Leads first second)
    : first.Apart second :=
  apart_of_le leads.between leads.differ

/-- Of two spans that lie apart the one that precedes ends before the other begins. -/
theorem Leads.of_apart (apart : first.Apart second) (before : first.precedes second)
    (opens : first.start ≤ first.stop) (closes : second.start ≤ second.stop)
    : Leads first second := by
  obtain ⟨distinct, beside⟩ := apart
  obtain ⟨start, stop⟩ := first
  obtain ⟨start', stop'⟩ := second
  simp only [ne_eq, mk.injEq, precedes_iff] at distinct beside before opens closes ⊢
  exact ⟨opens, by simp only; omega, closes, by simp only; omega⟩

end Span

namespace Edit

variable {text : List Char} {edits : List Edit} {edit first second : Edit} {index : Nat}

-----------------------------------------------------------------------------------------
-- One edit
-----------------------------------------------------------------------------------------

/-- An edit has a place in a text: its ends are boundaries of the text in order. -/
structure Fits (text : List Char) (edit : Edit) : Prop where
  ordered : edit.span.start ≤ edit.span.stop
  inside : edit.span.stop ≤ Text.byteLength text
  opens : Text.isBoundary text edit.span.start
  closes : Text.isBoundary text edit.span.stop

/-- An edit has a fault of its own unless it fits the text. -/
theorem fault?_eq_none_iff
    : fault? text index edit = none ↔ edit.Fits text := by
  constructor
  · intro faultless
    simp only [fault?, Bool.or_eq_true, decide_eq_true_eq, Bool.not_eq_true'] at faultless
    split_ifs at faultless with bounds opens closes
    rw [not_or, Nat.not_lt, Nat.not_lt] at bounds
    rw [Bool.not_eq_false] at opens closes
    exact ⟨bounds.2, bounds.1, opens, closes⟩
  · intro fits
    have bounds : ¬(edit.span.stop > Text.byteLength text ∨ edit.span.start > edit.span.stop) := by
      have ordered := fits.ordered
      have inside := fits.inside
      omega
    simp [fault?, bounds, fits.opens, fits.closes]

instance (text : List Char) (edit : Edit) : Decidable (edit.Fits text) :=
  decidable_of_iff _ (@fault?_eq_none_iff text edit 0)

/-- An edit between two boundaries has no fault of its own. -/
theorem fault?_eq_none (inside : edit.span.stop ≤ Text.byteLength text)
    (ordered : edit.span.start ≤ edit.span.stop)
    (start : Text.isBoundary text edit.span.start) (stop : Text.isBoundary text edit.span.stop)
    : fault? text index edit = none :=
  fault?_eq_none_iff.mpr ⟨ordered, inside, start, stop⟩

-----------------------------------------------------------------------------------------
-- Two edits
-----------------------------------------------------------------------------------------

theorem conflicts_comm (first second : Edit)
    : first.conflicts second = second.conflicts first := by
  rw [Bool.eq_iff_iff]
  simp only [conflicts, overlaps, isInsertion, Bool.or_eq_true, Bool.and_eq_true,
    decide_eq_true_eq, beq_iff_eq]
  omega

/-- Well-ordered edits conflict unless their spans lie apart. -/
theorem apart_of_not_conflicts (opens : first.span.start ≤ first.span.stop)
    (closes : second.span.start ≤ second.span.stop) (agree : first.conflicts second = false)
    : first.span.Apart second.span := by
  rw [← Bool.not_eq_true] at agree
  simp only [conflicts, overlaps, isInsertion, Bool.or_eq_true, Bool.and_eq_true,
    decide_eq_true_eq, beq_iff_eq] at agree
  refine ⟨fun same => ?_, by omega⟩
  rw [same] at agree
  omega

-----------------------------------------------------------------------------------------
-- Neighbours
-----------------------------------------------------------------------------------------

section Neighbours

variable {numbered : List (Edit × Nat)}

/-- In the order of their spans edits follow one another if no neighbours conflict.
Witness: neighbours follow one another, and this is carried from each to the next. -/
theorem pairwise_leads (ordered : ∀ entry ∈ numbered, entry.1.span.start ≤ entry.1.span.stop)
    (sorted : numbered.Pairwise fun first second => first.1.span.precedes second.1.span)
    (calm : conflictingNeighbours? numbered = none)
    : numbered.Pairwise fun first second => first.1.span.Leads second.1.span := by
  have carried
      : @Trans (Edit × Nat) (Edit × Nat) (Edit × Nat)
          (fun first second => first.1.span.Leads second.1.span)
          (fun first second => first.1.span.Leads second.1.span)
          (fun first second => first.1.span.Leads second.1.span) :=
    ⟨Span.Leads.trans⟩
  apply List.IsChain.pairwise
  fun_induction conflictingNeighbours? numbered with
  | case1 first second rest conflict => cases calm
  | case2 first second rest agree ih =>
      obtain ⟨opens, later⟩ := List.forall_mem_cons.mp ordered
      have closes := later second List.mem_cons_self
      have before := List.rel_of_pairwise_cons sorted List.mem_cons_self
      have apart := apart_of_not_conflicts opens closes (Bool.eq_false_iff.mpr agree)
      exact .cons_cons (.of_apart apart before opens closes) (ih later sorted.of_cons calm)
  | case3 numbered short =>
      match numbered, short with
      | [], _ => exact .nil
      | [_], _ => exact .singleton _
      | first :: second :: rest, short => exact absurd rfl (short first second rest)

theorem conflictingNeighbours?_eq_none
    (agree : numbered.Pairwise fun first second => first.1.conflicts second.1 = false)
    : conflictingNeighbours? numbered = none := by
  fun_induction conflictingNeighbours? numbered with
  | case1 first second rest conflict =>
      have apart := List.rel_of_pairwise_cons agree List.mem_cons_self
      exact absurd conflict (by simp [apart])
  | case2 first second rest _ ih => exact ih agree.of_cons
  | case3 => rfl

/-- Neighbours that conflict are named with the lower number first. -/
theorem conflictingNeighbours?_eq_some {fault : RewriteError}
    (found : conflictingNeighbours? numbered = some fault)
    : ∃ first second, [first, second].Sublist numbered ∧ first.1.conflicts second.1
        ∧ fault = .overlapping (min first.2 second.2) (max first.2 second.2) := by
  fun_induction conflictingNeighbours? numbered with
  | case1 first second rest conflict =>
      have pair : [first, second].Sublist (first :: second :: rest) :=
        (List.nil_sublist rest).cons_cons second |>.cons_cons first
      exact ⟨first, second, pair, conflict, (Option.some.inj found).symm⟩
  | case2 first second rest _ ih =>
      obtain ⟨one, other, pair, conflict, same⟩ := ih found
      exact ⟨one, other, pair.cons first, conflict, same⟩
  | case3 => cases found

end Neighbours

-----------------------------------------------------------------------------------------
-- Lists of edits
-----------------------------------------------------------------------------------------

/-- The edits of a list with their places in it, in the order of their spans. -/
def numberedInOrder (edits : List Edit) : List (Edit × Nat) :=
  edits.zipIdx.mergeSort fun first second => first.1.span.precedes second.1.span

theorem numberedInOrder_perm (edits : List Edit)
    : (numberedInOrder edits).Perm edits.zipIdx :=
  List.mergeSort_perm ..

/-- A relation between all edits of a list, in whichever order, is one between the numbered. -/
theorem pairwise_numberedInOrder {relation : Edit → Edit → Prop}
    (symm : ∀ {first second}, relation first second → relation second first)
    : (numberedInOrder edits).Pairwise (fun first second => relation first.1 second.1)
      ↔ edits.Pairwise relation := by
  have numbered : edits.zipIdx.Pairwise (fun first second => relation first.1 second.1)
      ↔ edits.Pairwise relation := by
    rw [← List.pairwise_map (f := Prod.fst), List.zipIdx_map_fst]
  rw [← numbered]
  exact (numberedInOrder_perm edits).pairwise_iff symm

/-- No fault is found exactly if every edit fits the text. -/
theorem faultless_iff
    : edits.zipIdx.findSome? (fun entry => fault? text entry.2 entry.1) = none
      ↔ ∀ edit ∈ edits, edit.Fits text := by
  rw [List.findSome?_eq_none_iff]
  constructor
  · intro faultless edit member
    rw [← List.zipIdx_map_fst 0 edits] at member
    obtain ⟨entry, present, rfl⟩ := List.mem_map.mp member
    exact fault?_eq_none_iff.mp (faultless entry present)
  · intro fits entry member
    exact fault?_eq_none_iff.mpr (fits entry.1 (List.fst_mem_of_mem_zipIdx member))

/-- Edits that fit a text follow one another in the order of their spans if no neighbours in that
order conflict. -/
theorem pairwise_leads_numberedInOrder (fits : ∀ edit ∈ edits, edit.Fits text)
    (calm : conflictingNeighbours? (numberedInOrder edits) = none)
    : (numberedInOrder edits).Pairwise fun first second => first.1.span.Leads second.1.span := by
  have ordered : ∀ entry ∈ numberedInOrder edits, entry.1.span.start ≤ entry.1.span.stop := by
    intro entry member
    have present := (numberedInOrder_perm edits).mem_iff.mp member
    exact (fits entry.1 (List.fst_mem_of_mem_zipIdx present)).ordered
  exact pairwise_leads ordered (pairwise_mergeSort (fun entry => entry.1.span) edits.zipIdx) calm

/-- A text takes edits exactly if each fits the text and no two of them conflict. -/
theorem validate_eq_ok_iff
    : validate text edits = .ok ()
      ↔ (∀ edit ∈ edits, edit.Fits text)
        ∧ edits.Pairwise fun first second => first.conflicts second = false := by
  have symm {first second : Edit} (agree : first.conflicts second = false)
      : second.conflicts first = false := by
    rw [conflicts_comm, agree]
  constructor
  · intro valid
    simp only [validate] at valid
    split at valid
    · cases valid
    · next faultless =>
        split at valid
        · cases valid
        · next calm =>
            have fits := faultless_iff.mp faultless
            refine ⟨fits, (pairwise_numberedInOrder symm).mp ?_⟩
            exact (pairwise_leads_numberedInOrder fits calm).imp fun leads =>
              not_conflicts leads.apart
  · rintro ⟨fits, agree⟩
    have calm := conflictingNeighbours?_eq_none ((pairwise_numberedInOrder symm).mpr agree)
    rw [numberedInOrder] at calm
    simp only [validate, faultless_iff.mpr fits, calm]

/-- Edits between boundaries of a text whose spans lie apart can be applied to it. -/
theorem validate_eq_ok (inside : ∀ edit ∈ edits, ∀ index, fault? text index edit = none)
    (apart : edits.Pairwise fun first second => first.span.Apart second.span)
    : validate text edits = .ok () :=
  validate_eq_ok_iff.mpr
    ⟨fun edit member => fault?_eq_none_iff.mp (inside edit member 0), apart.imp not_conflicts⟩

-----------------------------------------------------------------------------------------
-- Errors
-----------------------------------------------------------------------------------------

/-- What an error tells of edits and the text that does not take them. An edit that is at fault by
itself is the first such edit of the list; only where there is none are conflicts looked for. -/
inductive Explains (text : List Char) (edits : List Edit) : RewriteError → Prop
  | overlapping {place later : Nat} {first second : Edit}
      (fits : ∀ edit ∈ edits, edit.Fits text) (before : place < later)
      (here : edits[place]? = some first) (there : edits[later]? = some second)
      (conflict : first.conflicts second) : Explains text edits (.overlapping place later)
  | outOfBounds {place : Nat} {edit : Edit}
      (earlier : ∀ other ∈ edits.take place, other.Fits text) (here : edits[place]? = some edit)
      (outside : Text.byteLength text < edit.span.stop ∨ edit.span.stop < edit.span.start)
      : Explains text edits (.outOfBounds place edit.span.stop (Text.byteLength text))
  | splitCharacter {place offset : Nat} {edit : Edit}
      (earlier : ∀ other ∈ edits.take place, other.Fits text) (here : edits[place]? = some edit)
      (ordered : edit.span.start ≤ edit.span.stop)
      (inside : edit.span.stop ≤ Text.byteLength text)
      (edge : offset = edit.span.start ∨ offset = edit.span.stop)
      (split : Text.isBoundary text offset = false)
      : Explains text edits (.splitCharacter place offset)

/-- The first fault is that of an edit behind edits that fit. -/
theorem explains_of_fault? {fault : RewriteError}
    (found : edits.zipIdx.findSome? (fun entry => fault? text entry.2 entry.1) = some fault)
    : Explains text edits fault := by
  obtain ⟨before, entry, after, split, found, none⟩ := List.findSome?_eq_some_iff.mp found
  obtain ⟨front, back, rfl, rfl, rest⟩ := List.zipIdx_eq_append_iff.mp split
  obtain ⟨edit, behind, rfl, rfl, -⟩ := List.zipIdx_eq_cons_iff.mp rest.symm
  have place : front.length = 0 + front.length := (Nat.zero_add _).symm
  rw [← place] at found
  have here : (front ++ edit :: behind)[front.length]? = some edit := by simp
  have earlier : ∀ other ∈ (front ++ edit :: behind).take front.length, other.Fits text := by
    rw [List.take_left]
    exact faultless_iff.mp (List.findSome?_eq_none_iff.mpr none)
  simp only [fault?, Bool.or_eq_true, decide_eq_true_eq, Bool.not_eq_true'] at found
  split_ifs at found with bounds opens closes
  · obtain rfl := Option.some.inj found
    exact .outOfBounds earlier here bounds
  all_goals
    rw [not_or, Nat.not_lt, Nat.not_lt] at bounds
    obtain rfl := Option.some.inj found
  · exact .splitCharacter earlier here bounds.2 bounds.1 (.inl rfl) opens
  · exact .splitCharacter earlier here bounds.2 bounds.1 (.inr rfl) closes

/-- Neighbours that conflict are two edits of the list, named in the order of the list. -/
theorem explains_of_conflictingNeighbours? {fault : RewriteError}
    (fits : ∀ edit ∈ edits, edit.Fits text)
    (found : conflictingNeighbours? (numberedInOrder edits) = some fault)
    : Explains text edits fault := by
  obtain ⟨⟨one, place⟩, ⟨other, place'⟩, pair, conflict, rfl⟩ :=
    conflictingNeighbours?_eq_some found
  have perm := numberedInOrder_perm edits
  have here := List.mem_zipIdx_iff_getElem?.mp (perm.mem_iff.mp (pair.subset List.mem_cons_self))
  have there := List.mem_zipIdx_iff_getElem?.mp
    (perm.mem_iff.mp (pair.subset (List.mem_cons_of_mem _ List.mem_cons_self)))
  have distinct : place ≠ place' := by
    have numbers : (edits.zipIdx.map Prod.snd).Nodup := by
      rw [List.zipIdx_map_snd]
      exact List.nodup_range'
    have pairs := ((perm.map Prod.snd).nodup_iff.mpr numbers).sublist (pair.map Prod.snd)
    simpa using pairs
  simp only at here there conflict ⊢
  rcases Nat.lt_or_gt_of_ne distinct with before | behind
  · rw [Nat.min_eq_left (Nat.le_of_lt before), Nat.max_eq_right (Nat.le_of_lt before)]
    exact .overlapping fits before here there conflict
  · rw [Nat.min_eq_right (Nat.le_of_lt behind), Nat.max_eq_left (Nat.le_of_lt behind)]
    exact .overlapping fits behind there here ((conflicts_comm other one).trans conflict)

/-- No two edits at different places of a list conflict. Which comes first does not matter. -/
theorem pairwise_agree_iff
    : edits.Pairwise (fun first second => first.conflicts second = false)
      ↔ ∀ (place later : Nat) (first second : Edit), edits[place]? = some first →
          edits[later]? = some second → place ≠ later → first.conflicts second = false := by
  rw [List.pairwise_iff_getElem]
  constructor
  · intro agree place later first second here there distinct
    obtain ⟨bound, rfl⟩ := List.getElem?_eq_some_iff.mp here
    obtain ⟨bound', rfl⟩ := List.getElem?_eq_some_iff.mp there
    rcases Nat.lt_or_gt_of_ne distinct with before | behind
    · exact agree place later bound bound' before
    · rw [conflicts_comm]
      exact agree later place bound' bound behind
  · intro agree place later bound bound' before
    exact agree place later _ _ (List.getElem?_eq_getElem bound) (List.getElem?_eq_getElem bound')
      (Nat.ne_of_lt before)

/-- Validation is exact: a text takes edits if and only if each fits it and no two of them
conflict, and otherwise the error tells which edit is at fault, or which two conflict. -/
theorem validate_exact (text : List Char) (edits : List Edit)
    : (validate text edits = .ok ()
        ↔ (∀ edit ∈ edits, edit.Fits text)
          ∧ ∀ (place later : Nat) (first second : Edit), edits[place]? = some first →
              edits[later]? = some second → place ≠ later → first.conflicts second = false)
      ∧ ∀ error, validate text edits = .error error → Explains text edits error := by
  refine ⟨by rw [validate_eq_ok_iff, pairwise_agree_iff], fun error failed => ?_⟩
  simp only [validate] at failed
  split at failed
  · next fault found =>
      obtain rfl := Except.error.inj failed
      exact explains_of_fault? found
  · next faultless =>
      split at failed
      · next fault found =>
          obtain rfl := Except.error.inj failed
          exact explains_of_conflictingNeighbours? (faultless_iff.mp faultless) found
      · cases failed

/-- An insertion inside a replaced literal conflicts with the replacement; one at the end of the
literal does not. -/
theorem validate_exact_of_insertions
    : Explains "x 'é'".toList [⟨⟨2, 6⟩, "0", none⟩, ⟨⟨5, 5⟩, ";", none⟩, ⟨⟨6, 6⟩, ";", none⟩]
        (.overlapping 0 1)
      ∧ ∀ edit ∈ [(⟨⟨2, 6⟩, "0", none⟩ : Edit), ⟨⟨6, 6⟩, ";", none⟩], edit.Fits "x 'é'".toList := by
  have conflict : validate "x 'é'".toList
      [⟨⟨2, 6⟩, "0", none⟩, ⟨⟨5, 5⟩, ";", none⟩, ⟨⟨6, 6⟩, ";", none⟩]
      = .error (.overlapping 0 1) := by
    rw [validate, List.mergeSort_of_pairwise (by decide)]
    rfl
  have valid : validate "x 'é'".toList [⟨⟨2, 6⟩, "0", none⟩, ⟨⟨6, 6⟩, ";", none⟩] = .ok () := by
    rw [validate, List.mergeSort_of_pairwise (by decide)]
    rfl
  exact ⟨(validate_exact _ _).2 _ conflict, ((validate_exact _ _).1.mp valid).1⟩

end Edit

end ScriptStyle
