import Mathlib.Data.List.Forall2
import ScriptStyle.Proofs.Grammar.Layout.Source
import ScriptStyle.Proofs.Scanner.Newlines
import ScriptStyle.Proofs.Style.SemicolonsAccounted
import ScriptStyle.Proofs.Tree.LastElements
import ScriptStyle.Proofs.Tree.Places

/-!
Where every statement ends with a semicolon, the rule on semicolons asks for one at the end of
each construct, save the last in a body on one line where the options want none. The rule goes by
the token behind a construct. That it finds the last elements of bodies so is shown here.
-/

namespace ScriptStyle

open ScriptStyle.Text

/-- Where a construct stands that may end with a semicolon. -/
def Node.ending? : Node → Option Extent
  | .statement value => if Semicolons.isTerminated value then some value.extent else none
  | .classMember (.field _ _ _ extent) => some extent
  | _ => none

/-- A construct that may end with a semicolon stands at a place. -/
def Program.EndsAt (program : Program) (path : List Nat) (extent : Extent) : Prop :=
  ∃ node, program.nodeAt? path = some node ∧ node.ending? = some extent

namespace ParsedSource

/-- No line ends in a span of a source. -/
def OnOneLine (parsed : ParsedSource) (span : Span) : Prop :=
  ∀ c ∈ slice parsed.source.toList span.start span.stop, isLineTerminator c = false

/-- What stands at a place is the last element of a block on one line, or of such a class body,
and the options want no semicolon there. The span of a block or class body is that from its
opening to its closing brace. -/
def OmittableAt (parsed : ParsedSource) (options : SemicolonOptions) (path : List Nat) : Prop :=
  ∃ outer index holder, path = outer ++ [index] ∧ parsed.program.nodeAt? outer = some holder
    ∧ index + 1 = holder.children.length
    ∧ ((options.omitLastInBlock ∧ ∃ block, holder = .block block ∧ parsed.OnOneLine block.span)
      ∨ (options.omitLastInClassBody
        ∧ ∃ definition, holder = .class definition ∧ parsed.OnOneLine definition.span))

/-- A report on the construct at a place: an extra semicolon on its last token, which is one, or
a missing semicolon at its end, where there is none. -/
def ReportedAt (parsed : ParsedSource) (path : List Nat) (found : Diagnostic) : Prop :=
  ∃ extent last, parsed.program.EndsAt path extent
    ∧ parsed.tokens.toList[extent.tokens.last]? = some last
    ∧ (last.isPunctuator ";" ∧ found.problem = .extraSemicolon ∧ found.span = last.span
      ∨ last.isPunctuator ";" = false ∧ found.problem = .missingSemicolon
        ∧ found.span = ⟨extent.span.stop, extent.span.stop⟩)

end ParsedSource

-----------------------------------------------------------------------------------------
-- Bodies on one line
-----------------------------------------------------------------------------------------

/-- A body is on one line exactly if no line ends between its braces. -/
theorem ParsedSource.Read.sameLine_iff_onOneLine {parsed : ParsedSource} (read : parsed.Read)
    {body : Body} {opening closing : Nat}
    (braced : body.BracedAt parsed.tokens.toList opening closing)
    : (LineIndex.ofText parsed.source.toList).sameLine body.span.start body.span.stop
      ↔ parsed.OnOneLine body.span := by
  obtain ⟨first, here, -, start⟩ := braced.opens
  obtain ⟨last, there, closes, stop⟩ := braced.closes
  obtain ⟨_, trail⟩ := read.trail
  have before : opening < closing := by
    obtain ⟨count, -, rfl⟩ := Option.map_eq_some_iff.mp braced.matching
    omega
  have ordered := trail.ordered_at here there before
  obtain ⟨front, rest, split, begins, -⟩ := trail.cut (List.mem_of_getElem? here)
  obtain ⟨most, after, split', begins', ends⟩ := trail.cut (List.mem_of_getElem? there)
  simp only [Token.isPunctuator, Bool.and_eq_true, beq_iff_eq] at closes
  rw [closes.2] at split' ends
  have offset : (Scanner.ofSource parsed.source).offset = 0 := rfl
  have size : byteLength "\x7d".toList = byteLength ['\x7d'] := rfl
  obtain ⟨gap, rfl, -⟩ := append_eq_append_of_le (split.symm.trans split') (by omega)
  have whole : parsed.source.toList = front ++ (gap ++ '\x7d' :: after) := by
    rw [← List.append_assoc]
    exact split'
  have start' : body.span.start = byteLength front := by omega
  have stop' : body.span.stop = byteLength front + byteLength (gap ++ ['\x7d']) := by
    simp only [byteLength_append] at begins' ⊢
    omega
  have cut : slice parsed.source.toList body.span.start body.span.stop = gap ++ ['\x7d'] := by
    rw [whole, start', stop', List.append_cons gap]
    exact slice_append front (gap ++ ['\x7d']) after
  have same
      : (LineIndex.ofText (front ++ (gap ++ '\x7d' :: after))).sameLine (byteLength front)
          (byteLength (front ++ (gap ++ ['\x7d'])))
        = !(gap ++ ['\x7d']).any isLineTerminator :=
    LineIndex.sameLine_of_closed rfl
  rw [ParsedSource.OnOneLine, cut, whole, start', stop', ← byteLength_append, same,
    Bool.not_eq_true', List.any_eq_false]
  simp only [Bool.not_eq_true]

-----------------------------------------------------------------------------------------
-- Constructs
-----------------------------------------------------------------------------------------

/-- Where every statement ends with a semicolon, something is reported of a construct exactly if
it has one and should not, or should and has none. -/
theorem Semicolons.isSome_checkEnd?_of_always {context : RuleContext} {options : SemicolonOptions}
    {construct : Terminated} {enclosing : Enclosing} {last : Token} (mode : options.mode = .always)
    : (checkEnd? context options construct enclosing last).isSome
      ↔ (last.isPunctuator ";"
        ↔ isOmitted context options enclosing
          ((Neighbour.next? context.tokens construct.extent.tokens.last).map Prod.fst)) := by
  simp only [checkEnd?, mode]
  generalize isOmitted context options enclosing _ = omitted
  cases last.isPunctuator ";" <;> cases omitted <;> simp

namespace Visit

variable {visit : Visit} {part : Shown} {extent : Extent}

/-- A visit to a construct shows it with what encloses it, and shows nothing else by itself. -/
theorem own_of_ending? (ends : visit.node.ending? = some extent)
    : ∃ part construct, visit.own = [part]
        ∧ Semicolons.terminated? part = some (construct, visit.enclosing)
        ∧ construct.extent = extent := by
  obtain ⟨node, enclosing, site⟩ := visit
  unfold Node.ending? at ends
  split at ends
  · next value same =>
      cases same
      obtain ⟨terminated, same⟩ := Option.ite_none_right_eq_some.mp ends
      refine ⟨_, .statement value, rfl, ?_, Option.some.inj same⟩
      simp [Semicolons.terminated?, terminated]
  · next key value isStatic _ same =>
      cases same
      exact ⟨_, _, rfl, rfl, Option.some.inj ends⟩
  · cases ends

/-- A construct that a visit shows by itself is its node. -/
theorem ending?_of_mem_own (own : part ∈ visit.own) (ends : part.ending? = some extent)
    : visit.node.ending? = some extent := by
  have terminated (value : Statement) (enclosing : Enclosing)
      (ends : (Shown.statement value enclosing).ending? = some extent)
      : (Node.statement value).ending? = some extent := by
    rw [Shown.ending?, Semicolons.terminated?] at ends
    rw [Node.ending?]
    split at ends <;> simp_all [Semicolons.Terminated.extent]
  unfold Visit.own at own
  split at own
  case h_1 =>
    obtain rfl := List.mem_singleton.mp own
    exact terminated _ _ ends
  case h_2 member _ _ =>
    obtain rfl := List.mem_singleton.mp own
    cases member <;> first | cases ends; rfl | cases ends
  case h_3 | h_4 | h_5 | h_6 | h_7 =>
    obtain rfl := List.mem_singleton.mp own
    cases ends
  case h_8 => cases own

end Visit

theorem Node.extent?_of_ending? {node : Node} {extent : Extent} (ends : node.ending? = some extent)
    : node.extent? = some extent := by
  unfold Node.ending? at ends
  split at ends
  · exact (Option.ite_none_right_eq_some.mp ends).2
  · exact ends
  · cases ends

namespace ParsedSource

variable {source : String} {parsed : ParsedSource} {options : SemicolonOptions}
  {outer path : List Nat} {index : Nat} {visit : Visit} {extent : Extent}

theorem omittableAt_concat_iff {holder : Node} (upper : parsed.program.nodeAt? outer = some holder)
    : parsed.OmittableAt options (outer ++ [index])
      ↔ index + 1 = holder.children.length
        ∧ ((options.omitLastInBlock ∧ ∃ block, holder = .block block ∧ parsed.OnOneLine block.span)
          ∨ (options.omitLastInClassBody
            ∧ ∃ definition, holder = .class definition ∧ parsed.OnOneLine definition.span)) := by
  constructor
  · rintro ⟨other, position, node, same, upper', last, wanted⟩
    obtain ⟨rfl, ⟨⟩⟩ := List.append_inj' same rfl
    obtain rfl := Option.some.inj (upper.symm.trans upper')
    exact ⟨last, wanted⟩
  · rintro ⟨last, wanted⟩
    exact ⟨outer, index, holder, rfl, upper, last, wanted⟩

/-- Only elements of blocks and class bodies are omittable. -/
theorem not_omittableAt_of_body?_eq_none {holder : Node}
    (upper : parsed.program.nodeAt? outer = some holder) (none : holder.body? = none)
    : ¬parsed.OmittableAt options (outer ++ [index]) := by
  rw [omittableAt_concat_iff upper]
  rintro ⟨-, ⟨-, block, rfl, -⟩ | ⟨-, definition, rfl, -⟩⟩ <;> cases none

/-- A closing brace follows an element of a block or class body on one line exactly if it is the
last one. -/
theorem isLastOnOneLine_iff {holder inner : Node} {body : Body}
    (run : parse source = .ok parsed) (upper : parsed.program.nodeAt? outer = some holder)
    (holds : holder.body? = some body) (here : holder.children[index]? = some inner)
    (ends : inner.ending? = some extent)
    : Semicolons.isLastOnOneLine (.ofSource parsed)
          ((Neighbour.next? parsed.tokens extent.tokens.last).map Prod.fst) body.span
      ↔ index + 1 = holder.children.length ∧ parsed.OnOneLine body.span := by
  have contains := Program.contains_iff.mpr ⟨outer, upper⟩
  obtain ⟨_, ⟨-, -, -, bodies, children⟩, -⟩ := fits_of_parse run contains
  obtain ⟨opening, closing, braced⟩ := bodies _ holds
  have closes := Node.closes_behind_iff holds braced
    (fun child direct extent found => by
      obtain ⟨-, -, fits, -, -⟩ := children child direct
      exact fits extent found)
    here (Node.extent?_of_ending? ends)
  rw [Semicolons.isLastOnOneLine, Bool.and_eq_true, Neighbour.map_next?, closes]
  exact and_congr_right fun _ => (read_of_parse run).sameLine_iff_onOneLine braced

/-- The rule takes a construct for one that has no semicolon in accord with its place. -/
theorem isOmitted_iff (run : parse source = .ok parsed)
    (found : parsed.program.visitAt? path = some visit) (ends : visit.node.ending? = some extent)
    : Semicolons.isOmitted (.ofSource parsed) options visit.enclosing
          ((Neighbour.next? parsed.tokens extent.tokens.last).map Prod.fst)
      ↔ parsed.OmittableAt options path := by
  rcases Program.visitAt?_cases found with ⟨index, statement, rfl, rfl⟩
    | ⟨outer, index, above, rfl, upper, hands⟩
  · refine iff_of_false nofun ?_
    rintro ⟨outer, _, _, same, upper, -⟩
    obtain rfl : [] = outer := List.append_inj_left' same rfl
    cases upper
  · have upper := Program.nodeAt?_of_visitAt? upper
    have place := Program.child_of_nodeAt? upper (Program.nodeAt?_of_visitAt? found)
    cases hands with
    | @element holder | @classElement holder =>
        have last :=
          isLastOnOneLine_iff run upper (rfl : Node.body? _ = some ⟨holder.span, _⟩) place ends
        rw [omittableAt_concat_iff upper, Semicolons.isOmitted, Bool.and_eq_true, last]
        simp [and_left_comm]
    | clauseElement clause =>
        refine iff_of_false nofun (not_omittableAt_of_body?_eq_none upper ?_)
        obtain ⟨_, same⟩ := clause
        rw [same]
        rfl
    | other enclosing element =>
        have isElement : visit.node.extent? = some extent := Node.extent?_of_ending? ends
        rw [enclosing]
        exact iff_of_false nofun
          (not_omittableAt_of_body?_eq_none upper (element (by simp [isElement])))

/-- In a source where every statement ends with a semicolon, a construct is reported exactly if it
has a semicolon and is omittable, or has none and is not. -/
theorem isSome_check?_iff {part : Shown} (run : parse source = .ok parsed)
    (mode : options.mode = .always) (found : parsed.program.visitAt? path = some visit)
    (own : part ∈ visit.own) (ends : visit.node.ending? = some extent)
    : (Semicolons.check? (.ofSource parsed) options part).isSome
      ↔ (isSemicolonAt parsed.tokens.toList extent.tokens.last
        ↔ parsed.OmittableAt options path) := by
  obtain ⟨_, construct, single, terminated, rfl⟩ := Visit.own_of_ending? ends
  rw [single, List.mem_singleton] at own
  subst own
  have shown : part ∈ parsed.program.shown :=
    Program.mem_shown_iff.mpr ⟨path, visit, found, single ▸ List.mem_singleton_self _⟩
  obtain ⟨last, here, -⟩ := (read_of_parse run).token_of_ending shown
    (show part.ending? = some construct.extent by simp [Shown.ending?, terminated])
  have lookup : (RuleContext.ofSource parsed).tokens[construct.extent.tokens.last]? = some last :=
    (getElem?_tokens _).symm.trans here
  simp only [Semicolons.check?, terminated, lookup, Option.bind_eq_bind, Option.bind_some]
  rw [Semicolons.isSome_checkEnd?_of_always mode, isSemicolonAt, here, Option.any_some]
  exact iff_congr Iff.rfl (isOmitted_iff run found ends)

/-- What is reported of a construct is reported of its place. -/
theorem reportedAt_of_check {part : Shown} {report : Diagnostic} (run : parse source = .ok parsed)
    (found : parsed.program.visitAt? path = some visit) (own : part ∈ visit.own)
    (check : Semicolons.check? (.ofSource parsed) options part = some report)
    : parsed.ReportedAt path report := by
  obtain ⟨extent, last, ending, here, reports⟩ := Semicolons.report_of_check check
  have ends := Visit.ending?_of_mem_own own ending
  have there := Program.nodeAt?_of_visitAt? found
  have contains := Program.contains_iff.mpr ⟨path, there⟩
  obtain ⟨token, lookup, -, stop⟩ :=
    ((laid_out run).extents _ extent contains (Node.extent?_of_ending? ends)).last
  replace here : parsed.tokens.toList[extent.tokens.last]? = some last :=
    (getElem?_tokens _).trans here
  obtain rfl := Option.some.inj (lookup.symm.trans here)
  refine ⟨extent, token, ⟨_, there, ends⟩, here, ?_⟩
  rcases reports with ⟨semicolon, rfl⟩ | ⟨none, rfl⟩
  · exact .inl ⟨semicolon, rfl, rfl⟩
  · exact .inr ⟨none, rfl, by rw [← stop]; rfl⟩

/-- A construct is shown at one place. -/
theorem path_unique {place : List Nat} {other : Visit} {part second : Shown} {extent' : Extent}
    (read : parsed.Read) (found : parsed.program.visitAt? path = some visit)
    (there : parsed.program.visitAt? place = some other) (own : part ∈ visit.own)
    (own' : second ∈ other.own) (ending : part.ending? = some extent)
    (ending' : second.ending? = some extent') (same : extent.tokens.last = extent'.tokens.last)
    : path = place := by
  by_contra differ
  have pair := Visit.pair_subperm_of_placed? found there differ own own'
  rw [Program.flatMap_visits_shown] at pair
  obtain ⟨_, perm, sub⟩ := pair
  have distinct : (endIndices [part, second]).Nodup :=
    (perm.filterMap _).nodup_iff.mp (read.ends.sublist (sub.filterMap _))
  simp [ending, ending', same] at distinct

end ParsedSource

-----------------------------------------------------------------------------------------
-- All reports
-----------------------------------------------------------------------------------------

/-- What a partial function gives for some items comes from those for which it is defined. -/
theorem forall₂_filterMap {α β : Type} (f : α → Option β) (items : List α)
    : List.Forall₂ (fun item value => item ∈ items ∧ f item = some value)
        (items.filter fun item => (f item).isSome) (items.filterMap f) := by
  induction items with
  | nil => exact .nil
  | cons item others ih =>
      have later := ih.imp fun other value known =>
        (⟨List.mem_cons_of_mem item known.1, known.2⟩ : other ∈ item :: others ∧ f other = some value)
      cases given : f item with
      | none =>
          rw [List.filterMap_cons_none given, List.filter_cons_of_neg (by simp [given])]
          exact later
      | some value =>
          rw [List.filterMap_cons_some given, List.filter_cons_of_pos (by simp [given])]
          exact .cons ⟨List.mem_cons_self .., given⟩ later

namespace ParsedSource

variable {source : String} {parsed : ParsedSource} {options : SemicolonOptions}

/-- What the rule on semicolons reports alone are its findings. -/
theorem exists_report_of_parse (options : SemicolonOptions) (run : parse source = .ok parsed)
    : ∃ report, Style.check { quotes := none, semicolons := some options } source = .ok report
        ∧ report.diagnostics.Perm
          (parsed.program.shown.filterMap (Semicolons.check? (.ofSource parsed) options)) := by
  have read := read_of_parse run
  have apart := Style.fixes_apart ⟨none, some options⟩ read (List.Subperm.refl _)
  refine ⟨_, Style.check_of_parse _ run, ?_⟩
  rw [MergedFixes.ofDiagnostics_eq apart]
  have same := Style.findings_semicolons ⟨none, some options⟩ parsed
  simp only [Style.semicolonFindings, Option.bind_some] at same
  rw [same]
  exact List.mergeSort_perm ..

/-- The constructs that are reported have places of their own, at which they are shown. -/
theorem exists_places (run : parse source = .ok parsed) (mode : options.mode = .always)
    : ∃ places : List (List Nat), places.Nodup
        ∧ (∀ path, path ∈ places
            ↔ ∃ extent, parsed.program.EndsAt path extent
              ∧ (isSemicolonAt parsed.tokens.toList extent.tokens.last
                ↔ parsed.OmittableAt options path))
        ∧ List.Forall₂ parsed.ReportedAt places
          (parsed.program.shown.filterMap (Semicolons.check? (.ofSource parsed) options)) := by
  have read := read_of_parse run
  set check := Semicolons.check? (.ofSource parsed) options
  have located (part : Shown)
      : ∃ path, part ∈ parsed.program.shown →
          ∃ visit, parsed.program.visitAt? path = some visit ∧ part ∈ visit.own := by
    by_cases member : part ∈ parsed.program.shown
    · obtain ⟨path, visit, found⟩ := Program.mem_shown_iff.mp member
      exact ⟨path, fun _ => ⟨visit, found⟩⟩
    · exact ⟨[], fun inside => absurd inside member⟩
  choose path located using located
  have ending {part : Shown} (checked : (check part).isSome)
      : ∃ extent, part.ending? = some extent := by
    obtain ⟨found, checked⟩ := Option.isSome_iff_exists.mp checked
    obtain ⟨extent, _, ending, -⟩ := Semicolons.report_of_check checked
    exact ⟨extent, ending⟩
  refine ⟨(parsed.program.shown.filter fun part => (check part).isSome).map path, ?_, fun place => ?_,
    ?_⟩
  · refine List.pairwise_map.mpr
      (((Style.endings_distinct read).filter _).imp_of_mem fun member member' apart same => ?_)
    obtain ⟨shown, checked⟩ := List.mem_filter.mp member
    obtain ⟨shown', checked'⟩ := List.mem_filter.mp member'
    obtain ⟨visit, there, own⟩ := located _ shown
    obtain ⟨visit', there', own'⟩ := located _ shown'
    obtain ⟨extent, ends⟩ := ending checked
    obtain ⟨extent', ends'⟩ := ending checked'
    obtain rfl := Option.some.inj (there.symm.trans (same ▸ there'))
    have node := Visit.ending?_of_mem_own own ends
    have node' := Visit.ending?_of_mem_own own' ends'
    obtain rfl := Option.some.inj (node.symm.trans node')
    exact apart _ ends _ ends' rfl
  · rw [List.mem_map]
    constructor
    · rintro ⟨part, member, rfl⟩
      obtain ⟨shown, checked⟩ := List.mem_filter.mp member
      obtain ⟨visit, there, own⟩ := located part shown
      obtain ⟨extent, ends⟩ := ending checked
      have node := Visit.ending?_of_mem_own own ends
      exact ⟨extent, ⟨_, Program.nodeAt?_of_visitAt? there, node⟩,
        (isSome_check?_iff run mode there own node).mp checked⟩
    · rintro ⟨extent, ⟨node, there, ends⟩, condition⟩
      obtain ⟨visit, found, rfl⟩ := Program.exists_visitAt?_of_nodeAt? there
      obtain ⟨part, construct, single, terminated, rfl⟩ := Visit.own_of_ending? ends
      have own : part ∈ visit.own := single ▸ List.mem_singleton_self part
      have shown : part ∈ parsed.program.shown := Program.mem_shown_iff.mpr ⟨_, _, found, own⟩
      obtain ⟨visit', found', own'⟩ := located part shown
      have ending' : part.ending? = some construct.extent := by simp [Shown.ending?, terminated]
      exact ⟨part, List.mem_filter.mpr ⟨shown, (isSome_check?_iff run mode found own ends).mpr condition⟩,
        path_unique read found' found own' own ending' ending' rfl⟩
  · rw [List.forall₂_map_left_iff]
    refine (forall₂_filterMap check _).imp fun part found known => ?_
    obtain ⟨visit, there, own⟩ := located part known.1
    exact reportedAt_of_check run there own known.2

end ParsedSource

/-- Where every statement ends with a semicolon, whatever source parses is checked. Each construct
in it that has a semicolon and is omittable is reported once, and so is each that has none and is
not omittable, and there are no other reports. -/
theorem ParsedSource.reported_of_always {source : String} {parsed : ParsedSource}
    {options : SemicolonOptions} (run : parse source = .ok parsed) (mode : options.mode = .always)
    : ∃ report places, Style.check { quotes := none, semicolons := some options } source = .ok report
        ∧ places.Nodup
        ∧ (∀ path, path ∈ places
            ↔ ∃ extent, parsed.program.EndsAt path extent
              ∧ (isSemicolonAt parsed.tokens.toList extent.tokens.last
                ↔ parsed.OmittableAt options path))
        ∧ List.Forall₂ parsed.ReportedAt places report.diagnostics := by
  obtain ⟨report, check, sorted⟩ := exists_report_of_parse options run
  obtain ⟨places, distinct, iff, reports⟩ := exists_places run mode
  obtain ⟨ordered, reports, perm⟩ := List.perm_comp_forall₂ sorted reports.flip
  exact ⟨report, ordered, check, perm.nodup_iff.mpr distinct,
    fun path => perm.mem_iff.trans (iff path), reports.flip⟩

/-- The semicolon at the end of a block on one line goes, and behind the block one is missing. -/
theorem ParsedSource.reported_of_always_of_block
    : ∃ parsed report places, parse "\x7b a; \x7d b" = .ok parsed
        ∧ Style.check ⟨none, some { omitLastInBlock := true }⟩ "\x7b a; \x7d b" = .ok report
        ∧ places.Nodup ∧ List.Forall₂ parsed.ReportedAt places report.diagnostics
        ∧ (parsed.program.shown.filterMap
              (Semicolons.check? (.ofSource parsed) { omitLastInBlock := true })).map
            (fun found => (found.problem, found.span))
          = [(.extraSemicolon, ⟨3, 4⟩), (.missingSemicolon, ⟨8, 8⟩)] := by
  have found : (parse "\x7b a; \x7d b").toOption.map (fun parsed =>
      (parsed.program.shown.filterMap
          (Semicolons.check? (.ofSource parsed) { omitLastInBlock := true })).map
        fun found => (found.problem, found.span))
      = some [(.extraSemicolon, ⟨3, 4⟩), (.missingSemicolon, ⟨8, 8⟩)] := by
    decide +kernel
  have always : ({ omitLastInBlock := true } : SemicolonOptions).mode = .always := rfl
  obtain ⟨parsed, run, findings⟩ := exists_ok_of_toOption_map found
  obtain ⟨report, places, check, distinct, -, reported⟩ := reported_of_always run always
  exact ⟨parsed, report, places, run, check, distinct, reported, findings⟩

end ScriptStyle
