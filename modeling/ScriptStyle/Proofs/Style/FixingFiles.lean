import ScriptStyle.CommandLine
import ScriptStyle.Proofs.FileTree.Writing
import ScriptStyle.Proofs.Report.Mending
import ScriptStyle.Proofs.Style.Passes

/-!
Fixing the files of a tree, and the report on them afterwards. A file is fixed as if it were the
only one, since no other has its place; and the report that is patched from what the fixes say is
the report on the tree that they leave.
-/

namespace ScriptStyle

namespace Style

variable {style : Style} {tree other : FileTree} {file path : Path} {files : List Path}
  {source : String} {fixed : FixedSource}

-----------------------------------------------------------------------------------------
-- Checking a file
-----------------------------------------------------------------------------------------

theorem checkFile_eq_ok {report : FileReport}
    : style.checkFile tree file = .ok report
      ↔ ∃ source found, tree.read file = .ok source ∧ style.check source = .ok found
          ∧ ⟨file, found.diagnostics⟩ = report := by
  rw [checkFile]
  cases tree.read file with
  | error => simp
  | ok source =>
      simp only [checkSource, Except.ok.injEq, exists_and_left, exists_eq_left']
      cases style.check source <;> simp

theorem checkFile_congr (style : Style) (same : other.read file = tree.read file)
    : style.checkFile other file = style.checkFile tree file := by
  rw [checkFile, same, checkFile]

/-- Whether a file has a violation with a fix. -/
def hasFix (style : Style) (tree : FileTree) (file : Path) : Bool :=
  match style.checkFile tree file with
  | .ok report => decide (0 < report.fixable)
  | .error _ => false

theorem checkFiles_eq (style : Style) (tree : FileTree) (files : List Path)
    : style.checkFiles tree files
      = .counted files.length 0
          (files.filterMap fun file => Report.violated? (style.checkFile tree file))
          (files.filterMap fun file => Report.failure? (style.checkFile tree file)) := by
  rw [checkFiles, Report.ofOutcomes_eq, List.length_map, List.filterMap_map, List.filterMap_map]
  rfl

/-- A report has the files with a fix as its targets, in the order in which they were checked. -/
theorem targets_checkFiles (style : Style) (tree : FileTree) (files : List Path)
    : (style.checkFiles tree files).targets = files.filter (style.hasFix tree) := by
  rw [checkFiles_eq, Report.targets]
  simp only [Report.counted]
  induction files with
  | nil => rfl
  | cons file others ih =>
      rw [List.filterMap_cons, List.filter_cons, hasFix]
      cases outcome : style.checkFile tree file with
      | error failure => exact ih
      | ok report =>
          by_cases clean : report.diagnostics = []
          · simpa [Report.violated?_of_clean, clean, FileReport.fixable, fixableCount] using ih
          · obtain ⟨source, found, -, -, rfl⟩ := checkFile_eq_ok.mp outcome
            rw [Report.violated?_of_found clean, List.filter_cons]
            split_ifs
            · rw [List.map_cons, ih]
            · exact ih

-----------------------------------------------------------------------------------------
-- Fixing a file
-----------------------------------------------------------------------------------------

theorem fixFile_of_fix (isDry : Bool) (present : tree.read file = .ok source)
    (run : style.fix source = .ok fixed)
    : ∃ isWritten, (style.fixFile isDry tree file).2
        = .ok ⟨file, fixed.fixCount, fixed.remaining, isWritten⟩ := by
  rw [fixFile, present]
  simp only [run]
  exact ⟨_, rfl⟩

/-- A source without edits is its own output. -/
theorem output_of_fixCount (run : style.fix source = .ok fixed) (none : fixed.fixCount = 0)
    : fixed.output = source := by
  obtain ⟨first, earlier, -, made, -⟩ := fix_run run
  have few := made.chain.length_le
  have sum := made.fixCount
  cases earlier with
  | nil => exact made.chain.eq_of_nil.symm
  | cons text others =>
      rw [List.length_cons] at few
      omega

/-- A fixed file holds the output, whether it had to be written or not. -/
theorem read_fixFile (present : tree.read file = .ok source) (run : style.fix source = .ok fixed)
    : (style.fixFile false tree file).1.read file = .ok fixed.output := by
  rw [fixFile, present]
  simp only [run, Bool.not_false, Bool.true_and]
  split_ifs with written
  · exact FileTree.read_write_self present fixed.output
  · have same : fixed.output = source := by
      by_cases none : fixed.fixCount = 0
      · exact output_of_fixCount run none
      · simpa [Nat.pos_of_ne_zero none] using written
    rw [present, same]

/-- Fixing a file changes the tree by one write at most. -/
theorem fixFile_tree (style : Style) (isDry : Bool) (tree : FileTree) (file : Path)
    : (style.fixFile isDry tree file).1 = tree
      ∨ ∃ text, (style.fixFile isDry tree file).1 = tree.write file text := by
  rw [fixFile]
  cases tree.read file with
  | error => exact .inl rfl
  | ok source =>
      dsimp only
      cases style.fix source with
      | error => exact .inl rfl
      | ok fixed =>
          dsimp only
          split_ifs
          · exact .inr ⟨fixed.output, rfl⟩
          · exact .inl rfl

theorem location?_fixFile (style : Style) (isDry : Bool) (tree : FileTree) (file : Path)
    : (style.fixFile isDry tree file).1.location? = tree.location? := by
  rcases style.fixFile_tree isDry tree file with same | ⟨text, written⟩
  · rw [same]
  · rw [written, FileTree.location?_write]

theorem apart_fixFile (isDry : Bool)
    : (style.fixFile isDry tree file).1.Apart = tree.Apart := by
  funext first second
  simp only [FileTree.Apart, location?_fixFile]

theorem read_fixFile_of_apart (isDry : Bool) (apart : tree.Apart file path)
    : (style.fixFile isDry tree file).1.read path = tree.read path := by
  rcases style.fixFile_tree isDry tree file with same | ⟨text, written⟩
  · rw [same]
  · rw [written, FileTree.read_write_of_apart apart]

theorem fixFile_congr (style : Style) (isDry : Bool) (same : other.read file = tree.read file)
    : (style.fixFile isDry other file).2 = (style.fixFile isDry tree file).2 := by
  rw [fixFile, same, fixFile]
  cases tree.read file with
  | error => rfl
  | ok source =>
      dsimp only
      cases style.fix source <;> rfl

/-- A dry run makes out what would be done, and does nothing. -/
theorem fixFile_dry (style : Style) (tree : FileTree) (file : Path)
    : style.fixFile true tree file
      = (tree, (style.fixFile false tree file).2.map fun found =>
          { found with isWritten := false }) := by
  rw [fixFile, fixFile]
  cases tree.read file with
  | error => rfl
  | ok source =>
      dsimp only
      cases style.fix source <;> rfl

-----------------------------------------------------------------------------------------
-- Fixing files one after the other
-----------------------------------------------------------------------------------------

theorem fixFiles_cons (style : Style) (isDry : Bool) (tree : FileTree) (file : Path)
    (others : List Path)
    : style.fixFiles isDry tree (file :: others)
      = ⟨(style.fixFiles isDry (style.fixFile isDry tree file).1 others).tree,
          ⟨file, (style.fixFile isDry tree file).2⟩
            :: (style.fixFiles isDry (style.fixFile isDry tree file).1 others).outcomes⟩ := by
  rfl

theorem read_fixFiles_of_apart (isDry : Bool) (apart : ∀ file ∈ files, tree.Apart file path)
    : (style.fixFiles isDry tree files).tree.read path = tree.read path := by
  induction files generalizing tree with
  | nil => rfl
  | cons file others ih =>
      have later : ∀ other ∈ others, (style.fixFile isDry tree file).1.Apart other path := by
        rw [apart_fixFile]
        exact fun other member => apart other (List.mem_cons_of_mem _ member)
      rw [fixFiles_cons, ih later, read_fixFile_of_apart isDry (apart file List.mem_cons_self)]

/-- Every file is fixed as if it were the only one. -/
theorem outcomes_fixFiles (style : Style) (isDry : Bool) (apart : files.Pairwise tree.Apart)
    : (style.fixFiles isDry tree files).outcomes
      = files.map fun file => ⟨file, (style.fixFile isDry tree file).2⟩ := by
  induction files generalizing tree with
  | nil => rfl
  | cons file others ih =>
      obtain ⟨alone, apart⟩ := List.pairwise_cons.mp apart
      rw [fixFiles_cons, List.map_cons, ih (by rwa [apart_fixFile])]
      refine congrArg (_ :: ·) (List.map_congr_left fun other member => ?_)
      rw [style.fixFile_congr isDry (read_fixFile_of_apart isDry (alone other member))]

/-- A file that is fixed among others holds its output in the end. -/
theorem read_fixFiles_of_mem (apart : files.Pairwise tree.Apart) (member : file ∈ files)
    (present : tree.read file = .ok source) (run : style.fix source = .ok fixed)
    : (style.fixFiles false tree files).tree.read file = .ok fixed.output := by
  induction files generalizing tree with
  | nil => cases member
  | cons first others ih =>
      obtain ⟨alone, apart⟩ := List.pairwise_cons.mp apart
      rw [fixFiles_cons]
      rcases List.mem_cons.mp member with rfl | later
      · have untouched : ∀ other ∈ others, (style.fixFile false tree file).1.Apart other file := by
          rw [apart_fixFile]
          exact fun other member => (alone other member).symm
        rw [read_fixFiles_of_apart false untouched, read_fixFile present run]
      · have present' : (style.fixFile false tree first).1.read file = .ok source := by
          rw [read_fixFile_of_apart false (alone file later), present]
        exact ih (by rwa [apart_fixFile]) later present'

theorem tree_fixFiles_dry (style : Style) (tree : FileTree) (files : List Path)
    : (style.fixFiles true tree files).tree = tree := by
  induction files with
  | nil => rfl
  | cons file others ih =>
      rw [fixFiles_cons, fixFile_dry]
      exact ih

/-- A dry run makes out the fixes of the files that a run makes. -/
theorem fixed_fixFiles_dry (apart : files.Pairwise tree.Apart)
    : (style.fixFiles true tree files).fixed
      = (style.fixFiles false tree files).fixed.map fun found =>
          { found with isWritten := false } := by
  rw [FixedTree.fixed, FixedTree.fixed, outcomes_fixFiles style true apart,
    outcomes_fixFiles style false apart, List.filterMap_map, List.filterMap_map, List.map_filterMap]
  refine List.filterMap_congr fun file _ => ?_
  simp only [Function.comp_apply, fixFile_dry]
  cases (style.fixFile false tree file).2 <;> rfl

-----------------------------------------------------------------------------------------
-- The report afterwards
-----------------------------------------------------------------------------------------

/-- The fix of a file that has one. -/
def fixOf? (style : Style) (tree : FileTree) (file : Path) : Option FixedFile :=
  if style.hasFix tree file then (style.fixFile false tree file).2.toOption else none

theorem fixed_fixFiles (apart : files.Pairwise tree.Apart)
    : (style.fixFiles false tree (files.filter (style.hasFix tree))).fixed
      = files.filterMap (style.fixOf? tree) := by
  rw [FixedTree.fixed, outcomes_fixFiles style false (apart.filter _), List.filterMap_map,
    List.filterMap_filter]
  rfl

/-- A file that is checked can be fixed. -/
theorem fix_of_check {report : MergedFixes} (checked : style.check source = .ok report)
    : ∃ fixed, style.fix source = .ok fixed :=
  ⟨_, fix_ok.mpr ⟨report, checked, rfl⟩⟩

/-- Of a file without a fix that stays as it is the same is known afterwards. -/
theorem mended_of_not_hasFix (target : style.hasFix tree file = false)
    (same : other.read file = tree.read file)
    : Report.Mended file (style.checkFile tree file) (style.fixOf? tree file)
        (style.checkFile other file) := by
  rw [style.checkFile_congr same, fixOf?, target]
  cases outcome : style.checkFile tree file with
  | error failure => exact .failed failure
  | ok report =>
      obtain ⟨source, found, -, -, rfl⟩ := checkFile_eq_ok.mp outcome
      exact .kept found.diagnostics

/-- What a fix says is left in its file is what is found there afterwards. -/
theorem mended_of_hasFix (target : style.hasFix tree file = true)
    (made : ∀ source fixed, tree.read file = .ok source → style.fix source = .ok fixed →
      other.read file = .ok fixed.output)
    : Report.Mended file (style.checkFile tree file) (style.fixOf? tree file)
        (style.checkFile other file) := by
  cases outcome : style.checkFile tree file with
  | error failure => simp [hasFix, outcome] at target
  | ok report =>
      obtain ⟨source, found, present, checked, rfl⟩ := checkFile_eq_ok.mp outcome
      obtain ⟨fixed, run⟩ := fix_of_check checked
      obtain ⟨isWritten, result⟩ := fixFile_of_fix false present run
      obtain ⟨first, earlier, -, passes, -⟩ := fix_run run
      obtain ⟨last, checked', described⟩ := passes.checked
      have dirty : found.diagnostics ≠ [] := by
        rintro none
        simp [hasFix, outcome, FileReport.fixable, none, fixableCount] at target
      rw [fixOf?, target, if_pos rfl, result,
        checkFile_eq_ok.mpr ⟨_, _, made source fixed present run, checked', rfl⟩, ← described]
      exact .fixed dirty rfl

/-- What is said about a file with its fix is what is found in it afterwards, and of a file without
a fix what was found before. -/
theorem mended_fixFiles (style : Style)
    (once : files.Pairwise fun first second => ¬first.isSame second)
    (named : tree.NamesFilesOnce files) (member : file ∈ files)
    : Report.Mended file (style.checkFile tree file) (style.fixOf? tree file)
        (style.checkFile (style.fixFiles false tree (files.filter (style.hasFix tree))).tree
          file) := by
  have apart : files.Pairwise tree.Apart := once.imp_of_mem named.apart
  cases target : style.hasFix tree file with
  | false =>
      -- A file that is not fixed is none of those that are, so that it stays as it is.
      have untouched : ∀ other ∈ files.filter (style.hasFix tree), tree.Apart other file := by
        intro other fixes
        obtain ⟨present, fixes⟩ := List.mem_filter.mp fixes
        have differ : other ≠ file := by
          rintro rfl
          cases target.symm.trans fixes
        exact apart.forall present member differ
      exact mended_of_not_hasFix target (read_fixFiles_of_apart false untouched)
  | true =>
      have present := List.mem_filter.mpr ⟨member, target⟩
      exact mended_of_hasFix target fun _ _ => read_fixFiles_of_mem (apart.filter _) present

/-- The report that is patched after fixing is the report on the files as they are then, with the
number of edits noted; so the program ends as it would after checking them again. A dry run leaves
the tree as it is and notes in the report how many edits would be made, nothing else. -/
theorem afterFixes_eq_checkFiles (style : Style) (tree : FileTree) (files : List Path)
    (once : files.Pairwise fun first second => ¬first.isSame second)
    (named : tree.NamesFilesOnce files)
    : let report := style.checkFiles tree files
      let made := style.fixFiles false tree report.targets
      let after := report.afterFixes false made.fixed
      let fresh := style.checkFiles made.tree files
      let planned := style.fixFiles true tree report.targets
      after = { fresh with
          summary := { fresh.summary with fixed := sumOf FixedFile.fixCount made.fixed } }
        ∧ after.exitCode = fresh.exitCode
        ∧ planned.tree = tree
        ∧ report.afterFixes true planned.fixed = { report with
            summary := { report.summary with fixed := after.summary.fixed } } := by
  intro report made after fresh planned
  have apart : files.Pairwise tree.Apart := once.imp_of_mem named.apart
  have targets : report.targets = files.filter (style.hasFix tree) :=
    targets_checkFiles style tree files
  have made_eq : style.fixFiles false tree (files.filter (style.hasFix tree)) = made := by
    rw [← targets]
  have mended (file : Path) (member : file ∈ files)
      : Report.Mended file (style.checkFile tree file) (style.fixOf? tree file)
          (style.checkFile made.tree file) :=
    made_eq ▸ style.mended_fixFiles once named member
  have fixes : files.filterMap (style.fixOf? tree) = made.fixed := by
    rw [← fixed_fixFiles apart, made_eq]
  have patched : after = { fresh with
      summary := { fresh.summary with fixed := sumOf FixedFile.fixCount made.fixed } } := by
    have left := Report.files_of_mended once mended
    rw [fixes] at left
    calc
      after = Report.afterFixes (.counted ..) false made.fixed :=
        congrArg (Report.afterFixes · false made.fixed) (style.checkFiles_eq tree files)
      _ = .counted files.length (sumOf FixedFile.fixCount made.fixed)
            (files.filterMap fun file => Report.violated? (style.checkFile made.tree file))
            (files.filterMap fun file => Report.failure? (style.checkFile made.tree file)) := by
        rw [Report.afterFixes_counted, left, Report.failures_of_mended mended]
      _ = _ := by
        rw [show fresh = _ from style.checkFiles_eq made.tree files]
        rfl
  refine ⟨patched, ?_, tree_fixFiles_dry style tree _, ?_⟩
  · rw [patched]
    rfl
  · have counts : sumOf FixedFile.fixCount planned.fixed = after.summary.fixed := by
      rw [patched, fixed_fixFiles_dry (targets ▸ apart.filter _), sumOf_map]
      rfl
    rw [← counts]
    rfl

/-- Two files: one can be fixed and one is no script. -/
theorem afterFixes_eq_checkFiles_of_two_files
    : let tree : FileTree :=
        { working := [], files := [(["a"], .text "a = 'b';"), (["b"], .text "(")],
          folders := [] }
      let files : List Path := [⟨"a"⟩, ⟨"b"⟩]
      let report := checkFiles {} tree files
      let made := fixFiles {} false tree report.targets
      let after := report.afterFixes false made.fixed
      let fresh := checkFiles {} made.tree files
      report.targets = [⟨"a"⟩] ∧ made.tree.read ⟨"a"⟩ = .ok "a = \x22b\x22;"
        ∧ after.files = fresh.files ∧ after.failures = fresh.failures
        ∧ after.exitCode = fresh.exitCode := by
  intro tree files report made after fresh
  have segments {name : String} (short : name = "a" ∨ name = "b")
      : Path.segments ⟨name⟩ = [name] := by
    rcases short with rfl | rfl <;>
    · rw [Path.segments, String.splitOn, if_neg (by decide), String.splitOnAux, if_neg (by decide),
        if_neg (by decide), String.splitOnAux, if_pos (by decide)]
      rfl
  have found : tree.find ⟨"a"⟩ = .ok (.file ["a"] (.text "a = 'b';")) := by
    rw [FileTree.find, segments (.inl rfl)]
    rfl
  have found' : tree.find ⟨"b"⟩ = .ok (.file ["b"] (.text "(")) := by
    rw [FileTree.find, segments (.inr rfl)]
    rfl
  have place := FileTree.location?_eq_some.mpr ⟨_, found⟩
  have place' := FileTree.location?_eq_some.mpr ⟨_, found'⟩
  have source := FileTree.read_eq_ok.mpr ⟨_, found⟩
  have source' := FileTree.read_eq_ok.mpr ⟨_, found'⟩
  have differ : Path.isSame ⟨"a"⟩ ⟨"b"⟩ = false := by
    rw [Path.isSame, Path.steps, Path.steps, Path.prefixes, Path.prefixes, segments (.inl rfl),
      segments (.inr rfl)]
    rfl
  have once : files.Pairwise fun first second => ¬first.isSame second := by
    simp [files, differ]
  have named : tree.NamesFilesOnce files := by
    simp [FileTree.NamesFilesOnce, files, place, place', Path.isSame]
  have targets : report.targets = [⟨"a"⟩] := by
    have fixable : hasFix {} tree ⟨"a"⟩ = true := by
      rw [hasFix, checkFile, source]
      decide +kernel
    have broken : hasFix {} tree ⟨"b"⟩ = false := by
      rw [hasFix, checkFile, source']
      decide +kernel
    rw [targets_checkFiles]
    simp [files, fixable, broken]
  have output : (fix {} "a = 'b';").toOption.map FixedSource.output
      = some "a = \x22b\x22;" := by
    decide +kernel
  obtain ⟨same, exits, -⟩ := afterFixes_eq_checkFiles {} tree files once named
  have sameFiles := congrArg Report.files same
  have sameFailures := congrArg Report.failures same
  refine ⟨targets, ?_, sameFiles, sameFailures, exits⟩
  obtain ⟨fixed, run, written⟩ := exists_ok_of_toOption_map output
  rw [← written]
  exact read_fixFiles_of_mem (targets ▸ List.pairwise_singleton _ _)
    (targets ▸ List.mem_singleton_self _) source run

end Style

end ScriptStyle
