import ScriptStyle.Proofs.Grammar.Behaviour.Source
import ScriptStyle.Proofs.Text.Positions
import ScriptStyle.Report

/-!
Where files fail to be scripts. The error of a source is about what stands at its offset, and a
report gives the line and the column of that offset.
-/

namespace ScriptStyle

open Text (LineIndex)

/-- An error that points into a source has a line and a column there. -/
theorem SyntaxError.PointsInto.position {source : String} {error : SyntaxError}
    (points : error.PointsInto source) (file : Path)
    : ∃ offset line column, error.offset? = some offset
        ∧ (FileFailure.ofSyntaxError file source error).position = some (line, column)
        ∧ LineIndex.Locates source.toList offset line column := by
  obtain ⟨front, rest, whole, offset, -⟩ := points
  have inside : min (Text.byteLength front) source.utf8ByteSize = Text.byteLength front := by
    rw [← Text.byteLength_toList, whole, Text.byteLength_append]
    omega
  refine ⟨_, _, _, offset, ?_, LineIndex.locates whole⟩
  simp only [FileFailure.ofSyntaxError, offset, Option.map_some, inside]

/-- A source is no script to a style only because it cannot be parsed. -/
theorem Style.checkSource_eq_error {style : Style} {file : Path} {source : String}
    {failure : FileFailure} (failed : style.checkSource file source = .error failure)
    : ∃ error, parse source = .error error ∧ failure = .ofSyntaxError file source error := by
  simp only [checkSource, check] at failed
  cases run : parse source with
  | error error => exact ⟨error, rfl, by simpa [run, bind, Except.bind] using failed.symm⟩
  | ok parsed => simp [run, bind, Except.bind, pure, Except.pure] at failed

/-- Errors of sources that are not too large point into these, and the failures in reports give
their lines and columns. -/
theorem syntax_errors_point_into {source : String} (small : source.utf8ByteSize < 2 ^ 32)
    : (∀ error, tokenize source = .error error → error.PointsInto source)
        ∧ (∀ error, parse source = .error error → error.PointsInto source)
        ∧ ∀ (style : Style) (file : Path) (failure : FileFailure),
            style.checkSource file source = .error failure →
              ∃ error offset line column, parse source = .error error
                ∧ failure = ⟨file, .notAScript error, some (line, column)⟩
                ∧ error.offset? = some offset
                ∧ LineIndex.Locates source.toList offset line column := by
  have small : source.utf8ByteSize ≤ TokenList.maxSourceLength := Nat.le_of_lt_succ small
  refine ⟨fun _ => pointsInto_of_tokenize small, fun _ => pointsInto_of_parse small, ?_⟩
  intro style file failure failed
  obtain ⟨error, run, rfl⟩ := Style.checkSource_eq_error failed
  obtain ⟨offset, line, column, shows, position, located⟩ :=
    (pointsInto_of_parse small run).position file
  refine ⟨error, offset, line, column, run, ?_, shows, located⟩
  rw [← position]
  rfl

/-- A template in the second line that nothing closes. -/
theorem syntax_errors_point_into_of_open_template
    : ("a\n\x60b".utf8ByteSize < 2 ^ 32)
        ∧ tokenize "a\n\x60b" = .error (.unterminatedTemplate 2)
        ∧ (SyntaxError.unterminatedTemplate 2).PointsInto "a\n\x60b"
        ∧ LineIndex.Locates "a\n\x60b".toList 2 2 1 := by
  have small : "a\n\x60b".utf8ByteSize < 2 ^ 32 := by decide
  have lexed : tokenize "a\n\x60b" = .error (.unterminatedTemplate 2) := by decide +kernel
  have failed : (Style.mk none none).checkSource ⟨"a.js"⟩ "a\n\x60b"
      = .error ⟨⟨"a.js"⟩, .notAScript (.unterminatedTemplate 2), some (2, 1)⟩ := by
    decide +kernel
  obtain ⟨tokenized, -, reported⟩ := syntax_errors_point_into small
  obtain ⟨error, offset, line, column, -, same, shows, located⟩ := reported _ _ _ failed
  cases same
  cases shows
  exact ⟨small, lexed, tokenized _ lexed, located⟩

end ScriptStyle
