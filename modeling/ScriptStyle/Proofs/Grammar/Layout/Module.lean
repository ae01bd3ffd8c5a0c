import ScriptStyle.Proofs.Grammar.Coverage.Module
import ScriptStyle.Proofs.Grammar.Layout.Scope

/-!
How import and export clauses are laid out.
-/

namespace ScriptStyle.Grammar

open ScriptStyle.Grammar.Parser

variable {origin : Scanner} {c m c' : Cursor} {form : Placement → Statement}

-----------------------------------------------------------------------------------------
-- Names
-----------------------------------------------------------------------------------------

theorem moduleName_laid {name : ModuleName} (sound : c.Sound origin)
    (run : moduleName c = .ok (name, c'))
    : Laid origin c [.moduleName name] c' := by
  simp only [moduleName, bind_ok, get_ok] at run
  obtain ⟨_, _, ⟨rfl, rfl⟩, run⟩ := run
  cases here : c.peek? with
  | none => simp only [here, unexpected_ok] at run
  | some token =>
      simp only [here, bind_ok, ite_ok, advance_ok, pure_ok, unexpected_ok, and_false, or_false,
        beq_iff_eq] at run
      rcases run with ⟨kind, _, _, rfl, rfl, rfl⟩ | ⟨-, kind, _, _, rfl, rfl, rfl⟩
      all_goals exact sound.leaf_laid here (by simp [kind]) rfl rfl rfl rfl rfl

theorem moduleString_laid {span : Span} (sound : c.Sound origin)
    (run : moduleString c = .ok (span, c'))
    : Laid origin c [.moduleSource span] c' := by
  simp only [moduleString, bind_ok, get_ok] at run
  obtain ⟨_, _, ⟨rfl, rfl⟩, run⟩ := run
  cases here : c.peek? with
  | none => simp only [here, unexpected_ok] at run
  | some token =>
      simp only [here, bind_ok, ite_ok, advance_ok, pure_ok, unexpected_ok, and_false, or_false,
        beq_iff_eq] at run
      obtain ⟨kind, _, _, rfl, rfl, rfl⟩ := run
      exact sound.leaf_laid here (by simp [kind]) rfl rfl rfl rfl rfl

theorem moduleAlias_laid {name : Option ModuleName} (sound : c.Sound origin)
    (run : moduleAlias c = .ok (name, c'))
    : Laid origin c (name.toList.map .moduleName) c' :=
  after?_laid moduleName_laid (by decide) sound run

-----------------------------------------------------------------------------------------
-- Lists
-----------------------------------------------------------------------------------------

theorem specifier_laid {entry : Specifier} (sound : c.Sound origin)
    (run : specifier c = .ok (entry, c'))
    : Laid origin c [.specifier entry] c' := by
  simp only [specifier, bind_ok, pure_ok] at run
  obtain ⟨name, m, named, givenName, _, renamed, rfl, rfl⟩ := run
  have first := moduleName_laid sound named
  have inner : Laid origin c (Node.specifier ⟨name, givenName⟩).children _ :=
    first.trans (moduleAlias_laid first.sound renamed)
  exact inner.group rfl

theorem specifiers_laid {entries : List Specifier} (sound : c.Sound origin)
    (run : specifiers c = .ok (entries, c'))
    : Laid origin c (entries.map .specifier) c' := by
  simp only [specifiers, bind_ok, expect_ok] at run
  obtain ⟨_, _, ⟨opens, rfl⟩, run⟩ := run
  exact bracedList_laid (fun sound run => (specifier_held sound run).toCovered) specifier_laid sound
    opens run

theorem importAttribute_laid {entry : ImportAttribute} (sound : c.Sound origin)
    (run : importAttribute c = .ok (entry, c'))
    : Laid origin c [.importAttribute entry] c' := by
  simp only [importAttribute, bind_ok, pure_ok] at run
  obtain ⟨key, m, named, _, _, colon, value, _, given, rfl, rfl⟩ := run
  have first := moduleName_laid sound named
  have second := first.skip (expect_laid (by decide) first.sound colon)
  have inner : Laid origin c (Node.importAttribute ⟨key, value⟩).children _ :=
    second.trans (moduleString_laid second.sound given)
  exact inner.group rfl

theorem importAttributes_laid {entries : List ImportAttribute} (sound : c.Sound origin)
    (run : importAttributes c = .ok (entries, c'))
    : Laid origin c (entries.map .importAttribute) c' := by
  simp only [importAttributes, bind_ok, get_ok, ite_ok, advance_ok, pure_ok, expect_ok] at run
  obtain ⟨_, _, ⟨rfl, rfl⟩, ⟨word, _, _, rfl, _, _, ⟨opens, rfl⟩, run⟩ | ⟨-, rfl, rfl⟩⟩ := run
  · simp only [Bool.or_eq_true, Bool.and_eq_true] at word
    have first := sound.advance_laid (word.elim
      (Cursor.unbraced_of_sees (by decide) ·) (Cursor.unbraced_of_sees (by decide) ·.1))
    exact (bracedList_laid (fun sound run => (importAttribute_held sound run).toCovered)
      importAttribute_laid first.sound opens run).after first
  · exact .refl sound

theorem importBindings_laid {entries : List Specifier} (sound : c.Sound origin)
    (run : importBindings c = .ok (entries, c'))
    : Laid origin c (entries.map .specifier) c' := by
  simp only [importBindings, bind_ok, ite_ok, pure_ok] at run
  obtain ⟨_, m, star, run⟩ := run
  have first := eat_laid (by decide) sound star
  rcases run with ⟨-, _, _, word, _, _, named, rfl, rfl⟩ | ⟨-, run⟩
  · have second := first.trans (expect_laid (by decide) first.sound word)
    exact second.trans (Scope.identifier_skipped second.sound named).1
  · exact (specifiers_laid first.sound run).after first

theorem importNames_laid {entries : List Specifier} (sound : c.Sound origin)
    (run : importNames c = .ok (entries, c'))
    : Laid origin c (entries.map .specifier) c' := by
  simp only [importNames, bind_ok, get_ok, ite_ok, advance_ok, pure_ok] at run
  obtain ⟨_, _, ⟨rfl, rfl⟩, ⟨word, _, _, rfl, _, m, comma, run⟩ | ⟨-, run⟩⟩ := run
  · simp only [Cursor.atKind, Option.any_eq_true, beq_iff_eq] at word
    obtain ⟨token, here, kind⟩ := word
    have first := sound.advance_laid (Cursor.unbraced_of_kind here (by simp [kind]))
    have second := first.trans (eat_laid (by decide) first.sound comma)
    rcases run with ⟨-, run⟩ | ⟨-, rfl, rfl⟩
    · exact (importBindings_laid second.sound run).after second
    · exact second
  · exact importBindings_laid sound run

theorem importClause_laid {entries : List Specifier} (sound : c.Sound origin)
    (run : importClause c = .ok (entries, c'))
    : Laid origin c (entries.map .specifier) c' := by
  simp only [importClause, bind_ok, get_ok, ite_ok, pure_ok] at run
  obtain ⟨_, _, ⟨rfl, rfl⟩, ⟨-, rfl, rfl⟩ | ⟨-, bound, m, named, _, _, word, rfl, rfl⟩⟩ := run
  · exact .refl sound
  · have first := importNames_laid sound named
    exact first.skip (expect_laid (by decide) first.sound word)

-----------------------------------------------------------------------------------------
-- Statements
-----------------------------------------------------------------------------------------

theorem importFrom_laid {token : Token} (sound : c.Sound origin) (here : c.peek? = some token)
    (word : token.kind = .identifier) (run : importFrom c = .ok (form, c'))
    : ∀ placement, Laid origin c (Node.ofStatement (form placement)) c' := by
  simp only [importFrom, bind_ok, advance_ok, pure_ok] at run
  obtain ⟨_, _, rfl, bound, m₁, named, source, m₂, given, entries, m₃, listed, _, m₄, ends, rfl,
    rfl⟩ := run
  have first := sound.advance_laid (Cursor.unbraced_of_kind here (by simp [word]))
  have second := (importClause_laid first.sound named).after first
  have third := second.trans (moduleString_laid second.sound given)
  have fourth := third.trans (importAttributes_laid third.sound listed)
  exact fun _ => fourth.skip (consumeSemicolon_laid fourth.sound ends)

theorem exportAll_laid (sound : c.Sound origin) (run : exportAll c = .ok (form, c'))
    : ∀ placement, Laid origin c (Node.ofStatement (form placement)) c' := by
  simp only [exportAll, bind_ok, pure_ok] at run
  obtain ⟨exported, m₁, renamed, _, m₂, word, source, m₃, given, entries, m₄, listed, _, m₅, ends,
    rfl, rfl⟩ := run
  have first := moduleAlias_laid sound renamed
  have second := first.skip (expect_laid (by decide) first.sound word)
  have third := second.trans (moduleString_laid second.sound given)
  have fourth := third.trans (importAttributes_laid third.sound listed)
  exact fun _ => fourth.skip (consumeSemicolon_laid fourth.sound ends)

theorem exportOrigin_laid {source : Option Span} {entries : List ImportAttribute}
    (sound : c.Sound origin) (run : exportOrigin c = .ok ((source, entries), c'))
    : Laid origin c (source.toList.map .moduleSource ++ entries.map .importAttribute) c' := by
  simp only [exportOrigin, bind_ok, ite_ok, pure_ok, Prod.mk.injEq] at run
  obtain ⟨_, m₁, word, run⟩ := run
  have first := eat_laid (by decide) sound word
  rcases run with ⟨-, span, m₂, given, _, _, listed, ⟨rfl, rfl⟩, rfl⟩ | ⟨-, ⟨rfl, rfl⟩, rfl⟩
  · have second := (moduleString_laid first.sound given).after first
    exact second.trans (importAttributes_laid second.sound listed)
  · exact first

theorem exportList_laid (sound : c.Sound origin) (run : exportList c = .ok (form, c'))
    : ∀ placement, Laid origin c (Node.ofStatement (form placement)) c' := by
  simp only [exportList, bind_ok, pure_ok] at run
  obtain ⟨exported, m₁, listed, ⟨source, entries⟩, m₂, given, _, m₃, ends, rfl, rfl⟩ := run
  have first := specifiers_laid sound listed
  have second := first.trans (exportOrigin_laid first.sound given)
  rw [← List.append_assoc] at second
  exact fun _ => second.skip (consumeSemicolon_laid second.sound ends)

end ScriptStyle.Grammar
