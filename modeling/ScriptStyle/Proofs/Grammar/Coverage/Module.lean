import ScriptStyle.Proofs.Grammar.Coverage.Scope

/-!
Coverage by import and export clauses.
-/

namespace ScriptStyle.Grammar

open ScriptStyle.Grammar.Parser

variable {origin : Scanner} {c m c' : Cursor}

-----------------------------------------------------------------------------------------
-- Names
-----------------------------------------------------------------------------------------

theorem moduleName_held {name : ModuleName} (sound : c.Sound origin)
    (run : moduleName c = .ok (name, c'))
    : Held origin c name.shown c' := by
  simp only [moduleName, bind_ok, get_ok] at run
  obtain ⟨_, _, ⟨rfl, rfl⟩, run⟩ := run
  cases here : c.peek? with
  | none => simp only [here, unexpected_ok] at run
  | some token =>
      simp only [here, bind_ok, ite_ok, advance_ok, pure_ok, unexpected_ok, and_false, or_false,
        beq_iff_eq] at run
      rcases run with ⟨kind, _, _, rfl, rfl, rfl⟩ | ⟨-, kind, _, _, rfl, rfl, rfl⟩
      · exact sound.string_held here kind .moduleName
      · exact sound.advance_held (Cursor.plain_of_kind here (by rw [kind]; rfl))

theorem moduleString_held {span : Span} (sound : c.Sound origin)
    (run : moduleString c = .ok (span, c'))
    : Held origin c [.string span .moduleSource] c' := by
  simp only [moduleString, bind_ok, get_ok] at run
  obtain ⟨_, _, ⟨rfl, rfl⟩, run⟩ := run
  cases here : c.peek? with
  | none => simp only [here, unexpected_ok] at run
  | some token =>
      simp only [here, bind_ok, ite_ok, advance_ok, pure_ok, unexpected_ok, and_false, or_false,
        beq_iff_eq] at run
      obtain ⟨kind, _, _, rfl, rfl, rfl⟩ := run
      exact sound.string_held here kind .moduleSource

theorem moduleAlias_held {name : Option ModuleName} (sound : c.Sound origin)
    (run : moduleAlias c = .ok (name, c'))
    : Held origin c ((name.map ModuleName.shown).getD []) c' :=
  after?_held (by decide) moduleName_held sound run

-----------------------------------------------------------------------------------------
-- Lists
-----------------------------------------------------------------------------------------

theorem specifier_held {entry : Specifier} (sound : c.Sound origin)
    (run : specifier c = .ok (entry, c'))
    : Held origin c entry.shown c' := by
  simp only [specifier, bind_ok, pure_ok] at run
  obtain ⟨name, m, named, givenName, _, renamed, rfl, rfl⟩ := run
  have first := moduleName_held sound named
  exact first.trans (moduleAlias_held first.sound renamed)

theorem specifiers_held {entries : List Specifier} (sound : c.Sound origin)
    (run : specifiers c = .ok (entries, c'))
    : Held origin c (entries.flatMap Specifier.shown) c' ∧ c.offset < c'.lastStop := by
  simp only [specifiers, bind_ok] at run
  obtain ⟨_, m, opens, run⟩ := run
  obtain ⟨first, rises⟩ := expect_held (by decide) sound opens
  obtain ⟨second, -⟩ := commaListUntil_held (by decide)
    (fun sound run => (specifier_held sound run).toCovered) first.sound run
  exact ⟨first.trans second, Nat.lt_of_lt_of_le rises second.lastStop_le⟩

theorem importAttribute_held {entry : ImportAttribute} (sound : c.Sound origin)
    (run : importAttribute c = .ok (entry, c'))
    : Held origin c entry.shown c' := by
  simp only [importAttribute, bind_ok, pure_ok] at run
  obtain ⟨key, m, named, _, _, colon, value, _, given, rfl, rfl⟩ := run
  have first := moduleName_held sound named
  have second := (expect_held (by decide) first.sound colon).1
  exact first.trans (second.trans (moduleString_held second.sound given))

theorem importAttributes_held {entries : List ImportAttribute} (sound : c.Sound origin)
    (run : importAttributes c = .ok (entries, c'))
    : Held origin c (entries.flatMap ImportAttribute.shown) c' := by
  simp only [importAttributes, bind_ok, get_ok, ite_ok, advance_ok, pure_ok] at run
  obtain ⟨_, _, ⟨rfl, rfl⟩, ⟨word, _, _, rfl, _, m, opens, run⟩ | ⟨-, rfl, rfl⟩⟩ := run
  · simp only [Bool.or_eq_true, Bool.and_eq_true] at word
    have first := sound.advance_held (word.elim
      (Cursor.plain_of_sees (by decide) ·) (Cursor.plain_of_sees (by decide) ·.1))
    have second := (expect_held (by decide) first.sound opens).1
    exact first.trans (second.trans
      (commaListUntil_held (by decide) (fun sound run => (importAttribute_held sound run).toCovered)
        second.sound run).1)
  · exact .refl sound

theorem importBindings_held {entries : List Specifier} (sound : c.Sound origin)
    (run : importBindings c = .ok (entries, c'))
    : Held origin c (entries.flatMap Specifier.shown) c' := by
  simp only [importBindings, bind_ok, ite_ok, pure_ok] at run
  obtain ⟨_, m, star, ⟨-, _, _, word, _, _, named, rfl, rfl⟩ | ⟨-, run⟩⟩ := run
  · have first := (eat_held (by decide) sound star).1
    have second := (expect_held (by decide) first.sound word).1
    exact first.trans (second.trans (Scope.identifier_held second.sound named))
  · have first := (eat_held (by decide) sound star).1
    exact first.trans (specifiers_held first.sound run).1

theorem importNames_held {entries : List Specifier} (sound : c.Sound origin)
    (run : importNames c = .ok (entries, c'))
    : Held origin c (entries.flatMap Specifier.shown) c' := by
  simp only [importNames, bind_ok, get_ok, ite_ok, advance_ok, pure_ok] at run
  obtain ⟨_, _, ⟨rfl, rfl⟩, ⟨word, _, _, rfl, _, m, comma, run⟩ | ⟨-, run⟩⟩ := run
  · simp only [Cursor.atKind, Option.any_eq_true, beq_iff_eq] at word
    obtain ⟨token, here, kind⟩ := word
    have first := sound.advance_held (Cursor.plain_of_kind here (by rw [kind]; rfl))
    have second := (eat_held (by decide) first.sound comma).1
    rcases run with ⟨-, run⟩ | ⟨-, rfl, rfl⟩
    · exact first.trans (second.trans (importBindings_held second.sound run))
    · exact first.trans second
  · exact importBindings_held sound run

theorem importClause_held {entries : List Specifier} (sound : c.Sound origin)
    (run : importClause c = .ok (entries, c'))
    : Held origin c (entries.flatMap Specifier.shown) c' := by
  simp only [importClause, bind_ok, get_ok, ite_ok, pure_ok] at run
  obtain ⟨_, _, ⟨rfl, rfl⟩, ⟨-, rfl, rfl⟩ | ⟨-, bound, m, named, _, _, word, rfl, rfl⟩⟩ := run
  · exact .refl sound
  · have first := importNames_held sound named
    exact first.skip (expect_held (by decide) first.sound word).1

-----------------------------------------------------------------------------------------
-- Statements
-----------------------------------------------------------------------------------------

theorem importFrom_read {token : Token} {beginning : Cursor} {form : Placement → Statement}
    (sound : c.Sound origin) (here : c.peek? = some token) (word : token.kind = .identifier)
    (run : importFrom c = .ok (form, c'))
    : StatementFormRead origin beginning c form c' := by
  simp only [importFrom, bind_ok, advance_ok, pure_ok] at run
  obtain ⟨_, _, rfl, bound, m₁, named, source, m₂, given, entries, m₃, listed, _, m₄, ends, rfl,
    rfl⟩ := run
  have first := sound.advance_held (Cursor.plain_of_kind here (by rw [word]; rfl))
  have second := importClause_held first.sound named
  have third := moduleString_held second.sound given
  have fourth := importAttributes_held third.sound listed
  have held := first.trans ((second.trans third).trans fourth)
  have rises : c.offset < m₃.lastStop := Nat.lt_of_lt_of_le (sound.offset_lt_advance here).1
    (second.lastStop_le.trans (third.lastStop_le.trans fourth.lastStop_le))
  exact held.terminatedForm sound rises (fun _ _ => .of_consumeSemicolon ends) (fun _ _ => rfl)
    (by rintro _ _ _ ⟨⟩) fun _ _ => by rw [Statement.shown]; rfl

theorem exportAll_read {beginning : Cursor} {form : Placement → Statement}
    (sound : c.Sound origin) (run : exportAll c = .ok (form, c'))
    : StatementFormRead origin beginning c form c' := by
  simp only [exportAll, bind_ok, pure_ok] at run
  obtain ⟨exported, m₁, renamed, _, m₂, word, source, m₃, given, entries, m₄, listed, _, m₅, ends,
    rfl, rfl⟩ := run
  have first := moduleAlias_held sound renamed
  obtain ⟨second, taken⟩ := expect_held (by decide) first.sound word
  have third := moduleString_held second.sound given
  have fourth := importAttributes_held third.sound listed
  have held := (first.trans (second.trans third)).trans fourth
  have rises : c.offset < m₄.lastStop :=
    Nat.lt_of_le_of_lt first.offset_le
      (Nat.lt_of_lt_of_le taken (third.lastStop_le.trans fourth.lastStop_le))
  exact held.terminatedForm sound rises (fun _ _ => .of_consumeSemicolon ends) (fun _ _ => rfl)
    (by rintro _ _ _ ⟨⟩) fun _ _ => by rw [Statement.shown]; rfl

theorem exportOrigin_held {source : Option Span} {entries : List ImportAttribute}
    (sound : c.Sound origin) (run : exportOrigin c = .ok ((source, entries), c'))
    : Held origin c (source.toList.map (fun span => .string span .moduleSource)
        ++ entries.flatMap ImportAttribute.shown) c' := by
  simp only [exportOrigin, bind_ok, ite_ok, pure_ok, Prod.mk.injEq] at run
  obtain ⟨_, m₁, word, ⟨-, span, m₂, given, _, _, listed, ⟨rfl, rfl⟩, rfl⟩ | ⟨-, ⟨rfl, rfl⟩, rfl⟩⟩ :=
    run
  · have first := (eat_held (by decide) sound word).1
    have second := moduleString_held first.sound given
    exact first.trans (second.trans (importAttributes_held second.sound listed))
  · exact (eat_held (by decide) sound word).1

theorem exportList_read {beginning : Cursor} {form : Placement → Statement}
    (sound : c.Sound origin) (run : exportList c = .ok (form, c'))
    : StatementFormRead origin beginning c form c' := by
  simp only [exportList, bind_ok, pure_ok] at run
  obtain ⟨exported, m₁, listed, ⟨source, entries⟩, m₂, given, _, m₃, ends, rfl, rfl⟩ := run
  obtain ⟨first, taken⟩ := specifiers_held sound listed
  have second := exportOrigin_held first.sound given
  exact (first.trans second).terminatedForm sound (Nat.lt_of_lt_of_le taken second.lastStop_le)
    (fun _ _ => .of_consumeSemicolon ends) (fun _ _ => rfl) (by rintro _ _ _ ⟨⟩)
    fun _ _ => by rw [Statement.shown, List.append_assoc]

end ScriptStyle.Grammar
