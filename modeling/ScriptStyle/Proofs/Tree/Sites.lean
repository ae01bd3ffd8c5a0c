import ScriptStyle.Proofs.Tree.Nodes

/-!
The sites at which a program shows its literals. A literal is shown as a property name, in a module
clause or as a whole statement just where a node of the tree holds it so.
-/

namespace ScriptStyle

namespace Program

variable {program : Program} {node : Node} {part : Shown}

/-- A literal at a special site is one that a node of the program determines. -/
theorem exists_determines (member : part ∈ program.shown) (sited : part.isSited)
    : ∃ node, program.Contains node ∧ node.Determines part := by
  obtain ⟨top, among, piece, shows, inside⟩ :=
    (Node.splits_statements .program program.body).exists_of_mem member
  obtain ⟨statement, present, rfl⟩ := List.mem_map.mp among
  obtain ⟨node, within, determines⟩ := shows.exists_determines inside sited
  exact ⟨node, ⟨statement, present, within⟩, determines⟩

/-- The literals of a node of the program are shown at their sites. -/
theorem Contains.exists_shows (contains : program.Contains node)
    : ∃ piece, node.Shows piece ∧ ∀ part ∈ piece, part.isSited → part ∈ program.shown := by
  obtain ⟨statement, present, within⟩ := contains
  obtain ⟨parts, shows, among⟩ :=
    (Node.splits_statements .program program.body).exists_of_child
      (List.mem_map_of_mem present)
  obtain ⟨piece, shows, inside⟩ := within.exists_shows shows
  exact ⟨piece, shows, fun part member sited => among (inside part member sited)⟩

/-- A literal that one node alone determines, and that is shown wherever that node is. -/
theorem shown_iff (sited : part.isSited)
    (only : ∀ other : Node, other.Determines part → other = node)
    (shown : ∀ piece, node.Shows piece → part ∈ piece)
    : part ∈ program.shown ↔ program.Contains node := by
  constructor
  · intro member
    obtain ⟨other, contains, determines⟩ := exists_determines member sited
    exact only other determines ▸ contains
  · intro contains
    obtain ⟨piece, shows, inside⟩ := contains.exists_shows
    exact inside part (shown piece shows) sited

theorem shown_propertyKey_iff (span : Span)
    : .string span .propertyKey ∈ program.shown
      ↔ program.Contains (.propertyKey (.string span)) := by
  refine shown_iff rfl (fun other determines => ?_) fun piece shows => ?_
  · cases determines
    rfl
  · cases shows
    rw [PropertyKey.shown]
    exact List.mem_singleton_self _

theorem shown_moduleName_iff (span : Span)
    : .string span .moduleName ∈ program.shown
      ↔ program.Contains (.moduleName (.string span)) := by
  refine shown_iff rfl (fun other determines => ?_) fun piece shows => ?_
  · cases determines
    rfl
  · cases shows
    exact List.mem_singleton_self _

theorem shown_moduleSource_iff (span : Span)
    : .string span .moduleSource ∈ program.shown ↔ program.Contains (.moduleSource span) := by
  refine shown_iff rfl (fun other determines => ?_) fun piece shows => ?_
  · cases determines
    rfl
  · cases shows
    exact List.mem_singleton_self _

/-- A literal that is a whole statement is shown with the marks of the statement. -/
theorem shown_stringStatement_iff {span : Span} {directive bodyLevel : Bool}
    : .string span (.statement directive bodyLevel) ∈ program.shown
      ↔ ∃ placement, placement.isDirective = directive ∧ placement.isBodyLevel = bodyLevel
          ∧ program.Contains (.statement (.expression (.string span) placement)) := by
  constructor
  · intro member
    obtain ⟨node, contains, determines⟩ := exists_determines member rfl
    cases determines with
    | string _ placement => exact ⟨placement, rfl, rfl, contains⟩
  · rintro ⟨placement, rfl, rfl, contains⟩
    obtain ⟨piece, shows, inside⟩ := contains.exists_shows
    cases shows with
    | statement _ enclosing =>
        rw [Statement.shown] at inside
        exact inside _ (List.mem_cons_of_mem _ (List.mem_singleton_self _)) rfl

theorem shown_templateStatement_iff {literal : TemplateLiteral} {directive bodyLevel : Bool}
    : .template literal (.statement directive bodyLevel) ∈ program.shown
      ↔ ∃ span placement, placement.isDirective = directive ∧ placement.isBodyLevel = bodyLevel
          ∧ program.Contains (.statement (.expression (.template literal span) placement)) := by
  constructor
  · intro member
    obtain ⟨node, contains, determines⟩ := exists_determines member rfl
    cases determines with
    | template _ span placement => exact ⟨span, placement, rfl, rfl, contains⟩
  · rintro ⟨span, placement, rfl, rfl, contains⟩
    obtain ⟨piece, shows, inside⟩ := contains.exists_shows
    cases shows with
    | statement _ enclosing =>
        obtain ⟨whole, quasis, substitutions, isTagged⟩ := literal
        rw [Statement.shown, TemplateLiteral.shown] at inside
        exact inside _ (List.mem_cons_of_mem _ (List.mem_cons_self ..)) rfl

/-- Templates are shown as expressions or as statements. -/
theorem site_of_template {literal : TemplateLiteral} {site : LiteralSite}
    (member : .template literal site ∈ program.shown)
    : site = .expression ∨ ∃ directive bodyLevel, site = .statement directive bodyLevel := by
  by_cases usual : site = .expression
  · exact .inl usual
  · obtain ⟨node, contains, determines⟩ :=
      exists_determines member (by simpa [Shown.isSited] using usual)
    cases determines
    exact .inr ⟨_, _, rfl⟩

end Program

end ScriptStyle
