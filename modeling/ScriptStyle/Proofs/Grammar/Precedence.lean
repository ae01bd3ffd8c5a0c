import ScriptStyle.Proofs.Grammar.Runs

/-!
The tree of a chain of binary operators. It keeps the order of the operands and of the operators,
groups them by their levels of precedence, and no other tree does.
-/

namespace ScriptStyle.Grammar

namespace OperatorTree

variable {α : Type}

-----------------------------------------------------------------------------------------
-- Chains and groupings
-----------------------------------------------------------------------------------------

/-- The operands of a tree, from left to right. -/
def operands : OperatorTree α → List α
  | operand value => [value]
  | node left _ right => left.operands ++ right.operands

/-- The operators of a tree, from left to right. -/
def symbols : OperatorTree α → List String
  | operand _ => []
  | node left symbol right => left.symbols ++ symbol :: right.symbols

/-- The operator at the top of a tree. -/
def root? : OperatorTree α → Option String
  | operand _ => none
  | node _ symbol _ => some symbol

/-- An operation may be the left operand of another: its operator binds no looser, and tighter if
the other operator groups to the right. -/
def FitsLeft (inner outer : String) : Prop :=
  if outer = "**" then operatorLevel outer < operatorLevel inner
  else operatorLevel outer ≤ operatorLevel inner

/-- An operation may be the right operand of another: its operator binds tighter, or no looser if
the other operator groups to the right. -/
def FitsRight (inner outer : String) : Prop :=
  if outer = "**" then operatorLevel outer ≤ operatorLevel inner
  else operatorLevel outer < operatorLevel inner

instance (inner outer : String) : Decidable (FitsLeft inner outer) :=
  inferInstanceAs (Decidable (if outer = "**" then _ else _))

instance (inner outer : String) : Decidable (FitsRight inner outer) :=
  inferInstanceAs (Decidable (if outer = "**" then _ else _))

/-- A tree that groups its operands as the levels of its operators want it. -/
inductive Grouped : OperatorTree α → Prop
  | operand (value : α) : Grouped (operand value)
  | node {left right : OperatorTree α} {symbol : String} (before : Grouped left)
    (behind : Grouped right) (fitsLeft : ∀ inner, left.root? = some inner → FitsLeft inner symbol)
    (fitsRight : ∀ inner, right.root? = some inner → FitsRight inner symbol)
    : Grouped (node left symbol right)

-----------------------------------------------------------------------------------------
-- Levels
-----------------------------------------------------------------------------------------

/-- The operator that groups to the right has the highest level alone. -/
theorem operatorLevel_le (symbol : String)
    : operatorLevel symbol ≤ 12 ∧ (operatorLevel symbol = 12 ↔ symbol = "**") := by
  unfold operatorLevel operatorLevel?
  split <;> simp_all

/-- An operator takes the operand before it exactly if its operation fits to the right of the
operator before that. -/
theorem bindsTighter_iff {symbol before : String}
    : bindsTighter symbol before ↔ FitsRight symbol before := by
  obtain ⟨bound, top⟩ := operatorLevel_le symbol
  simp only [bindsTighter, isRightAssociative, FitsRight, Bool.or_eq_true, decide_eq_true_eq,
    Bool.and_eq_true, beq_iff_eq]
  split
  case isTrue groups => simp [groups, Nat.le_iff_lt_or_eq, eq_comm]
  case isFalse => simp_all

/-- Otherwise the operation before it fits to its left. -/
theorem not_bindsTighter_iff {symbol before : String}
    : ¬bindsTighter symbol before ↔ FitsLeft before symbol := by
  obtain ⟨bound, top⟩ := operatorLevel_le symbol
  obtain ⟨bound', top'⟩ := operatorLevel_le before
  rw [bindsTighter_iff, FitsRight, FitsLeft]
  by_cases groups : symbol = "**" <;> by_cases groups' : before = "**" <;> simp_all <;> omega

-----------------------------------------------------------------------------------------
-- One more operand
-----------------------------------------------------------------------------------------

variable {tree other left right : OperatorTree α} {symbol before : String} {value : α}

theorem operands_push (tree : OperatorTree α) (symbol : String) (value : α)
    : (tree.push symbol value).operands = tree.operands ++ [value] := by
  induction tree with
  | operand first => rfl
  | node left before right _ ih =>
      rw [push]
      split
      · rw [operands, ih, operands, List.append_assoc]
      · rfl

theorem symbols_push (tree : OperatorTree α) (symbol : String) (value : α)
    : (tree.push symbol value).symbols = tree.symbols ++ [symbol] := by
  induction tree with
  | operand first => rfl
  | node left before right _ ih =>
      rw [push]
      split
      · rw [symbols, ih, symbols, List.append_assoc, List.cons_append]
      · rfl

/-- The operator at the top of a tree with one more operand is the new one or that from before. -/
theorem root?_push (tree : OperatorTree α) (symbol : String) (value : α)
    : (tree.push symbol value).root? = some symbol
      ∨ (tree.push symbol value).root? = tree.root? := by
  cases tree with
  | operand first => exact .inl rfl
  | node left before right =>
      rw [push]
      split
      · exact .inr rfl
      · exact .inl rfl

/-- An operand that is added keeps a tree grouped. -/
theorem Grouped.push (grouped : tree.Grouped) (symbol : String) (value : α)
    : (tree.push symbol value).Grouped := by
  induction grouped with
  | operand first => exact .node (.operand first) (.operand value) nofun nofun
  | @node left right before front back fitsLeft fitsRight _ ih =>
      rw [OperatorTree.push]
      split
      case isTrue tighter =>
        refine .node front ih fitsLeft fun inner root => ?_
        rcases root?_push right symbol value with new | old
        · obtain rfl := Option.some.inj (new.symm.trans root)
          exact bindsTighter_iff.mp tighter
        · exact fitsRight inner (old.symm.trans root)
      case isFalse looser =>
        refine .node (.node front back fitsLeft fitsRight) (.operand value) ?_ nofun
        rintro _ ⟨⟩
        exact not_bindsTighter_iff.mp looser

-----------------------------------------------------------------------------------------
-- Chains
-----------------------------------------------------------------------------------------

/-- Operands that are added one after another to a tree. -/
def pushAll (tree : OperatorTree α) (others : List (String × α)) : OperatorTree α :=
  others.foldl (fun tree next => tree.push next.1 next.2) tree

theorem pushAll_append (tree : OperatorTree α) (others more : List (String × α))
    : tree.pushAll (others ++ more) = (tree.pushAll others).pushAll more :=
  List.foldl_append ..

theorem pushAll_spec (grouped : tree.Grouped) (others : List (String × α))
    : (tree.pushAll others).Grouped
      ∧ (tree.pushAll others).operands = tree.operands ++ others.map Prod.snd
      ∧ (tree.pushAll others).symbols = tree.symbols ++ others.map Prod.fst := by
  induction others generalizing tree with
  | nil => simpa [pushAll] using grouped
  | cons next others ih =>
      obtain ⟨still, operands, symbols⟩ := ih (grouped.push next.1 next.2)
      refine ⟨still, ?_, ?_⟩
      · rw [pushAll, List.foldl_cons, ← pushAll, operands, operands_push, List.append_assoc]
        rfl
      · rw [pushAll, List.foldl_cons, ← pushAll, symbols, symbols_push, List.append_assoc]
        rfl

/-- The first operand of a tree. -/
def first : OperatorTree α → α
  | operand value => value
  | node left _ _ => left.first

/-- The operators of a tree, each with the operand after it. -/
def rest : OperatorTree α → List (String × α)
  | operand _ => []
  | node left symbol right => left.rest ++ (symbol, right.first) :: right.rest

/-- A tree has one operand more than operators. -/
theorem chain_eq (tree : OperatorTree α)
    : tree.operands = tree.first :: tree.rest.map Prod.snd
      ∧ tree.symbols = tree.rest.map Prod.fst := by
  induction tree with
  | operand value => exact ⟨rfl, rfl⟩
  | node left symbol right ihl ihr =>
      simp [operands, symbols, first, rest, ihl, ihr]

-----------------------------------------------------------------------------------------
-- No other tree
-----------------------------------------------------------------------------------------

theorem FitsLeft.level_le {inner outer : String} (fits : FitsLeft inner outer)
    : operatorLevel outer ≤ operatorLevel inner := by
  rw [FitsLeft] at fits
  split at fits <;> omega

theorem FitsRight.level_le {inner outer : String} (fits : FitsRight inner outer)
    : operatorLevel outer ≤ operatorLevel inner := by
  rw [FitsRight] at fits
  split at fits <;> omega

theorem FitsRight.mono {inner outer : String} (fits : FitsRight symbol outer)
    (tighter : operatorLevel symbol ≤ operatorLevel inner)
    : FitsRight inner outer := by
  unfold FitsRight at *
  split at fits <;> rename_i groups
  · rw [if_pos groups]
    omega
  · rw [if_neg groups]
    omega

/-- All operators of an operation that fits to the right of another would fit there. -/
theorem Grouped.fitsRight_of_mem (grouped : tree.Grouped)
    (fits : ∀ inner, tree.root? = some inner → FitsRight inner before)
    : ∀ symbol ∈ tree.symbols, FitsRight symbol before := by
  induction grouped with
  | operand value => nofun
  | @node left right root _ _ fitsLeft fitsRight ihl ihr =>
      have top := fits root rfl
      intro symbol among
      rcases List.mem_append.mp among with inLeft | among
      · exact ihl (fun inner found => top.mono (fitsLeft inner found).level_le) symbol inLeft
      · rcases List.mem_cons.mp among with rfl | inRight
        · exact top
        · exact ihr (fun inner found => top.mono (fitsRight inner found).level_le) symbol inRight

/-- An operator that a tree fits to the left of takes the whole tree. -/
theorem push_of_fitsLeft (fits : ∀ inner, left.root? = some inner → FitsLeft inner symbol)
    (value : α)
    : left.push symbol value = node left symbol (operand value) := by
  cases left with
  | operand first => rfl
  | node left before right =>
      rw [push, if_neg (not_bindsTighter_iff.mpr (fits before rfl))]

/-- Operators that fit to the right of another go on with the tree to its right. -/
theorem pushAll_of_fitsRight {others : List (String × α)} (right : OperatorTree α)
    (fit : ∀ next ∈ others, FitsRight next.1 symbol)
    : (node left symbol right).pushAll others = node left symbol (right.pushAll others) := by
  induction others generalizing right with
  | nil => rfl
  | cons next others ih =>
      obtain ⟨here, later⟩ := List.forall_mem_cons.mp fit
      rw [pushAll, List.foldl_cons, push, if_pos (bindsTighter_iff.mpr here), ← pushAll, ih _ later]
      rfl

/-- A grouped tree is the tree of its chain. -/
theorem Grouped.eq_ofChain (grouped : tree.Grouped)
    : tree = ofChain tree.first tree.rest := by
  induction grouped with
  | operand value => rfl
  | @node left right symbol _ behind fitsLeft fitsRight ihl ihr =>
      have fit (next : String × α) (among : next ∈ right.rest) : FitsRight next.1 symbol :=
        behind.fitsRight_of_mem fitsRight _
          (right.chain_eq.2 ▸ List.mem_map_of_mem among)
      symm
      calc ofChain left.first (left.rest ++ (symbol, right.first) :: right.rest)
          = (ofChain left.first left.rest).pushAll ((symbol, right.first) :: right.rest) :=
            pushAll_append ..
        _ = (left.push symbol right.first).pushAll right.rest := by rw [← ihl]; rfl
        _ = (OperatorTree.node left symbol (.operand right.first)).pushAll right.rest := by
            rw [push_of_fitsLeft fitsLeft]
        _ = .node left symbol (ofChain right.first right.rest) := pushAll_of_fitsRight _ fit
        _ = .node left symbol right := by rw [← ihr]

/-- The tree of a chain is the one tree that groups its operands by the levels of its operators. -/
theorem eq_ofChain_iff {first : α} {others : List (String × α)}
    : tree = ofChain first others
      ↔ tree.Grouped ∧ tree.operands = first :: others.map Prod.snd
        ∧ tree.symbols = others.map Prod.fst := by
  constructor
  · rintro rfl
    exact pushAll_spec (.operand first) others
  · rintro ⟨grouped, operands, symbols⟩
    obtain ⟨operands', symbols'⟩ := tree.chain_eq
    obtain ⟨same, seconds⟩ := List.cons.inj (operands.symm.trans operands')
    have pairs : others = tree.rest :=
      (List.zip_of_prod (symbols.symm.trans symbols') seconds).trans (List.zip_of_prod rfl rfl).symm
    rw [grouped.eq_ofChain, same, pairs]

-----------------------------------------------------------------------------------------
-- Precedence climbing
-----------------------------------------------------------------------------------------

/-- The least level of the operators that the right operand of an operation takes. -/
def nextMinimum (symbol : String) : Nat :=
  if symbol = "**" then operatorLevel symbol else operatorLevel symbol + 1

/-- A loop that climbs from a tree over operators of a least level. The right operand of each
operator is climbed to from its first operand with a least level of its own, and what that leaves
is left to the loop. -/
inductive Climbs
    : Nat → OperatorTree α → List (String × α) → OperatorTree α → List (String × α) → Prop
  | stop {minimum : Nat} {left : OperatorTree α} {others : List (String × α)}
    (looser : ∀ next, others.head? = some next → operatorLevel next.1 < minimum)
    : Climbs minimum left others left others
  | take {minimum : Nat} {left right tree : OperatorTree α} {symbol : String} {value : α}
    {others rest final : List (String × α)} (binds : minimum ≤ operatorLevel symbol)
    (operand : Climbs (nextMinimum symbol) (operand value) others right rest)
    (loop : Climbs minimum (node left symbol right) rest tree final)
    : Climbs minimum left ((symbol, value) :: others) tree final

theorem nextMinimum_le_iff {inner symbol : String}
    : nextMinimum symbol ≤ operatorLevel inner ↔ FitsRight inner symbol := by
  unfold nextMinimum FitsRight
  split
  · rfl
  · exact Nat.succ_le_iff

namespace Climbs

variable {minimum : Nat} {others rest : List (String × α)}

/-- A loop keeps a tree grouped and its operands in order, puts no operator below the least level
on top, and leaves none that it could take. -/
theorem spec (run : Climbs minimum left others tree rest) (grouped : left.Grouped)
    (fits : ∀ inner, left.root? = some inner
      → ∀ next, others.head? = some next → FitsLeft inner next.1)
    : tree.Grouped
      ∧ (∀ next, rest.head? = some next → operatorLevel next.1 < minimum)
      ∧ (tree = left ∨ ∀ inner, tree.root? = some inner → minimum ≤ operatorLevel inner)
      ∧ ∃ taken, others = taken ++ rest
        ∧ tree.operands = left.operands ++ taken.map Prod.snd
        ∧ tree.symbols = left.symbols ++ taken.map Prod.fst := by
  induction run with
  | stop looser => exact ⟨grouped, looser, .inl rfl, [], by simp⟩
  | @take minimum left right tree symbol value others rest final binds _ _ ihRight ihLoop =>
      obtain ⟨behind, looser, top, taken, split, operands, symbols⟩ :=
        ihRight (.operand value) nofun
      have fitsRight (inner : String) (root : right.root? = some inner)
          : FitsRight inner symbol := by
        rcases top with rfl | above
        · cases root
        · exact nextMinimum_le_iff.mp (above inner root)
      have node : (node left symbol right).Grouped :=
        .node grouped behind (fun inner root => fits inner root _ rfl) fitsRight
      obtain ⟨still, done, top', taken', split', operands', symbols'⟩ := ihLoop node (by
        rintro _ ⟨⟩ next head
        refine not_bindsTighter_iff.mp fun tighter => ?_
        exact Nat.not_le.mpr (looser next head)
          (nextMinimum_le_iff.mpr (bindsTighter_iff.mp tighter)))
      refine ⟨still, done, .inr ?_, (symbol, value) :: (taken ++ taken'), ?_, ?_, ?_⟩
      · rcases top' with rfl | above
        · rintro _ ⟨⟩
          exact binds
        · exact above
      · rw [split, split', List.cons_append, List.append_assoc]
      · simp [operands', operands, OperatorTree.operands]
      · simp [symbols', symbols, OperatorTree.symbols]

/-- The loop always comes to an end. -/
theorem exists_run (minimum : Nat) (left : OperatorTree α) (others : List (String × α))
    : ∃ tree rest, Climbs minimum left others tree rest ∧ rest.length ≤ others.length := by
  induction measured : others.length using Nat.strongRecOn
    generalizing minimum left others with
  | _ length ih =>
      subst measured
      cases others with
      | nil => exact ⟨left, [], .stop nofun, Nat.le_refl _⟩
      | cons next others =>
          by_cases binds : minimum ≤ operatorLevel next.1
          · obtain ⟨right, rest, operand, shorter⟩ :=
              ih _ (Nat.lt_succ_self _) (nextMinimum next.1) (.operand next.2) others rfl
            obtain ⟨tree, final, loop, shorter'⟩ :=
              ih _ (Nat.lt_succ_of_le shorter) minimum (.node left next.1 right) rest rfl
            exact ⟨tree, final, .take binds operand loop,
              Nat.le_succ_of_le (Nat.le_trans shorter' shorter)⟩
          · refine ⟨left, next :: others, .stop ?_, Nat.le_refl _⟩
            rintro _ ⟨⟩
            exact Nat.not_le.mp binds

end Climbs

/-- Precedence climbing over a whole chain builds the tree of the chain. -/
theorem climbs_iff {first : α} {others : List (String × α)}
    : Climbs 0 (operand first) others tree [] ↔ tree = ofChain first others := by
  have built {tree : OperatorTree α} {rest : List (String × α)}
      (run : Climbs 0 (operand first) others tree rest)
      : rest = [] ∧ tree = ofChain first others := by
    obtain ⟨grouped, none, -, taken, split, operands, symbols⟩ := run.spec (.operand first) nofun
    have ended : rest = [] := by
      cases rest with
      | nil => rfl
      | cons next rest => exact absurd (none next rfl) (Nat.not_lt_zero _)
    subst ended
    rw [List.append_nil] at split
    subst split
    exact ⟨rfl, eq_ofChain_iff.mpr ⟨grouped, operands, symbols⟩⟩
  constructor
  · exact fun run => (built run).2
  · rintro rfl
    obtain ⟨tree, rest, run, -⟩ := Climbs.exists_run 0 (operand first) others
    obtain ⟨rfl, rfl⟩ := built run
    exact run

end OperatorTree

/-- Operands and operators are read one after another into the tree that climbing builds of them. -/
theorem Scope.exists_climbs_of_binary {scope : Scope} {allowIn : Bool} {c c' : Cursor}
    {value : Expression} (run : scope.binary allowIn c = .ok (value, c'))
    : ∃ first others m tree, scope.unary c = .ok (first, m)
        ∧ Parser.rounds (scope.operation allowIn) m = .ok (others, c')
        ∧ OperatorTree.Climbs 0 (.operand first) others tree [] ∧ value = tree.toExpression := by
  rw [Scope.binary] at run
  obtain ⟨start, m, begins, run⟩ := Parser.bind_ok.mp run
  obtain ⟨first, m', operand, run⟩ := Parser.bind_ok.mp run
  obtain ⟨others, m'', rounds, run⟩ := Parser.bind_ok.mp run
  obtain ⟨rfl, rfl⟩ := Parser.pure_ok.mp run
  obtain ⟨-, -, -, rfl⟩ := Parser.start_ok.mp begins
  exact ⟨first, others, m', _, operand, rounds, OperatorTree.climbs_iff.mpr rfl, rfl⟩

end ScriptStyle.Grammar
