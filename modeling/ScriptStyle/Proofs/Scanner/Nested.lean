import ScriptStyle.Proofs.Tree.Layout

/-!
Braces and templates that enclose each other. The tokens alone tell which brace closes which, and
where each substitution of a template ends: a stack of what is open is kept from token to token.
-/

namespace ScriptStyle

namespace Token

/-- Whether a token begins a substitution of a template. -/
def opensSubstitution (token : Token) : Bool :=
  token.kind == .templateHead || token.kind == .templateMiddle

/-- Whether a token ends a substitution of a template. -/
def closesSubstitution (token : Token) : Bool :=
  token.kind == .templateMiddle || token.kind == .templateTail

/-- Whether a token neither opens nor closes anything. -/
def isLevel (token : Token) : Bool :=
  !token.isBrace && !token.opensSubstitution && !token.closesSubstitution

end Token

/-- Tokens whose braces and templates are complete and enclose each other. With the flag they are
those of a template from its first piece into one of its substitutions, complete but for that. -/
inductive Nested : Bool → List Token → Prop
  | nil : Nested false []
  | level {token : Token} (flat : token.isLevel) : Nested false [token]
  | append {inside : Bool} {tokens others : List Token} (first : Nested inside tokens)
    (second : Nested false others)
    : Nested inside (tokens ++ others)
  | braced {opening closing : Token} {tokens : List Token} (opens : opening.isPunctuator "\x7b")
    (closes : closing.isPunctuator "\x7d") (within : Nested false tokens)
    : Nested false (opening :: (tokens ++ [closing]))
  | head {token : Token} (kind : token.kind = .templateHead) : Nested true [token]
  | middle {token : Token} {tokens : List Token} (template : Nested true tokens)
    (kind : token.kind = .templateMiddle)
    : Nested true (tokens ++ [token])
  | tail {token : Token} {tokens : List Token} (template : Nested true tokens)
    (kind : token.kind = .templateTail)
    : Nested false (tokens ++ [token])

/-- Between an opening token and a closing one at some indices, all that is opened is closed. -/
def Encloses (opens closes : Token → Bool) (tokens : List Token) (i j : Nat) : Prop :=
  ∃ (before : List Token) (opening : Token) (inside : List Token) (closing : Token)
    (after : List Token), tokens = before ++ opening :: (inside ++ closing :: after)
      ∧ i = before.length ∧ j = before.length + 1 + inside.length
      ∧ opens opening ∧ closes closing ∧ Nested false inside

/-- One piece of a template ends the substitution that another piece begins. -/
def Partners : List Token → Nat → Nat → Prop :=
  Encloses Token.opensSubstitution Token.closesSubstitution

/-- One brace closes another. -/
def Matched : List Token → Nat → Nat → Prop :=
  Encloses (Token.isPunctuator · "\x7b") (Token.isPunctuator · "\x7d")

/-- A substitution begins at one index and has not ended before another. -/
def IsOpenAt (tokens : List Token) (i k : Nat) : Prop :=
  i < k ∧ (∃ opening, tokens[i]? = some opening ∧ opening.opensSubstitution)
    ∧ ∀ j < k, ¬Partners tokens i j

/-- The pieces of templates are nested, and so are the braces in their substitutions. -/
structure TemplatesNested (tokens : List Token) : Prop where
  partner
    : ∀ j token, tokens[j]? = some token → token.closesSubstitution → ∃! i, Partners tokens i j
  distinct : ∀ i j k, Partners tokens i j → Partners tokens i k → j = k
  /-- A brace that is closed in a substitution was opened in it. -/
  braces
    : ∀ i k token, tokens[k]? = some token → token.isPunctuator "\x7d" → IsOpenAt tokens i k →
        ∃! m, Matched tokens m k ∧ i < m

-----------------------------------------------------------------------------------------
-- What is open
-----------------------------------------------------------------------------------------

/-- What is open in front of a token and behind it, the innermost first. -/
inductive Turns (token : Token) : List Brace → List Brace → Prop
  | level {stack : List Brace} (flat : token.isLevel) : Turns token stack stack
  | opening {stack : List Brace} (opens : token.isPunctuator "\x7b")
    : Turns token stack (.block :: stack)
  | closing {outer : List Brace} (closes : token.isPunctuator "\x7d")
    : Turns token (.block :: outer) outer
  | stray (closes : token.isPunctuator "\x7d") : Turns token [] []
  | head {stack : List Brace} (kind : token.kind = .templateHead)
    : Turns token stack (.substitution :: stack)
  | middle {outer : List Brace} (kind : token.kind = .templateMiddle)
    : Turns token (.substitution :: outer) (.substitution :: outer)
  | tail {outer : List Brace} (kind : token.kind = .templateTail)
    : Turns token (.substitution :: outer) outer

/-- What is open in front of some tokens and behind them. -/
inductive Leads : List Brace → List Token → List Brace → Prop
  | nil {braces : List Brace} : Leads braces [] braces
  | cons {braces next stop : List Brace} {token : Token} {rest : List Token}
    (turns : Turns token braces next) (leads : Leads next rest stop)
    : Leads braces (token :: rest) stop

variable {token : Token} {tokens others : List Token} {braces braces' next stop outer : List Brace}

/-- A token has one effect on what is open. -/
theorem Turns.unique (first : Turns token braces next) (second : Turns token braces stop)
    : next = stop := by
  cases first <;> cases second <;>
    simp_all [Token.isLevel, Token.isBrace, Token.opensSubstitution, Token.closesSubstitution,
      Token.isPunctuator]

namespace Leads

theorem append (first : Leads braces tokens next) (second : Leads next others stop)
    : Leads braces (tokens ++ others) stop := by
  induction first with
  | nil => exact second
  | cons turns _ ih => exact .cons turns (ih second)

theorem of_append (leads : Leads braces (tokens ++ others) stop)
    : ∃ next, Leads braces tokens next ∧ Leads next others stop := by
  induction tokens generalizing braces with
  | nil => exact ⟨braces, .nil, leads⟩
  | cons token rest ih =>
      cases leads with
      | cons turns after =>
          obtain ⟨next, before, behind⟩ := ih after
          exact ⟨next, .cons turns before, behind⟩

theorem unique (first : Leads braces tokens next) (second : Leads braces tokens stop)
    : next = stop := by
  induction first with
  | nil =>
      cases second
      rfl
  | cons turns _ ih =>
      cases second with
      | cons turns' rest =>
          obtain rfl := turns.unique turns'
          exact ih rest

theorem single (turns : Turns token braces next)
    : Leads braces [token] next :=
  .cons turns .nil

/-- The token in the middle turns what is open from the one place to the other. -/
theorem of_middle (leads : Leads braces (tokens ++ token :: others) stop)
    : ∃ front back, Leads braces tokens front ∧ Turns token front back
        ∧ Leads back others stop := by
  obtain ⟨front, before, behind⟩ := leads.of_append
  cases behind with
  | cons turns after => exact ⟨front, _, before, turns, after⟩

end Leads

-----------------------------------------------------------------------------------------
-- Complete tokens leave open what was open
-----------------------------------------------------------------------------------------

namespace Nested

/-- Wherever they stand, complete tokens can be read, and an incomplete template adds its
substitution to what is open. -/
theorem leads {inside : Bool} (nested : Nested inside tokens) (braces : List Brace)
    : Leads braces tokens (if inside then .substitution :: braces else braces) := by
  induction nested generalizing braces with
  | nil => exact .nil
  | level flat => exact .single (.level flat)
  | append _ _ first second => exact (first braces).append (second _)
  | braced opens closes _ ih =>
      exact .cons (.opening opens) ((ih (.block :: braces)).append (.single (.closing closes)))
  | head kind => exact .single (.head kind)
  | middle _ kind ih => exact (ih braces).append (.single (.middle kind))
  | tail _ kind ih => exact (ih braces).append (.single (.tail kind))

/-- Behind complete tokens is open what was open before. -/
theorem eq_of_leads (nested : Nested false tokens) (leads : Leads braces tokens stop)
    : stop = braces :=
  leads.unique (nested.leads braces)

/-- An opening token among complete ones is closed before the next of these is complete. -/
theorem not_nested_of_opens {before after : List Token}
    (nested : Nested false (before ++ token :: after))
    (opens : token.isPunctuator "\x7b" ∨ token.opensSubstitution)
    : ¬Nested false after := by
  intro closed
  obtain ⟨front, back, -, turns, behind⟩ := (nested.leads []).of_middle
  obtain rfl := closed.eq_of_leads behind
  cases turns <;>
    simp_all [Token.isLevel, Token.isBrace, Token.opensSubstitution, Token.isPunctuator]

/-- A closing token is not what first follows complete ones among complete ones. -/
theorem not_nested_of_closes {before after : List Token}
    (nested : Nested false (before ++ token :: after)) (closes : token.closesSubstitution)
    : ¬Nested false before := by
  intro complete
  obtain ⟨front, back, ahead, turns, -⟩ := (nested.leads []).of_middle
  obtain rfl := complete.eq_of_leads ahead
  cases turns <;>
    simp_all [Token.isLevel, Token.isBrace, Token.closesSubstitution, Token.isPunctuator]

end Nested

-----------------------------------------------------------------------------------------
-- One partner for each
-----------------------------------------------------------------------------------------

/-- Where two texts end alike, a token of the one is in the first or in the second part of the
other. -/
theorem append_eq_append_cons {before after : List Token}
    (same : tokens ++ others = before ++ token :: after)
    : (∃ rest, tokens = before ++ token :: rest ∧ after = rest ++ others)
      ∨ ∃ front, before = tokens ++ front ∧ others = front ++ token :: after := by
  rcases List.append_eq_append_iff.mp same with ⟨front, rfl, rfl⟩ | ⟨rest, rfl, split⟩
  · exact .inr ⟨front, rfl, rfl⟩
  · cases rest with
    | nil => exact .inr ⟨[], by simp, by simpa using split.symm⟩
    | cons first rest =>
        obtain ⟨rfl, rfl⟩ := List.cons.inj split
        exact .inl ⟨rest, rfl, rfl⟩

/-- A token is the last one of a text or stands before it. -/
theorem concat_eq_append_cons {last : Token} {before after : List Token}
    (same : tokens ++ [last] = before ++ token :: after)
    : (∃ rest, tokens = before ++ token :: rest ∧ after = rest ++ [last])
      ∨ token = last ∧ after = [] := by
  rcases append_eq_append_cons same with inside | ⟨front, rfl, split⟩
  · exact .inl inside
  · cases front <;> simp_all

namespace Encloses

variable {opens closes : Token → Bool} {i j k : Nat}

/-- A closing token closes at most one token. -/
theorem opening_unique
    (known : ∀ token, opens token → token.isPunctuator "\x7b" ∨ token.opensSubstitution)
    (first : Encloses opens closes tokens i k) (second : Encloses opens closes tokens j k)
    : i = j := by
  have notBefore {i j : Nat} (first : Encloses opens closes tokens i k)
      (second : Encloses opens closes tokens j k) : ¬i < j := by
    obtain ⟨before, opening, inside, closing, after, rfl, rfl, rfl, -, -, complete⟩ := first
    obtain ⟨before', opening', inside', closing', after', same, rfl, place, opens', -, complete'⟩ :=
      second
    intro earlier
    rw [← List.cons_append, ← List.append_assoc, ← List.cons_append, ← List.append_assoc] at same
    have lengths
        : (before ++ opening :: inside).length = (before' ++ opening' :: inside').length := by
      simp only [List.length_append, List.length_cons]
      omega
    obtain ⟨front, -⟩ := List.append_inj same lengths
    rcases append_eq_append_cons front with ⟨rest, rfl, -⟩ | ⟨more, rfl, split⟩
    · simp only [List.length_append] at earlier
      omega
    · cases more with
      | nil => simp at earlier
      | cons first more =>
          obtain ⟨-, rfl⟩ := List.cons.inj split
          exact complete.not_nested_of_opens (known _ opens') complete'
  rcases Nat.lt_trichotomy i j with less | same | more
  · exact absurd less (notBefore first second)
  · exact same
  · exact absurd more (notBefore second first)

/-- A piece of a template is ended by at most one other. -/
theorem closing_unique (known : ∀ token, closes token → token.closesSubstitution)
    (first : Encloses opens closes tokens k i) (second : Encloses opens closes tokens k j)
    : i = j := by
  have notBefore {i j : Nat} (first : Encloses opens closes tokens k i)
      (second : Encloses opens closes tokens k j) : ¬i < j := by
    obtain ⟨before, opening, inside, closing, after, rfl, rfl, rfl, -, closes, complete⟩ := first
    obtain ⟨before', opening', inside', closing', after', same, place, rfl, -, -, complete'⟩ :=
      second
    intro earlier
    obtain ⟨-, behind⟩ := List.append_inj same place
    obtain ⟨-, split⟩ := List.cons.inj behind
    rcases append_eq_append_cons split.symm with ⟨rest, rfl, -⟩ | ⟨more, rfl, -⟩
    · exact complete'.not_nested_of_closes (known _ closes) complete
    · simp only [List.length_append] at earlier
      omega
  rcases Nat.lt_trichotomy i j with less | same | more
  · exact absurd less (notBefore first second)
  · exact same
  · exact absurd more (notBefore second first)

end Encloses

-----------------------------------------------------------------------------------------
-- A partner for each
-----------------------------------------------------------------------------------------

/-- The tokens behind one that begins a substitution, if they end it. -/
def Answered (after : List Token) : Prop :=
  ∃ (inside : List Token) (closing : Token) (rest : List Token),
    after = inside ++ closing :: rest ∧ closing.closesSubstitution ∧ Nested false inside

theorem Answered.append {after : List Token} (answered : Answered after) (others : List Token)
    : Answered (after ++ others) := by
  obtain ⟨inside, closing, rest, rfl, closes, complete⟩ := answered
  exact ⟨inside, closing, rest ++ others, by simp, closes, complete⟩

/-- A substitution among complete tokens ends among them. In an incomplete template the last one
goes on to the end. -/
theorem Nested.answered {inside : Bool} {before after : List Token} (nested : Nested inside tokens)
    (split : tokens = before ++ token :: after) (opens : token.opensSubstitution)
    : Answered after ∨ inside = true ∧ Nested false after := by
  induction nested generalizing before after with
  | nil => simp at split
  | level flat =>
      rcases List.singleton_eq_append_iff.mp split with ⟨-, single⟩ | ⟨-, none⟩
      · obtain ⟨rfl, -⟩ := List.cons.inj single
        simp [Token.isLevel, opens] at flat
      · cases none
  | append first second ih ih' =>
      rcases append_eq_append_cons split with ⟨rest, rfl, rfl⟩ | ⟨front, rfl, rfl⟩
      · rcases ih rfl with answered | ⟨within, complete⟩
        · exact .inl (answered.append _)
        · exact .inr ⟨within, complete.append second⟩
      · rcases ih' rfl with answered | ⟨within, -⟩
        · exact .inl answered
        · cases within
  | braced opens' closes _ ih =>
      cases before with
      | nil =>
          obtain ⟨rfl, -⟩ := List.cons.inj split
          simp_all [Token.opensSubstitution, Token.isPunctuator]
      | cons first before =>
          rcases concat_eq_append_cons (List.cons.inj split).2 with ⟨rest, rfl, rfl⟩ | ⟨rfl, -⟩
          · rcases ih rfl with answered | ⟨within, -⟩
            · exact .inl (answered.append _)
            · cases within
          · simp_all [Token.opensSubstitution, Token.isPunctuator]
  | head kind =>
      rcases List.singleton_eq_append_iff.mp split with ⟨-, single⟩ | ⟨-, none⟩
      · obtain ⟨-, rfl⟩ := List.cons.inj single
        exact .inr ⟨rfl, .nil⟩
      · cases none
  | middle _ kind ih =>
      rcases concat_eq_append_cons split with ⟨rest, rfl, rfl⟩ | ⟨rfl, rfl⟩
      · rcases ih rfl with answered | ⟨-, complete⟩
        · exact .inl (answered.append _)
        · exact .inl ⟨rest, _, [], rfl, by simp [Token.closesSubstitution, kind], complete⟩
      · exact .inr ⟨rfl, .nil⟩
  | tail _ kind ih =>
      rcases concat_eq_append_cons split with ⟨rest, rfl, rfl⟩ | ⟨rfl, -⟩
      · rcases ih rfl with answered | ⟨-, complete⟩
        · exact .inl (answered.append _)
        · exact .inl ⟨rest, _, [], rfl, by simp [Token.closesSubstitution, kind], complete⟩
      · simp [Token.opensSubstitution, kind] at opens

/-- An incomplete template ends in a substitution of its own. -/
theorem Nested.exists_opening {inside : Bool} (nested : Nested inside tokens)
    (isInside : inside = true)
    : ∃ (front : List Token) (opening : Token) (rest : List Token),
        tokens = front ++ opening :: rest ∧ opening.opensSubstitution ∧ Nested false rest := by
  induction nested with
  | nil | level | braced | tail => cases isInside
  | append _ second ih =>
      obtain ⟨front, opening, rest, rfl, opens, complete⟩ := ih isInside
      exact ⟨front, opening, _, by simp, opens, complete.append second⟩
  | head kind => exact ⟨[], _, [], rfl, by simp [Token.opensSubstitution, kind], .nil⟩
  | middle _ kind => exact ⟨_, _, [], rfl, by simp [Token.opensSubstitution, kind], .nil⟩

/-- Complete tokens, and closing braces between them that close nothing. -/
inductive Loose : List Token → Prop
  | nil : Loose []
  | append {tokens others : List Token} (front : Loose tokens) (complete : Nested false others)
    : Loose (tokens ++ others)
  | stray {token : Token} {tokens : List Token} (front : Loose tokens)
    (closes : token.isPunctuator "\x7d")
    : Loose (tokens ++ [token])

theorem Loose.answered {before after : List Token} (loose : Loose tokens)
    (split : tokens = before ++ token :: after) (opens : token.opensSubstitution)
    : Answered after := by
  induction loose generalizing before after with
  | nil => simp at split
  | append _ complete ih =>
      rcases append_eq_append_cons split with ⟨rest, rfl, rfl⟩ | ⟨front, rfl, rfl⟩
      · exact (ih rfl).append _
      · rcases complete.answered rfl opens with answered | ⟨within, -⟩
        · exact answered
        · cases within
  | stray _ closes ih =>
      rcases concat_eq_append_cons split with ⟨rest, rfl, rfl⟩ | ⟨rfl, -⟩
      · exact (ih rfl).append _
      · simp_all [Token.opensSubstitution, Token.isPunctuator]

/-- Tokens behind which some braces and substitutions are open: each of these with the complete
tokens that follow it. -/
inductive Opened : List Token → List Brace → Prop
  | none {tokens : List Token} (loose : Loose tokens) : Opened tokens []
  | block {opening : Token} {front inside : List Token} {outer : List Brace}
    (around : Opened front outer) (opens : opening.isPunctuator "\x7b")
    (complete : Nested false inside)
    : Opened (front ++ opening :: inside) (.block :: outer)
  | substitution {front template : List Token} {outer : List Brace} (around : Opened front outer)
    (partly : Nested true template)
    : Opened (front ++ template) (.substitution :: outer)

namespace Opened

theorem append (opened : Opened tokens braces) (complete : Nested false others)
    : Opened (tokens ++ others) braces := by
  cases opened with
  | none loose => exact .none (loose.append complete)
  | block around opens inside =>
      rw [List.append_assoc, List.cons_append]
      exact .block around opens (inside.append complete)
  | substitution around partly =>
      rw [List.append_assoc]
      exact .substitution around (partly.append complete)

/-- One token more, by what it opens or closes. -/
theorem concat (opened : Opened tokens braces) (turns : Turns token braces next)
    : Opened (tokens ++ [token]) next := by
  cases turns with
  | level flat => exact opened.append (.level flat)
  | opening opens => exact .block opened opens .nil
  | head kind => exact .substitution opened (.head kind)
  | closing closes =>
      cases opened with
      | block around opens inside =>
          rw [List.append_assoc, List.cons_append]
          exact around.append (.braced opens closes inside)
  | stray closes =>
      cases opened with
      | none loose => exact .none (loose.stray closes)
  | middle kind =>
      cases opened with
      | substitution around partly =>
          rw [List.append_assoc]
          exact .substitution around (partly.middle kind)
  | tail kind =>
      cases opened with
      | substitution around partly =>
          rw [List.append_assoc]
          exact around.append (partly.tail kind)

/-- What is open behind some tokens stays so, or is closed, by those that follow. -/
theorem append_leads (opened : Opened tokens braces) (leads : Leads braces others stop)
    : Opened (tokens ++ others) stop := by
  induction leads generalizing tokens with
  | nil => rwa [List.append_nil]
  | cons turns _ ih =>
      rw [List.append_cons]
      exact ih (opened.concat turns)

end Opened

-----------------------------------------------------------------------------------------
-- Tokens that can be read from the start
-----------------------------------------------------------------------------------------

/-- A token stands behind as many others as its index says. -/
theorem exists_split {index : Nat} (here : tokens[index]? = some token)
    : ∃ before after, tokens = before ++ token :: after ∧ before.length = index := by
  obtain ⟨inside, rfl⟩ := List.getElem?_eq_some_iff.mp here
  refine ⟨tokens.take index, tokens.drop (index + 1), ?_, by simp; omega⟩
  rw [← List.drop_eq_getElem_cons, List.take_append_drop]

namespace Leads

/-- A token that ends a substitution has the piece that begins it in front. -/
theorem exists_partner {before after : List Token}
    (leads : Leads [] (before ++ token :: after) stop) (closes : token.closesSubstitution)
    : ∃ i, Partners (before ++ token :: after) i before.length := by
  obtain ⟨stack, _, ahead, turns, -⟩ := leads.of_middle
  have opened : Opened before stack := Opened.append_leads (.none .nil) ahead
  have inside : ∃ outer, stack = .substitution :: outer := by
    cases turns <;>
      simp_all [Token.isLevel, Token.closesSubstitution, Token.isPunctuator]
  obtain ⟨outer, rfl⟩ := inside
  cases opened with
  | @substitution around _ _ _ partly =>
      obtain ⟨front, opening, rest, rfl, opens, complete⟩ := partly.exists_opening rfl
      refine ⟨_, around ++ front, opening, rest, token, after, by simp, rfl, ?_, opens, closes,
        complete⟩
      simp only [List.length_append, List.length_cons]
      omega

/-- A brace that is closed while a substitution is open was opened behind its start. -/
theorem exists_matched {before after : List Token} {i : Nat}
    (leads : Leads [] (before ++ token :: after) stop) (closes : token.isPunctuator "\x7d")
    (isOpen : IsOpenAt (before ++ token :: after) i before.length)
    : ∃ m, Matched (before ++ token :: after) m before.length ∧ i < m := by
  obtain ⟨earlier, ⟨opening, here, opens⟩, unanswered⟩ := isOpen
  rw [List.getElem?_append_left earlier] at here
  obtain ⟨front, rest, split, rfl⟩ := exists_split here
  have notAnswered : ¬Answered rest := by
    rintro ⟨inside, closing, more, rfl, ends, complete⟩
    refine unanswered (front.length + 1 + inside.length) (by simp [split]; omega) ?_
    exact ⟨front, opening, inside, closing, more ++ token :: after, by simp [split], rfl, rfl,
      opens, ends, complete⟩
  obtain ⟨stack, _, ahead, turns, -⟩ := leads.of_middle
  have opened : Opened before stack := Opened.append_leads (.none .nil) ahead
  cases turns with
  | level flat => simp [Token.isLevel, Token.isBrace, closes] at flat
  | opening opens' => simp [Token.not_opens_of_closes closes] at opens'
  | head kind | middle kind | tail kind => simp [Token.isPunctuator, kind] at closes
  | stray =>
      cases opened with
      | none loose => exact absurd (loose.answered split opens) notAnswered
  | closing =>
      cases opened with
      | @block brace around inside outer _ opens' complete =>
          refine ⟨around.length, ⟨around, brace, inside, token, after, by simp, rfl, ?_, opens',
            closes, complete⟩, ?_⟩
          · simp only [List.length_append, List.length_cons]
            omega
          · rcases append_eq_append_cons split with ⟨more, rfl, -⟩ | ⟨more, rfl, within⟩
            · simp
            · cases more with
              | nil =>
                  obtain ⟨rfl, -⟩ := List.cons.inj within
                  simp_all [Token.opensSubstitution, Token.isPunctuator]
              | cons first more =>
                  rcases complete.answered (List.cons.inj within).2 opens with answered | ⟨same, -⟩
                  · exact absurd answered notAnswered
                  · cases same

/-- Tokens that begin with nothing open, and each of which can stand where it does, are nested. -/
theorem templatesNested (leads : Leads [] tokens stop)
    : TemplatesNested tokens where
  partner := by
    intro j token here closes
    obtain ⟨before, after, rfl, rfl⟩ := exists_split here
    obtain ⟨i, partners⟩ := leads.exists_partner closes
    exact ⟨i, partners, fun other same => same.opening_unique (fun _ => .inr) partners⟩
  distinct i j k first second := first.closing_unique (fun _ => id) second
  braces := by
    intro i k token here closes isOpen
    obtain ⟨before, after, rfl, rfl⟩ := exists_split here
    obtain ⟨m, matched, behind⟩ := leads.exists_matched closes isOpen
    exact ⟨m, ⟨matched, behind⟩, fun other same => same.1.opening_unique (fun _ => .inl) matched⟩

end Leads

end ScriptStyle
