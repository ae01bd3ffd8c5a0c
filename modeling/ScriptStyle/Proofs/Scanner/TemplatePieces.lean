import ScriptStyle.Proofs.Scanner.Nested
import ScriptStyle.Proofs.Scanner.Rereading

/-!
The pieces of templates are nested in every source, whatever slashes are read again: the scanner
keeps of the open braces just what its tokens open and close.
-/

namespace ScriptStyle

namespace Scanner

variable {scanner after : Scanner} {reading : SlashReading} {front : Reading} {kind : TokenKind}
  {token : Token}

/-- The open braces behind a token. -/
theorem behind_braces (kind : TokenKind) (front : Reading)
    : (scanner.behind kind front).braces
      = bracesAfter front.braces kind (String.ofList (scanner.rest.take front.length)) := by
  cases kind <;> rfl

section Braces

variable {rest : List Char}

theorem braces_of_readComment
    : (scanner.readComment rest).braces = scanner.braces := by
  simp only [readComment]
  split <;> rfl

theorem braces_of_readString {quote : Char}
    : (scanner.readString quote rest).braces = scanner.braces := by
  simp only [readString]
  split <;> rfl

theorem braces_of_readWord {first : Char}
    : (scanner.readWord first).braces = scanner.braces := by
  simp only [readWord]
  split
  · rfl
  · split <;> rfl

end Braces

/-- Reading a later piece of a template ends its innermost substitution, and all else that is read
leaves the open braces to be told from its text. -/
theorem braces_of_read? (read : scanner.read? reading = some front)
    (outcome : front.outcome = .ok kind)
    : (kind = .templateMiddle ∨ kind = .templateTail)
          ∧ scanner.braces = .substitution :: front.braces
      ∨ ¬(kind = .templateMiddle ∨ kind = .templateTail) ∧ front.braces = scanner.braces := by
  revert read
  fun_cases read? scanner reading <;> intro read
  case case1 => cases read
  all_goals obtain rfl := Option.some.inj read
  case case2 | case5 | case6 | case11 | case14 =>
    obtain rfl := Except.ok.inj outcome
    exact .inr ⟨by simp, rfl⟩
  case case3 =>
    obtain rfl := kind_of_readComment outcome
    exact .inr ⟨by simp, braces_of_readComment⟩
  case case4 =>
    refine .inr ⟨?_, braces_of_readSlash ..⟩
    rcases kind_of_readSlash outcome with rfl | rfl <;> simp
  case case7 | case10 | case12 | case15 =>
    refine .inr ⟨?_, braces_of_readWord⟩
    rcases kind_of_readWord outcome with rfl | rfl <;> simp
  case case8 =>
    refine .inr ⟨?_, rfl⟩
    rcases kind_of_readTemplate outcome with ⟨rfl, -⟩ | ⟨rfl, -⟩ <;> simp
  case case9 outer resumed =>
    refine .inl ⟨?_, resumed⟩
    rcases kind_of_readTemplate outcome with ⟨rfl, -⟩ | ⟨rfl, -⟩ <;> simp
  case case13 =>
    obtain ⟨rfl, -⟩ := kind_of_readString outcome
    exact .inr ⟨by simp, braces_of_readString⟩

/-- A closing brace is read as one only where no substitution is innermost. -/
theorem braces_of_closing {outer : List Brace} (read : scanner.read? reading = some front)
    (outcome : front.outcome = .ok kind)
    (closes : (scanner.tokenAt kind front.length).isPunctuator "\x7d")
    : scanner.braces ≠ .substitution :: outer := by
  intro resumed
  simp only [Token.isPunctuator, tokenAt, Bool.and_eq_true, beq_iff_eq] at closes
  obtain ⟨rfl, spelled⟩ := closes
  have chars : scanner.rest.take front.length = ['\x7d'] := by
    simpa using congrArg String.toList spelled
  obtain ⟨rest, text⟩ : ∃ rest, scanner.rest = '\x7d' :: rest := by
    rw [← List.take_append_drop front.length scanner.rest, chars]
    exact ⟨_, rfl⟩
  have again : scanner.read? reading
      = some (scanner.readTemplate rest outer .templateTail .templateMiddle) := by
    simp [read?, text, resumed]
  obtain rfl := Option.some.inj (read.symm.trans again)
  rcases kind_of_readTemplate outcome with ⟨same, -⟩ | ⟨same, -⟩ <;> cases same

/-- The scanner keeps what a token opens and closes. -/
theorem turns_of_next (read : scanner.next reading = (.ok (some token), after))
    : Turns token scanner.braces after.braces := by
  obtain ⟨front, kind, reads, outcome, rfl, rfl⟩ := next_eq_token.mp read
  rw [← skipBlank_braces, behind_braces]
  generalize scanner.skipBlank = here at reads
  rcases braces_of_read? reads outcome with ⟨rfl | rfl, braces⟩ | ⟨notLater, braces⟩
  · rw [braces]
    exact .middle rfl
  · rw [braces]
    exact .tail rfl
  · rw [braces]
    cases kind with
    | templateHead => exact .head rfl
    | templateMiddle | templateTail => simp at notLater
    | punctuator =>
        have spelled (text : String)
            : (here.tokenAt .punctuator front.length).isPunctuator text
              = (String.ofList (here.rest.take front.length) == text) := rfl
        rw [bracesAfter, ← spelled, ← spelled]
        split_ifs with opens closes
        · exact .opening opens
        · cases opened : here.braces with
          | nil => exact .stray closes
          | cons innermost outer =>
              cases innermost with
              | block => exact .closing closes
              | substitution => exact absurd opened (braces_of_closing reads outcome closes)
        · refine .level ?_
          rw [Token.isLevel, Token.isBrace, Bool.eq_false_iff.mpr opens,
            Bool.eq_false_iff.mpr closes]
          rfl
    | _ => exact .level rfl

end Scanner

/-- A run of the scanner keeps what its tokens open and close. -/
theorem Trail.leads {start stop : Scanner} {tokens : List Token} (trail : Trail start tokens stop)
    : Leads start.braces tokens stop.braces := by
  induction trail with
  | nil => exact .nil
  | cons read _ ih => exact .cons (Scanner.turns_of_next read) ih

/-- In the tokens of every source, whatever slashes are read again, each piece of a template has
its own partner, and the braces in a substitution match within it. -/
theorem TokenList.templates_nested {source : String} {list : TokenList}
    (lexed : ofSource source = .ok list) (calls : List (Nat × SlashReading))
    : TemplatesNested (list.rereadAll calls).tokens := by
  simp only [ofSource, ofSourceWith] at lexed
  split at lexed
  · cases lexed
  · obtain rfl := Except.ok.inj lexed
    obtain ⟨stop, chain, -⟩ :=
      (scan_runsFrom (.ofText .standard source.toList) .guessed).rereadAll calls
    exact Leads.templatesNested chain.trail.leads

/-- A template in a template, and a brace that is part of a regular expression once the slash in
front of it is read as the start of one. -/
theorem TokenList.templates_nested_of_hidden_brace
    : ∃ list, ofSource "`a$\x7b x /\x7d/ `$\x7b\x7b\x7d\x7d` \x7db`" = .ok list
        ∧ (list.rereadAll [(2, .regex)]).tokens.map Token.text
          = ["`a$\x7b", "x", "/\x7d/", "`$\x7b", "\x7b", "\x7d", "\x7d`", "\x7db`"]
        ∧ TemplatesNested (list.rereadAll [(2, .regex)]).tokens :=
  have lexed : ofSource "`a$\x7b x /\x7d/ `$\x7b\x7b\x7d\x7d` \x7db`" = .ok _ := rfl
  ⟨_, lexed, by decide +kernel, templates_nested lexed [(2, .regex)]⟩

end ScriptStyle
