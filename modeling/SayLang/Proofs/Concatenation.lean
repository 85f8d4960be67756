import SayLang.Proofs.Delivery
import SayLang.Proofs.Finding
import SayLang.Proofs.Following
import SayLang.Proofs.Layout
import SayLang.Proofs.Lockstep

/-!
# Programs one after the other

A text that is right and ends with a semicolon may be followed by any other text, right or wrong.
The tokens are those of the one and then those of the other further down; the first statements end
at the semicolon, whatever follows; and the parser goes over what follows as it would from the
start.

> `tokenize_append`: tokens of texts one after the other.
> `parse_append`: their statements, diagnostics and value.
-/

namespace SayLang

/-! ## Cutting -/

/-- A run that has ended does not go on in more text. -/
theorem run_append {p : Char → Bool} {rest : List Char} (h : rest.dropWhile p ≠ [])
    (more : List Char) :
    (rest ++ more).takeWhile p = rest.takeWhile p ∧
      (rest ++ more).dropWhile p = rest.dropWhile p ++ more := by
  have hlength : (rest.takeWhile p).length ≠ rest.length := fun hlength => by
    have hsum := congrArg List.length (List.takeWhile_append_dropWhile (p := p) (l := rest))
    rw [List.length_append] at hsum
    exact h (List.length_eq_zero_iff.mp (by omega))
  rw [List.takeWhile_append, if_neg hlength, List.dropWhile_append]
  simp [h]

namespace Lexeme

/-- More text does not change a token that has some behind it, or that is a semicolon. -/
theorem cut_append_right {c : Char} {rest : List Char} (hblank : isBlank c = false)
    (h : (cut c rest).rest ≠ [] ∨ (cut c rest).kind = .semicolon) (more : List Char) :
    cut c (rest ++ more) =
      ⟨(cut c rest).kind, (cut c rest).text, (cut c rest).rest ++ more⟩ := by
  obtain ⟨chars, htext, hrest⟩ := cut_text_eq rest c
  have hspells := cut_spells hblank rest
  rw [htext] at hspells
  have hcut (behind : List Char) :
      cut c (chars ++ behind) = ⟨(cut c rest).kind, c :: chars, behind⟩ ↔
        (cut c rest).kind.EndsBefore behind :=
    hspells.cut_eq_iff String.toList_ofList behind
  have hends : (cut c rest).kind.EndsBefore (cut c rest).rest := by
    rw [← hcut, ← hrest, ← htext]
  -- what is behind it starts with the same character, or no character is a further one of it
  have hends' : (cut c rest).kind.EndsBefore ((cut c rest).rest ++ more) := by
    rcases h with hne | hk
    · obtain ⟨d, others, hd⟩ := List.exists_cons_of_ne_nil hne
      rw [hd] at hends ⊢
      exact hends
    · rw [hk]
      exact fun _ _ => rfl
  have hmore := (hcut _).mpr hends'
  rwa [← List.append_assoc, ← hrest, ← htext] at hmore

end Lexeme

namespace Lexer

/-- Further down the tokens are the same, further down. -/
theorem tokens_shift (lines : Nat) (lexer : Lexer) :
    (⟨lexer.rest, lexer.line + lines⟩ : Lexer).tokens =
      lexer.tokens.map (Relabelling.shift lines).token := by
  have hnext (lexer : Lexer) : (⟨lexer.rest, lexer.line + lines⟩ : Lexer).next =
      ((Relabelling.shift lines).token lexer.next.1,
        ⟨lexer.next.2.rest, lexer.next.2.line + lines⟩) := by
    unfold next
    split <;> simp [Relabelling.shift, Nat.add_right_comm, *]
  induction lexer using Lexer.tokens.induct with
  | case1 lexer heof =>
    have heof' : ((Relabelling.shift lines).token lexer.next.1).kind = .eof := heof
    rw [tokens, hnext, if_pos heof', tokens.eq_1 lexer, if_pos heof]
    rfl
  | case2 lexer hne ih =>
    have hne' : ((Relabelling.shift lines).token lexer.next.1).kind ≠ .eof := hne
    rw [tokens, hnext, if_neg hne', ih, tokens.eq_1 lexer, if_neg hne]
    rfl

theorem next_kind_of_nil {lexer : Lexer} (h : lexer.rest = []) : lexer.next.1.kind = .eof := by
  unfold next
  rw [h]
  rfl

/-- Behind nothing but blanks the next token is that of what is put there. -/
theorem next_append_of_eof {lexer : Lexer} (h : lexer.next.1.kind = .eof) (more : List Char) :
    (⟨lexer.rest ++ more, lexer.line⟩ : Lexer).next =
      (⟨more, lexer.line + lexer.rest.count '\n'⟩ : Lexer).next := by
  have hblanks : Blank lexer.rest := by
    rcases lexer.next_eof_or_spells with ⟨-, hnil⟩ | hspells
    · exact (laidOut_nil hnil).last
    · exact absurd h hspells.kind_ne_eof
  unfold next
  rw [List.takeWhile_append_of_pos hblanks, List.dropWhile_append_of_pos hblanks,
    List.count_append, Nat.add_assoc]

/-- A token that has text behind it, or that is a semicolon, is cut whatever is put there. -/
theorem next_append {lexer : Lexer} (hne : lexer.next.1.kind ≠ .eof)
    (h : lexer.next.2.rest ≠ [] ∨ lexer.next.1.kind = .semicolon) (more : List Char) :
    (⟨lexer.rest ++ more, lexer.line⟩ : Lexer).next =
      (lexer.next.1, ⟨lexer.next.2.rest ++ more, lexer.next.2.line⟩) := by
  cases hrest : lexer.rest.dropWhile isBlank with
  | nil =>
    unfold next at hne
    rw [hrest] at hne
    exact absurd rfl hne
  | cons c rest =>
    obtain ⟨htake, hdrop⟩ := run_append (by rw [hrest]; exact List.cons_ne_nil _ _) more
    rw [hrest, List.cons_append] at hdrop
    rw [next_of_cons hrest] at h
    have hblank := isBlank_of_dropWhile hrest
    rw [next_of_cons hrest, next_of_cons hdrop, Lexeme.cut_append_right hblank h, htake]

/-- Tokens that end with a semicolon are followed by the tokens of what is put behind the text. -/
theorem tokens_append (lexer : Lexer) (more : List Char) :
    ∀ {before : List Token} {last : Token}, lexer.tokens = before ++ [last] →
      before = [] ∨ EndsWithSemicolon before →
      (⟨lexer.rest ++ more, lexer.line⟩ : Lexer).tokens =
        before ++ (⟨more, lexer.line + lexer.rest.count '\n'⟩ : Lexer).tokens := by
  induction lexer using Lexer.tokens.induct with
  | case1 lexer heof =>
    intro before last htokens _
    rw [tokens, if_pos heof] at htokens
    obtain rfl : before = [] := by
      cases before with
      | nil => rfl
      | cons token before => simp at htokens
    exact tokens_congr (next_append_of_eof heof more)
  | case2 lexer hne ih =>
    intro before last htokens hends
    rw [tokens, if_neg hne] at htokens
    cases before with
    | nil =>
      exact absurd (List.cons.inj htokens).2 (tokens_upToEof _).ne_nil
    | cons token before =>
      obtain ⟨rfl, hrest⟩ := List.cons.inj htokens
      obtain ⟨last', hlast, hk⟩ := hends.resolve_left (List.cons_ne_nil _ _)
      have hbefore : before = [] ∨ EndsWithSemicolon before := by
        cases before with
        | nil => exact .inl rfl
        | cons token before => exact .inr ⟨last', hlast, hk⟩
      have hnext : lexer.next.2.rest ≠ [] ∨ lexer.next.1.kind = .semicolon := by
        cases before with
        | nil =>
          cases hlast
          exact .inr hk
        | cons token before =>
          -- behind a text used up there would be no such token
          refine .inl fun hnil => ?_
          rw [tokens, if_pos (next_kind_of_nil hnil)] at hrest
          simp at hrest
      have happend := next_append hne hnext more
      rw [tokens, happend, if_neg hne, ih hrest hbefore, next_line_add]
      rfl

end Lexer

/-- The tokens of a text that ends with a semicolon, and then those of the text behind it, further
down by the line feeds passed. -/
theorem tokenize_append {first : String}
    (h : (tokenize first).dropLast = [] ∨ EndsWithSemicolon (tokenize first).dropLast)
    (second : String) :
    tokenize (first ++ second) = (tokenize first).dropLast ++
      (tokenize second).map (Relabelling.shift (first.toList.count '\n')).token := by
  have hlast := List.dropLast_append_getLast (tokenize_upToEof first).ne_nil
  have happend := Lexer.tokens_append (Lexer.ofSource first) second.toList hlast.symm h
  have hshift := Lexer.tokens_shift (first.toList.count '\n') (Lexer.ofSource second)
  have hstart : Lexer.ofSource (first ++ second) =
      ⟨(Lexer.ofSource first).rest ++ second.toList, (Lexer.ofSource first).line⟩ := by
    rw [Lexer.ofSource, String.toList_append]
    rfl
  rw [tokenize, hstart, happend]
  exact congrArg ((tokenize first).dropLast ++ ·) hshift

/-! ## Parsing and evaluation -/

section append

variable {first : String} (hclean : (parse first).diagnostics = [])
variable (hends : (tokenize first).dropLast = [] ∨ EndsWithSemicolon (tokenize first).dropLast)

include hclean hends

/-- Behind the statements of the first text the parser goes on as over the second one, further
down. -/
theorem statements_and_diagnostics_append (second : String) :
    (parse (first ++ second)).program.statements =
        (parse first).program.statements ++ ((parse second).program.relabel
          (.shift (first.toList.count '\n'))).statements ∧
      (parse (first ++ second)).diagnostics =
        (parse second).diagnostics.map
          (Diagnostic.relabel (.shift (first.toList.count '\n'))) := by
  have hreads := readsProgram_of_diagnostics_eq_nil (Window.ofSource_starts first) hclean
  rw [← List.dropLast_append_getLast (tokenize_upToEof first).ne_nil] at hreads
  have heach := hreads.in_front_of hends
    ((tokenize second).map (Relabelling.shift (first.toList.count '\n')).token)
  rw [← tokenize_append hends] at heach
  -- the statements of the first text are found first
  have hfuel : (tokenize (first ++ second)).length + 2 ≤
      Cursor.position (Window.ofSource (first ++ second)) +
        (Cursor.ahead (Window.ofSource (first ++ second)) + 3) := by
    have hlength := (Window.ofSource_starts (first ++ second)).length_le
    omega
  obtain ⟨left, after, hleft, hfaces, hvalue, hdiagnostics⟩ :=
    heach.found hfuel (Window.ofSource_faces (first ++ second))
  -- from there on the parser goes the same way as over the second text alone
  have habreast := abreast_of_faces _ (tokenize_upToEof second) (Window.ofSource_faces second)
    hfaces
  have hlength := hfaces.position_add
  have hlength' := (Window.ofSource_starts second).length_le
  have hpos := List.length_pos_iff.mpr (tokenize_upToEof second).ne_nil
  rw [List.length_map] at hlength
  have hmirrors := Parse.statements_mirrors (Cursor.ahead (Window.ofSource second) + 3) (by omega)
    (show _ ≤ left by omega) habreast
  constructor
  · rw [parse, statements_parseFrom, hvalue, hmirrors.value_eq, ← statements_parseFrom]
    rfl
  · rw [parse, diagnostics_parseFrom, hdiagnostics, hmirrors.diagnostics_eq,
      ← diagnostics_parseFrom]
    rfl

/-- The second text decides what both mean, unless the first one means an error or the second one
has no statement. -/
theorem meaning_append (second : String) :
    (parse (first ++ second)).program.meaning =
      if (parse first).program.meaning.isError ∨ (parse second).program.statements = [] then
        (parse first).program.meaning
      else (parse second).program.meaning := by
  have happend : (parse (first ++ second)).program.meaning =
      if (parse first).program.meaning.isError then (parse first).program.meaning
      else (parse first).program.meaning.conclude
        (Statement.meaningOfEach (parse second).program.statements) := by
    rw [Program.meaning, (statements_and_diagnostics_append hclean hends second).1,
      Statement.meaningOfEach_append, Value.conclude_append rfl, Program.relabel,
      Statement.meaningOfEach_relabel]
    rfl
  rw [happend]
  cases hstatements : (parse second).program.statements with
  | nil => simp [Statement.meaningOfEach]
  | cons statement others =>
    have hne : Statement.meaningOfEach (statement :: others) ≠ [] := by
      rw [Statement.meaningOfEach]
      exact List.cons_ne_nil _ _
    have hsecond : (parse second).program.meaning =
        .conclude .null (Statement.meaningOfEach (statement :: others)) := by
      rw [Program.meaning, hstatements]
    rw [Value.conclude_of_ne_nil hne, ← hsecond]
    simp

/-- A text that is right and ends with a semicolon may be followed by any text, right or wrong. The
statements of the second one come behind those of the first one, further down by the line feeds
passed; what is wrong with it is wrong further down; and it decides the value, unless the value of
the first one is an error or it has no statement. -/
theorem parse_append (second : String) :
    (parse (first ++ second)).program.statements =
        (parse first).program.statements ++ ((parse second).program.relabel
          (.shift (first.toList.count '\n'))).statements ∧
      (parse (first ++ second)).diagnostics =
        (parse second).diagnostics.map
          (Diagnostic.relabel (.shift (first.toList.count '\n'))) ∧
      ∀ supply supply₁ supply₂ : Supply,
        let before := ((parse first).program.evaluate.run supply₁).value.value
        ((parse (first ++ second)).program.evaluate.run supply).value.value =
          if before.isError ∨ (parse second).program.statements = [] then before
          else ((parse second).program.evaluate.run supply₂).value.value := by
  obtain ⟨hstatements, hdiagnostics⟩ := statements_and_diagnostics_append hclean hends second
  refine ⟨hstatements, hdiagnostics, fun supply supply₁ supply₂ => ?_⟩
  simp only [Program.evaluate_value]
  exact meaning_append hclean hends second

end append

/-- A text that is right, and behind it on the next line one that is not. -/
theorem parse_append_of_broken :
    (parse "1;\n").diagnostics = [] ∧
      EndsWithSemicolon (tokenize "1;\n").dropLast ∧
      (parse ("1;\n" ++ "2 +")).program.statements =
        (parse "1;\n").program.statements ++ ((parse "2 +").program.relabel (.shift 1)).statements ∧
      (parse ("1;\n" ++ "2 +")).diagnostics =
        (parse "2 +").diagnostics.map (Diagnostic.relabel (.shift 1)) := by
  have hclean : (parse "1;\n").diagnostics = [] := by decide
  have htokens : tokenize "1;\n" =
      [⟨.number, "1", 1⟩, ⟨.semicolon, ";", 1⟩, ⟨.eof, "", 2⟩] := by
    rw [tokenize, Lexer.tokens, if_neg (by decide), Lexer.tokens, if_neg (by decide),
      Lexer.tokens, if_pos (by decide)]
    rfl
  have hends : EndsWithSemicolon (tokenize "1;\n").dropLast := by
    rw [htokens]
    exact ⟨_, rfl, rfl⟩
  have happend := parse_append hclean (.inr hends) "2 +"
  exact ⟨hclean, hends, happend.1, happend.2.1⟩

end SayLang
