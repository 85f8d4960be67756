import SayLang.Proofs.Delivery
import SayLang.Proofs.Formation
import SayLang.Proofs.Lockstep

/-!
# Layout and names do not matter

The lines of tokens, the names of identifiers, the zeros in front of a number and the characters
that the language does not know are carried along, and nothing is ever decided by them.
`Relabelling.plain` takes them away. Texts whose tokens correspond in all other respects become the
same list of tokens by that, so they are parsed alike and mean the same.

> `parseTokens_relabel`: parsing tokens relabelled gives the tree and the diagnostics relabelled.
> `plain_eq_of_corresponds`: tokens that correspond are the same without what does not matter.
> `parse_up_to_layout`: texts whose tokens correspond have the same errors and mean the same.
-/

namespace SayLang

/-! ## Parsing tokens relabelled -/

/-- The tokens of a text may be relabelled before parsing as well as after it. -/
theorem parseTokens_relabel (r : Relabelling) (source : String) :
    (parseTokens ((tokenize source).map r.token)).program = (parse source).program.relabel r ∧
      (parseTokens ((tokenize source).map r.token)).diagnostics =
        (parse source).diagnostics.map (Diagnostic.relabel r) := by
  have hupTo := tokenize_upToEof source
  have hupTo' := hupTo.map r.kind_eq
  have habreast := abreast_of_faces r hupTo (Window.ofSource_faces source)
    (Strip.ofTokens_faces hupTo')
  have hlength := (Window.ofSource_starts source).length_le
  have hlength' := (Strip.ofTokens_starts hupTo').length_le
  rw [List.length_map] at hlength'
  have hmirrors := Parse.statements_mirrors (Cursor.ahead (Window.ofSource source) + 3) (by omega)
    (show _ ≤ Cursor.ahead (Strip.ofTokens ((tokenize source).map r.token)) + 3 by omega) habreast
  constructor
  · show Program.mk (parseFrom _).program.statements = Program.mk _
    rw [statements_parseFrom, hmirrors.value_eq, ← statements_parseFrom]
    rfl
  · rw [parseTokens, diagnostics_parseFrom, hmirrors.diagnostics_eq, ← diagnostics_parseFrom]
    rfl

/-! ## What does not matter -/

/-- The text of a token without what does not matter in it. -/
def Token.plainText (token : Token) : String :=
  match token.kind with
  | .identifier | .illegal => ""
  | .number =>
    match Integer.ofDigits? token.literal with
    | some value => String.ofList (Nat.toDigits 10 value.val.toNat)
    | none => token.literal
  | _ => token.literal

theorem Token.plainText_of_some {token : Token} (hk : token.kind = .number) {value : Integer}
    (h : Integer.ofDigits? token.literal = some value) :
    token.plainText = String.ofList (Nat.toDigits 10 value.val.toNat) := by
  unfold plainText
  rw [hk]
  simp only [h]

theorem Token.plainText_of_none {token : Token} (hk : token.kind = .number)
    (h : Integer.ofDigits? token.literal = none) : token.plainText = token.literal := by
  unfold plainText
  rw [hk]
  simp only [h]

theorem Token.plainText_of_ne {token : Token} (hname : token.kind ≠ .identifier)
    (hnumber : token.kind ≠ .number) (hillegal : token.kind ≠ .illegal) :
    token.plainText = token.literal := by
  unfold plainText
  split
  next hk => exact absurd hk hname
  next hk => exact absurd hk hillegal
  next hk => exact absurd hk hnumber
  next => rfl

/-- All lines, names and unknown characters away, and numbers without leading zeros. -/
def Relabelling.plain : Relabelling where
  token t := ⟨t.kind, t.plainText, 0⟩
  line _ := 0
  name _ := ""
  kind_eq _ := rfl
  line_eq _ := rfl
  name_eq {t} hk := by
    show t.plainText = ""
    unfold Token.plainText
    rw [hk]
  value_eq {t} hk := by
    show Integer.ofDigits? t.plainText = _
    cases hvalue : Integer.ofDigits? t.literal with
    | none => rw [Token.plainText_of_none hk hvalue, hvalue]
    | some value =>
      rw [Token.plainText_of_some hk hvalue, ofDigits?_toDigits (nonneg_of_ofDigits? hvalue)]
  digits_eq {t} hk hnone := Token.plainText_of_none hk hnone
  literal_eq {t} hname hnumber hillegal := Token.plainText_of_ne hname hnumber hillegal

/-- Tokens of the same kind. Numbers denote the same number in range, or are written alike. -/
structure Token.Corresponds (token other : Token) : Prop where
  /-- The kinds are the same. -/
  kind_eq : token.kind = other.kind
  /-- So are numbers, or their digits. -/
  number : token.kind = .number →
    (∃ value, Integer.ofDigits? token.literal = some value ∧
      Integer.ofDigits? other.literal = some value) ∨ token.literal = other.literal

/-- The token is spelled as its kind says, also where its kind is the end of input. -/
structure Token.AsCut (token : Token) : Prop where
  /-- Operators and keywords are spelled as their kinds are. -/
  spelled : token.Spelled
  /-- The end of input has no text. -/
  eof : token.kind = .eof → token.literal = ""

theorem Lexer.next_asCut (lexer : Lexer) : lexer.next.1.AsCut := by
  refine ⟨lexer.next_spelled, fun heof => ?_⟩
  rcases lexer.next_eof_or_spells with ⟨-, hnil⟩ | hspells
  · rw [next_of_nil hnil]
  · exact absurd heof hspells.kind_ne_eof

/-- Tokens that correspond are the same without what does not matter. -/
theorem plain_eq_of_corresponds {token other : Token} (h : token.Corresponds other)
    (hcut : token.AsCut) (hcut' : other.AsCut) :
    Relabelling.plain.token token = Relabelling.plain.token other := by
  have hk := h.kind_eq
  have htext : token.plainText = other.plainText := by
    by_cases hnumber : token.kind = .number
    · have hnumber' : other.kind = .number := by rw [← hk, hnumber]
      rcases h.number hnumber with ⟨value, hvalue, hvalue'⟩ | hliteral
      · rw [Token.plainText_of_some hnumber hvalue, Token.plainText_of_some hnumber' hvalue']
      · unfold Token.plainText
        rw [← hk, hliteral]
    · by_cases hfixed : token.kind.isFixed = true
      · have hliteral : token.literal = other.literal := by
          rw [hcut.spelled hfixed, hcut'.spelled (by rwa [← hk]), hk]
        unfold Token.plainText
        rw [← hk, hliteral]
      · -- a name, an unknown character or the end of input
        unfold Token.plainText
        rw [← hk]
        cases hkind : token.kind with
        | identifier | illegal => rfl
        | number => exact absurd hkind hnumber
        | eof => rw [hcut.eof hkind, hcut'.eof (by rw [← hk, hkind])]
        | _ => exact absurd (by rw [hkind]; rfl) hfixed
  show Token.mk _ _ 0 = Token.mk _ _ 0
  rw [htext, hk]

/-- So are lists of them. -/
theorem map_plain_eq_of_forall₂ {tokens others : List Token}
    (h : List.Forall₂ Token.Corresponds tokens others) :
    (∀ token ∈ tokens, token.AsCut) → (∀ other ∈ others, other.AsCut) →
      tokens.map Relabelling.plain.token = others.map Relabelling.plain.token := by
  induction h with
  | nil => exact fun _ _ => rfl
  | cons hfirst _ ih =>
    intro hcut hcut'
    obtain ⟨hcutFirst, hcutRest⟩ := List.forall_mem_cons.mp hcut
    obtain ⟨hcutFirst', hcutRest'⟩ := List.forall_mem_cons.mp hcut'
    rw [List.map_cons, List.map_cons, plain_eq_of_corresponds hfirst hcutFirst hcutFirst',
      ih hcutRest hcutRest']

/-! ## Texts that correspond -/

theorem Program.meaning_relabel (r : Relabelling) (program : Program) :
    (program.relabel r).meaning = program.meaning := by
  rw [Program.meaning, Program.relabel, Statement.meaningOfEach_relabel]
  rfl

/-- Texts whose tokens correspond, one by one, are wrong in the same ways, one after the other, have
trees that differ only in lines, names, spellings of numbers and unknown characters, and evaluate to
the same values, with the same messages of errors. -/
theorem parse_up_to_layout {source other : String}
    (h : List.Forall₂ Token.Corresponds (tokenize source) (tokenize other)) :
    (parse source).diagnostics.map Diagnostic.problem =
        (parse other).diagnostics.map Diagnostic.problem ∧
      (parse source).program.relabel .plain = (parse other).program.relabel .plain ∧
      ∀ supply supply' : Supply, ((parse source).program.evaluate.run supply).value.value =
        ((parse other).program.evaluate.run supply').value.value := by
  have htokens := map_plain_eq_of_forall₂ h (Lexer.forall_mem_tokens Lexer.next_asCut _)
    (Lexer.forall_mem_tokens Lexer.next_asCut _)
  obtain ⟨hprogram, hdiagnostics⟩ := parseTokens_relabel .plain source
  obtain ⟨hprogram', hdiagnostics'⟩ := parseTokens_relabel .plain other
  rw [htokens, hprogram'] at hprogram
  rw [htokens, hdiagnostics'] at hdiagnostics
  have hproblem : Diagnostic.problem ∘ Diagnostic.relabel .plain = Diagnostic.problem := rfl
  refine ⟨?_, hprogram.symm, fun supply supply' => ?_⟩
  · have hproblems := congrArg (List.map Diagnostic.problem) hdiagnostics
    rw [List.map_map, List.map_map, hproblem] at hproblems
    exact hproblems.symm
  · rw [Program.evaluate_value, Program.evaluate_value, ← Program.meaning_relabel .plain,
      ← hprogram, Program.meaning_relabel]

/-- A name, a number and a character that the language does not know, written in two ways. -/
theorem parse_up_to_layout_of_unknown :
    List.Forall₂ Token.Corresponds (tokenize "x 01 @") (tokenize "name\n1\t$") ∧
      (parse "x 01 @").diagnostics ≠ [] ∧
      (parse "x 01 @").diagnostics.map Diagnostic.problem =
        (parse "name\n1\t$").diagnostics.map Diagnostic.problem ∧
      (parse "x 01 @").program.relabel .plain = (parse "name\n1\t$").program.relabel .plain := by
  have htokens : tokenize "x 01 @" =
      [⟨.identifier, "x", 1⟩, ⟨.number, "01", 1⟩, ⟨.illegal, "@", 1⟩, ⟨.eof, "", 1⟩] := by
    rw [tokenize, Lexer.tokens, if_neg (by decide), Lexer.tokens, if_neg (by decide),
      Lexer.tokens, if_neg (by decide), Lexer.tokens, if_pos (by decide)]
    rfl
  have htokens' : tokenize "name\n1\t$" =
      [⟨.identifier, "name", 1⟩, ⟨.number, "1", 2⟩, ⟨.illegal, "$", 2⟩, ⟨.eof, "", 2⟩] := by
    rw [tokenize, Lexer.tokens, if_neg (by decide), Lexer.tokens, if_neg (by decide),
      Lexer.tokens, if_neg (by decide), Lexer.tokens, if_pos (by decide)]
    rfl
  have hnumber : Token.Corresponds ⟨.number, "01", 1⟩ ⟨.number, "1", 2⟩ :=
    ⟨rfl, fun _ => .inl ⟨⟨1, by decide, by decide⟩, rfl, rfl⟩⟩
  have h : List.Forall₂ Token.Corresponds (tokenize "x 01 @") (tokenize "name\n1\t$") := by
    rw [htokens, htokens']
    refine .cons ⟨rfl, fun hk => ?_⟩ (.cons hnumber (.cons ⟨rfl, fun hk => ?_⟩
      (.cons ⟨rfl, fun hk => ?_⟩ .nil))) <;> cases hk
  have hparse := parse_up_to_layout h
  exact ⟨h, by decide, hparse.1, hparse.2.1⟩

end SayLang
