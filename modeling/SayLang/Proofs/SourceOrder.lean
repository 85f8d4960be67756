import SayLang.Proofs.Layout
import SayLang.Proofs.Order

/-!
# Diagnostics in source order

The parser only goes forward, so its diagnostics come in the order of the tokens that they are
about, and since lines never decrease from token to token they do not decrease from diagnostic to
diagnostic either.

> `parse_steady`: all that happens in a parse keeps to the marks.
> `Lexer.tokens_lines`: lines do not decrease, and stay within those of the text.
> `diagnostics_in_source_order`: the diagnostics, with the positions of their tokens.

A construct that is broken off by the end of input may be reported further on, where the parser
sees the end of input again; the position is then that of the first one.
-/

namespace SayLang

/-! ## The course of a source text -/

/-- A list of tokens that is seen is there token by token. -/
theorem Cursor.Sees.getElem?_eq {κ : Type} [Cursor κ] {tokens : List Token} :
    ∀ {cursor : κ}, Cursor.Sees cursor tokens → ∀ {i : Nat}, i < tokens.length →
      tokens[i]? = some (Cursor.nth cursor i) := by
  induction tokens with
  | nil => exact fun _ _ hi => absurd hi (Nat.not_lt_zero _)
  | cons token tokens ih =>
    intro cursor h i hi
    cases i with
    | zero => rw [List.getElem?_cons_zero, Cursor.nth_zero, h.1]
    | succ i => exact ih h.2 (Nat.lt_of_succ_lt_succ hi)

/-- The tokens of a source text, and behind them the end of input for ever. -/
def Course.ofSource (source : String) : Course where
  token := Cursor.nth (Window.ofSource source)
  last := (tokenize source).length - 1
  kind_ne_iff position := by
    have hfaces := Window.ofSource_faces source
    have hupTo := tokenize_upToEof source
    constructor
    · intro hne
      by_contra hle
      exact hne (hfaces.kind_eq_eof hupTo (by omega))
    · intro hlt heof
      have hlength := hupTo.length_of_eof (hfaces.sees.getElem?_eq (by omega)) heof
      omega

theorem Window.ofSource_on (source : String) :
    Cursor.On (Course.ofSource source) (Window.ofSource source) := by
  intro n
  show _ = Cursor.nth (Window.ofSource source) (0 + n)
  rw [Nat.zero_add]

namespace Course

variable {source : String}

/-- Up to the first end of input these are the tokens of the text. -/
theorem getElem?_tokenize {position : Nat} (hle : position ≤ (Course.ofSource source).last) :
    (tokenize source)[position]? = some ((Course.ofSource source).token position) := by
  have hpos := List.length_pos_iff.mpr (tokenize_upToEof source).ne_nil
  have hlast : (Course.ofSource source).last = (tokenize source).length - 1 := rfl
  exact (Window.ofSource_sees source).getElem?_eq (by omega)

/-- From there on it is the end of input again and again. -/
theorem token_last_add (n : Nat) :
    (Course.ofSource source).token ((Course.ofSource source).last + n) =
      (Course.ofSource source).token (Course.ofSource source).last := by
  induction n with
  | zero => rfl
  | succ n ih =>
    have heof :
        ((Course.ofSource source).token ((Course.ofSource source).last + n)).kind = .eof :=
      ((Course.ofSource source).kind_eq_iff _).mpr (Nat.le_add_right _ _)
    rw [← ih]
    exact (Window.ofSource_faces source).settles _ heof

/-- So no position need be beyond the first end of input. -/
theorem token_min (position : Nat) :
    (Course.ofSource source).token (min position (Course.ofSource source).last) =
      (Course.ofSource source).token position := by
  by_cases hle : position ≤ (Course.ofSource source).last
  · rw [Nat.min_eq_left hle]
  · obtain ⟨n, rfl⟩ := Nat.exists_eq_add_of_le (Nat.le_of_not_le hle)
    rw [Nat.min_eq_right (Nat.le_add_right _ _), token_last_add]

end Course

/-- All that happens in a parse keeps to the marks. -/
theorem parse_steady (source : String) :
    Steady (Course.ofSource source) Marks.start (parse source).events := by
  have hfresh : Parse.Fresh (Course.ofSource source) Marks.start (Window.ofSource source) :=
    ⟨Window.ofSource_on source, Nat.zero_le _, Nat.zero_le _, Nat.zero_le _⟩
  show Steady _ _ (Parse.program.run (Window.ofSource source)).events
  rw [run_program]
  exact (Parse.statements_proceed _ hfresh).1

/-! ## Lines -/

/-- Lines do not decrease from token to token, and stay within those of the text. -/
theorem Lexer.tokens_lines (lexer : Lexer) :
    lexer.tokens.Pairwise (fun token later => token.line ≤ later.line) ∧
      ∀ token ∈ lexer.tokens,
        lexer.line ≤ token.line ∧ token.line ≤ lexer.line + lexer.rest.count '\n' := by
  induction lexer using Lexer.tokens.induct with
  | case1 lexer heof =>
    have hline := lexer.next_line
    have hadd := lexer.next_line_add
    rw [tokens, if_pos heof]
    refine ⟨List.pairwise_singleton _ _, fun token htoken => ?_⟩
    obtain rfl := List.mem_singleton.mp htoken
    omega
  | case2 lexer hne ih =>
    have hline := lexer.next_line
    have hadd := lexer.next_line_add
    obtain ⟨hpairwise, hbounds⟩ := ih
    rw [tokens, if_neg hne]
    refine ⟨hpairwise.cons fun later hlater => ?_, List.forall_mem_cons.mpr ⟨?_, ?_⟩⟩
    · have hbound := hbounds later hlater
      omega
    · omega
    · intro token htoken
      have hbound := hbounds token htoken
      omega

/-- The lines of the tokens of a text, by position. -/
theorem Course.line_mono {source : String} {position later : Nat} (hle : position ≤ later) :
    ((Course.ofSource source).token position).line ≤
      ((Course.ofSource source).token later).line := by
  have hpairwise := (Lexer.ofSource source).tokens_lines.1
  rw [← token_min position, ← token_min later]
  have hle : min position (ofSource source).last ≤ min later (ofSource source).last :=
    min_le_min_right _ hle
  have hget := getElem?_tokenize (min_le_right position (ofSource source).last)
  have hget' := getElem?_tokenize (min_le_right later (ofSource source).last)
  rcases Nat.eq_or_lt_of_le hle with heq | hlt
  · rw [heq]
  · obtain ⟨hi, hi'⟩ := List.getElem?_eq_some_iff.mp hget
    obtain ⟨hj, hj'⟩ := List.getElem?_eq_some_iff.mp hget'
    rw [← hi', ← hj']
    exact List.pairwise_iff_getElem.mp hpairwise _ _ hi hj hlt

/-! ## Diagnostics -/

/-- The diagnostics of a parse with their positions come in the order of these, and each is about
the token at its position. -/
theorem located_in_order (source : String) :
    ((parse source).events.filterMap Event.located?).Pairwise (fun found later =>
        found.1 ≤ later.1) ∧
      ∀ found ∈ (parse source).events.filterMap Event.located?,
        found.2.IsAbout ((Course.ofSource source).token found.1) := by
  have hordered := Steady.in_order Event.located? Prod.fst Marks.diagnostic 0
    (fun found => found.2.IsAbout ((Course.ofSource source).token found.1))
    ?_ ?_ (parse_steady source)
  · exact ⟨hordered.2, fun found hfound => (hordered.1 found hfound).2⟩
  · intro marks event found hevent hallows
    cases event with
    | statement _ _ | expression _ => cases hevent
    | diagnostic _ _ =>
      obtain rfl := Option.some.inj hevent
      exact ⟨hallows.1, rfl, hallows.2⟩
  · intro marks event hevent
    cases event with
    | statement _ _ | expression _ => rfl
    | diagnostic _ _ => cases hevent

/-- Each diagnostic is about a token of the text. -/
theorem exists_token_of_mem_diagnostics {source : String} {found : Diagnostic}
    (hfound : found ∈ (parse source).diagnostics) :
    ∃ token ∈ tokenize source, found.IsAbout token := by
  obtain ⟨event, hevent, hdiagnostic⟩ := List.mem_filterMap.mp hfound
  cases event with
  | statement _ _ | expression _ => cases hdiagnostic
  | diagnostic position other =>
    obtain rfl : other = found := Option.some.inj hdiagnostic
    have hlocated : (position, other) ∈ (parse source).events.filterMap Event.located? :=
      List.mem_filterMap.mpr ⟨_, hevent, rfl⟩
    refine ⟨_, ?_, (located_in_order source).2 _ hlocated⟩
    rw [← Course.token_min]
    exact List.mem_of_getElem? (Course.getElem?_tokenize (min_le_right _ _))

/-- Where the text stands on one line, so do its diagnostics. -/
theorem line_eq_one_of_mem_diagnostics {source : String} {found : Diagnostic}
    (hsource : '\n' ∉ source.toList) (hfound : found ∈ (parse source).diagnostics) :
    found.line = 1 := by
  obtain ⟨token, htoken, habout⟩ := exists_token_of_mem_diagnostics hfound
  have hbounds : 1 ≤ token.line ∧ token.line ≤ 1 + source.toList.count '\n' :=
    (Lexer.ofSource source).tokens_lines.2 token htoken
  rw [List.count_eq_zero_of_not_mem hsource] at hbounds
  rw [habout.line]
  omega

/-- Diagnostics come in the order of the tokens that they are about: there are positions that do not
decrease, one for each diagnostic in the order of recording, with a token there that the diagnostic
names and whose line it gives. So the lines do not decrease either, and they are lines of the
text. -/
theorem diagnostics_in_source_order (source : String) :
    (∃ positions : List Nat, positions.Pairwise (· ≤ ·) ∧
      List.Forall₂ (fun position found => ∃ token : Token,
        (tokenize source)[position]? = some token ∧ Diagnostic.IsAbout found token)
        positions (parse source).diagnostics) ∧
    ((parse source).diagnostics.map Diagnostic.line).Pairwise (· ≤ ·) ∧
    ∀ found ∈ (parse source).diagnostics,
      1 ≤ found.line ∧ found.line ≤ 1 + source.toList.count '\n' := by
  have hdiagnostics : (parse source).diagnostics =
      ((parse source).events.filterMap Event.located?).map Prod.snd := by
    rw [Parsed.diagnostics, List.map_filterMap]
    congr 1
    funext event
    cases event <;> rfl
  obtain ⟨horder, habout⟩ := located_in_order source
  -- beyond the first end of input there is that token again
  have hget (position : Nat) :
      (tokenize source)[min position (Course.ofSource source).last]? =
        some ((Course.ofSource source).token position) := by
    rw [Course.getElem?_tokenize (min_le_right _ _), Course.token_min]
  rw [hdiagnostics]
  refine ⟨⟨((parse source).events.filterMap Event.located?).map fun found =>
    min found.1 (Course.ofSource source).last, ?_, ?_⟩, ?_, ?_⟩
  · rw [List.pairwise_map]
    exact horder.imp fun hle => min_le_min_right _ hle
  · rw [List.forall₂_map_left_iff, List.forall₂_map_right_iff, List.forall₂_same]
    exact fun found hfound => ⟨_, hget found.1, habout found hfound⟩
  · rw [List.pairwise_map, List.pairwise_map]
    refine horder.imp_of_mem fun {found later} hfound hlater hle => ?_
    rw [(habout found hfound).line, (habout later hlater).line]
    exact Course.line_mono hle
  · intro found hfound
    obtain ⟨located, hlocated, rfl⟩ := List.mem_map.mp hfound
    rw [(habout located hlocated).line]
    exact (Lexer.ofSource source).tokens_lines.2 _ (List.mem_of_getElem? (hget located.1))

end SayLang
