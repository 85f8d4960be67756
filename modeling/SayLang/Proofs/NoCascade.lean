import SayLang.Proofs.Covering

/-!
# One mistake does not cause many diagnostics

A parse records at most as many diagnostics as the text has tokens. One token may be reported again
and again, as the end of input is by every construct left open, so it is not the token reported that
pays: a construct that is broken off is paid for by the token that opens it, and only a token that
is refused pays for itself. Counting is the tariff in which every diagnostic costs one and every
token pays one.

> `openings_cost`: opening parentheses and then the end of input use all of this up.
> `length_diagnostics_le_length_tokenize`: the bound, and that it is reached at every depth.
-/

namespace SayLang

/-- One for every diagnostic, from every token. -/
def countingTariff : Tariff where
  toll _ := 1
  pay _ := 1
  breakage := 1
  refused _ := Int.le_refl 1
  outOfRange _ := Int.le_refl 1
  missing _ _ := Int.le_refl 1
  unclosed := Int.le_refl 1
  closed := by decide
  breakage_nonneg := by decide
  breakage_le _ := Int.le_refl 1

theorem total_countingTariff (events : List Event) :
    countingTariff.total events = (events.filterMap Event.diagnostic?).length := by
  show ((events.filterMap Event.diagnostic?).map fun _ => (1 : Int)).sum = _
  simp

/-! ## Parentheses that are only opened -/

/-- Opening parentheses, and nothing else. -/
def openings (depth : Nat) : String := String.ofList (List.replicate depth '(')

/-- Each of them is a token. -/
theorem Lexer.tokens_openings (depth line : Nat) :
    (Lexer.mk (List.replicate depth '(') line).tokens =
      List.replicate depth ⟨.leftParen, "(", line⟩ ++ [⟨.eof, "", line⟩] := by
  induction depth with
  | zero =>
    have hnext : (Lexer.mk (List.replicate 0 '(') line).next = (⟨.eof, "", line⟩, ⟨[], line⟩) := rfl
    rw [tokens, hnext, if_pos rfl]
    rfl
  | succ depth ih =>
    have hnext : (Lexer.mk (List.replicate (depth + 1) '(') line).next =
        (⟨.leftParen, "(", line⟩, ⟨List.replicate depth '(', line⟩) := rfl
    rw [tokens, hnext, if_neg (show Kind.leftParen ≠ .eof by decide), ih]
    rfl

theorem tokenize_openings (depth : Nat) :
    tokenize (openings depth) =
      List.replicate depth ⟨.leftParen, "(", 1⟩ ++ [⟨.eof, "", 1⟩] := by
  rw [tokenize, Lexer.ofSource, openings, String.toList_ofList]
  exact Lexer.tokens_openings depth 1

theorem length_tokenize_openings (depth : Nat) :
    (tokenize (openings depth)).length = depth + 1 := by
  rw [tokenize_openings, List.length_append, List.length_replicate, List.length_singleton]

namespace Course

/-- There are parentheses all the way to the end of input. -/
def Opens (course : Course) : Prop :=
  ∀ position < course.last, (course.token position).kind = .leftParen

theorem last_openings (depth : Nat) : (ofSource (openings depth)).last = depth := by
  show (tokenize (openings depth)).length - 1 = depth
  rw [length_tokenize_openings, Nat.add_sub_cancel]

theorem opens_openings (depth : Nat) : (ofSource (openings depth)).Opens := by
  intro position hlt
  have htoken := getElem?_tokenize (Nat.le_of_lt hlt)
  rw [last_openings] at hlt
  rw [tokenize_openings, List.getElem?_append_left (by rwa [List.length_replicate]),
    List.getElem?_replicate, if_pos hlt] at htoken
  rw [← Option.some.inj htoken]

end Course

namespace Parse

variable {κ : Type} [Cursor κ] [LawfulCursor κ] {course : Course}

/-- At the end of input there is nothing else ahead. -/
theorem kind_peek_eq_eof {cursor : κ} (hon : Cursor.On course cursor)
    (hposition : Cursor.position cursor = course.last) : (Cursor.peek cursor).kind = .eof := by
  by_contra hne
  have hlt := (course.kind_ne_iff _).mp (hon.peek_eq ▸ hne)
  omega

/-- What opens and never closes is reported once for each parenthesis, and the operand missing at
the end of input once more. -/
theorem openings_cost (hopens : course.Opens) (depth : Nat) :
    ∀ {fuel : Nat} {cursor : κ} (spent : Int), depth < fuel → Cursor.On course cursor →
      Cursor.position cursor + depth = course.last →
      Costs countingTariff (expression fuel .lowest) cursor spent fun spent' _ after =>
        spent' = spent + depth + 1 ∧ Cursor.On course after ∧
          Cursor.position after = course.last := by
  induction depth with
  | zero =>
    intro fuel cursor spent hfuel hon hlast
    obtain ⟨fuel, rfl⟩ := Nat.exists_eq_add_of_le' hfuel
    have heof : (Cursor.current cursor).kind = .eof := by
      by_contra hne
      have hlt := hon.position_lt hne
      omega
    simp only [expression, costs_bind, costs_position, costs_record_expression, costs_current,
      heof, opening?, costs_reject]
    exact ⟨by simp [countingTariff], hon, hlast⟩
  | succ depth ih =>
    intro fuel cursor spent hfuel hon hlast
    obtain ⟨fuel, rfl⟩ := Nat.exists_eq_add_of_le' (Nat.lt_of_le_of_lt (Nat.zero_le _) hfuel)
    have hk : (Cursor.current cursor).kind = .leftParen := by
      rw [hon.current_eq]
      exact hopens _ (by omega)
    have hinner := ih spent (Nat.lt_of_succ_lt_succ hfuel) hon.advance
      (by rw [LawfulCursor.position_advance]; omega)
    simp only [expression, costs_bind, costs_position, costs_record_expression, costs_current,
      hk, opening?, group, costs_advance]
    refine hinner.mono fun spent' inner after hafter => ?_
    obtain ⟨hspent, hon', hposition⟩ := hafter
    have hpeek := kind_peek_eq_eof hon' hposition
    rw [costs_expecting, hpeek]
    refine ⟨fun heof => absurd heof (by decide), fun _ => ?_⟩
    rw [costs_of_run_eq (run_climb_of_not_lt _ (by rw [hpeek]; decide)) rfl]
    refine ⟨?_, hon', hposition⟩
    show spent' + 1 = _
    omega

/-- As a statement they are all that a text has, so no others are read. -/
theorem statements_openings_cost (hopens : course.Opens) (hpos : 0 < course.last) {fuel : Nat}
    {cursor : κ} (spent : Int) (hfuel : course.last + 1 < fuel) (hon : Cursor.On course cursor)
    (hstart : Cursor.position cursor = 0) :
    Costs countingTariff (statements fuel) cursor spent fun spent' _ _ =>
      spent' = spent + course.last + 1 := by
  obtain ⟨fuel, rfl⟩ := Nat.exists_eq_add_of_le' (Nat.lt_of_le_of_lt (Nat.zero_le _) hfuel)
  have hk : (Cursor.current cursor).kind = .leftParen := by
    rw [hon.current_eq]
    exact hopens _ (by omega)
  have hexpression := openings_cost hopens course.last spent (Nat.lt_of_succ_lt_succ hfuel) hon
    (by omega)
  rw [statements, costs_bind, costs_current, hk, if_neg (by decide)]
  simp only [statement, expressionStatement, costs_bind, costs_current, costs_position,
    costs_record_statement, costs_optionalSemicolon, costs_advance, costs_pure, hk]
  refine hexpression.mono fun spent' _ after hafter => ?_
  obtain ⟨hspent, hon', hposition⟩ := hafter
  have heof : (Cursor.peek after).kind = .eof := kind_peek_eq_eof hon' hposition
  rw [heof, if_neg (by decide)]
  have heof' : (Cursor.current (Cursor.advance after)).kind = .eof := by
    rwa [LawfulCursor.current_advance]
  rw [costs_of_run_eq (run_statements_of_eof heof') rfl]
  exact hspent

end Parse

theorem length_diagnostics_openings (depth : Nat) :
    (parse (openings (depth + 1))).diagnostics.length = depth + 2 := by
  have hahead := (Window.ofSource_starts (openings (depth + 1))).length_le
  have hlast := Course.last_openings (depth + 1)
  rw [length_tokenize_openings] at hahead
  have hcosts := Parse.statements_openings_cost (Course.opens_openings (depth + 1)) (by omega) 0
    (show _ < Cursor.ahead (Window.ofSource (openings (depth + 1))) + 3 by omega)
    (Window.ofSource_on (openings (depth + 1))) rfl
  rw [Parse.Costs, total_countingTariff, hlast] at hcosts
  rw [parse, diagnostics_parseFrom]
  omega

/-- The diagnostics of a parse are at most as many as the tokens of the text, the end of input
included; and as many where parentheses are opened, however many, and nothing else is there. -/
theorem length_diagnostics_le_length_tokenize :
    (∀ source, (parse source).diagnostics.length ≤ (tokenize source).length) ∧
      ∀ depth, (parse (openings (depth + 1))).diagnostics.length =
        (tokenize (openings (depth + 1))).length := by
  refine ⟨fun source => ?_, fun depth => ?_⟩
  · have hcovered := countingTariff.parse_covered source
    simpa [countingTariff] using hcovered
  · rw [length_diagnostics_openings, length_tokenize_openings]

end SayLang
