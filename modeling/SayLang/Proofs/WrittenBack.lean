import SayLang.Proofs.Acceptance
import SayLang.Proofs.Delivery
import SayLang.Proofs.MaximalMunch
import SayLang.Proofs.Shape
import SayLang.Run

/-!
# Integers that are shown and run again

The text of an integer is a program: a run of digits when the integer is not negative, and otherwise
a `-` with a run of digits behind it, which is not a number with a sign but the negation of a
number. The number is read first and has to be in range on its own. The range reaches one further
below zero than above, so there is one integer whose text is refused, the least.

> `run_describe_integer`: every other one is what its own text evaluates to.
-/

namespace SayLang

/-! ## Programs with a reading -/

/-- Running a text that has a reading answers what is read. -/
theorem run_of_readsProgram {source : String} {program : Program}
    (h : ReadsProgram (tokenize source) program) :
    (parse source).diagnostics = [] ∧
      Object.value <$> (run source).result = .ok program.meaning := by
  obtain ⟨hclean, hprogram⟩ := parseFrom_of_readsProgram (Window.ofSource_starts source) h
  have hclean : (parse source).diagnostics = [] := hclean
  have hprogram : (parse source).program = program := hprogram
  refine ⟨hclean, ?_⟩
  rw [result_run, if_pos hclean, hprogram, ← program.evaluate_value ⟨0⟩]
  rfl

/-! ## Numbers -/

section number

variable {number last : Token} {value : Integer}

/-- A number at the end of a text is read up to there, whatever operator stands in front. -/
theorem readsExpression_number {floor : Precedence} (hnumber : number.kind = .number)
    (hvalue : Integer.ofDigits? number.literal = some value) (hlast : last.kind = .eof) :
    ReadsExpression floor [number, last] (.number number value) [last] := by
  refine .mk (.number hnumber hvalue) (.stop ?_)
  rw [hlast]
  cases floor <;> decide

/-- What is read up to the end of a text is all of the program. -/
theorem readsProgram_expression {first : Token} {tokens : List Token} {e : Expression}
    (h : ReadsExpression .lowest (first :: tokens) e [last]) (hlast : last.kind = .eof) :
    ReadsProgram (first :: tokens) ⟨[.expression first e]⟩ := by
  have hsemicolon : last.kind ≠ .semicolon := by
    rw [hlast]
    decide
  exact .mk (.cons (.expression h (.absent hsemicolon)) (.stop (.inr hlast))) hlast

theorem readsProgram_number (hnumber : number.kind = .number)
    (hvalue : Integer.ofDigits? number.literal = some value) (hlast : last.kind = .eof) :
    ReadsProgram [number, last] ⟨[.expression number (.number number value)]⟩ :=
  readsProgram_expression (readsExpression_number hnumber hvalue hlast) hlast

theorem readsProgram_opposite {sign : Token} (hsign : sign.kind = .minus)
    (hnumber : number.kind = .number) (hvalue : Integer.ofDigits? number.literal = some value)
    (hlast : last.kind = .eof) :
    ReadsProgram [sign, number, last]
      ⟨[.expression sign (.unary sign (.number number value))]⟩ := by
  refine readsProgram_expression (.mk (.unary (.inr hsign) ?_) (.stop ?_)) hlast
  · exact readsExpression_number hnumber hvalue hlast
  · rw [hlast]
    decide

end number

/-! ## Texts of numbers -/

/-- Tokens that do not clash may be written without blanks. -/
theorem tokenize_touching (tokens : List Token)
    (hspells : ∀ token ∈ tokens, Spells token.kind token.literal)
    (hchain : tokens.IsChain fun first second => ¬ first.Clashes second) :
    (tokenize (String.ofList (tokens.flatMap fun token => token.literal.toList))).map
        Token.spelling =
      tokens.map Token.spelling ++ [(.eof, "")] := by
  let pieces : List Piece := tokens.map fun token => ⟨[], token⟩
  have hpieces : ∀ piece ∈ pieces,
      Blank piece.gap ∧ Spells piece.token.kind piece.token.literal := by
    rw [List.forall_mem_map]
    exact fun token htoken => ⟨List.forall_mem_nil _, hspells token htoken⟩
  have hrest : (Lexer.ofSource (String.ofList (tokens.flatMap fun token =>
      token.literal.toList))).rest = written pieces ++ [] := by
    rw [Lexer.ofSource, String.toList_ofList, List.append_nil, written, List.flatMap_map]
    rfl
  have hwritten := (Lexer.spellings_tokens_eq_iff (List.forall_mem_nil _) hpieces hrest).mpr ?_
  · rw [List.map_map] at hwritten
    exact hwritten
  · exact List.isChain_map_of_isChain _ (fun _ _ h _ => h) hchain

section digits

variable {digits : String} {value : Integer}

/-- What denotes a number is spelled as one. -/
theorem spells_of_ofDigits? (h : Integer.ofDigits? digits = some value) :
    Spells .number digits := by
  obtain ⟨hne, hdigits, -⟩ := Integer.ofDigits?_eq_some_iff.mp h
  exact .number (mt String.toList_eq_nil_iff.mpr hne) (List.all_eq_true.mp hdigits)

/-- A run of digits is a program. -/
theorem readsProgram_digits (h : Integer.ofDigits? digits = some value) :
    ∃ number, ReadsProgram (tokenize digits) ⟨[.expression number (.number number value)]⟩ := by
  have htokens : (tokenize digits).map Token.spelling = [(.number, digits), (.eof, "")] := by
    have htouching := tokenize_touching [⟨.number, digits, 1⟩]
      (List.forall_mem_singleton.mpr (spells_of_ofDigits? h)) (.singleton _)
    rwa [List.flatMap_singleton, String.ofList_toList] at htouching
  obtain ⟨number, more, htokenize, hnumber, hmore⟩ := List.map_eq_cons_iff.mp htokens
  obtain ⟨last, rfl, hlast⟩ := List.map_eq_singleton_iff.mp hmore
  obtain ⟨hkind, rfl⟩ := Prod.mk.inj hnumber
  rw [htokenize]
  exact ⟨number, readsProgram_number hkind h (Prod.mk.inj hlast).1⟩

/-- So is a run of digits with a `-` in front. -/
theorem readsProgram_opposite_digits (h : Integer.ofDigits? digits = some value) :
    ∃ sign number, sign.kind = .minus ∧ ReadsProgram (tokenize ("-" ++ digits))
      ⟨[.expression sign (.unary sign (.number number value))]⟩ := by
  have htokens : (tokenize ("-" ++ digits)).map Token.spelling =
      [(.minus, "-"), (.number, digits), (.eof, "")] := by
    have htouching := tokenize_touching [⟨.minus, "-", 1⟩, ⟨.number, digits, 1⟩]
      (List.forall_mem_cons.mpr
        ⟨.sign rfl, List.forall_mem_singleton.mpr (spells_of_ofDigits? h)⟩)
      (.cons_cons (by simp [Token.Clashes, Kind.isWord, Kind.isKeyword]) (.singleton _))
    rwa [List.flatMap_cons, List.flatMap_singleton, String.ofList_append, String.ofList_toList,
      String.ofList_toList] at htouching
  obtain ⟨sign, more, htokenize, hsign, hmore⟩ := List.map_eq_cons_iff.mp htokens
  obtain ⟨number, more, rfl, hnumber, hmore⟩ := List.map_eq_cons_iff.mp hmore
  obtain ⟨last, rfl, hlast⟩ := List.map_eq_singleton_iff.mp hmore
  have hminus := (Prod.mk.inj hsign).1
  obtain ⟨hkind, rfl⟩ := Prod.mk.inj hnumber
  rw [htokenize]
  exact ⟨sign, number, hminus, readsProgram_opposite hminus hkind h (Prod.mk.inj hlast).1⟩

end digits

/-! ## Running the text of an integer -/

/-- The text of an integer other than the least has a reading, and what is read means it. -/
theorem exists_readsProgram_describe {n : Integer} (hleast : n.val ≠ -9223372036854775808) :
    ∃ program, ReadsProgram (tokenize (Value.integer n).describe) program ∧
      program.meaning = .integer n := by
  by_cases hneg : n.val < 0
  · have hge := n.ge
    -- the opposite is in range because `n` is not the least integer
    let opposite : Integer := ⟨-n.val, by omega, by omega⟩
    have hopposite : 0 ≤ opposite.val := show 0 ≤ -n.val by omega
    obtain ⟨sign, number, hsign, hreads⟩ :=
      readsProgram_opposite_digits (ofDigits?_toDigits hopposite)
    have hsource : (Value.integer n).describe =
        "-" ++ String.ofList (Nat.toDigits 10 opposite.val.toNat) :=
      Integer.text_of_neg hneg
    rw [← hsource] at hreads
    refine ⟨_, hreads, ?_⟩
    have hback : -opposite.val = n.val := Int.neg_neg n.val
    rw [Program.meaning_expression, Expression.meaning, Expression.meaning,
      Value.unary_integer hsign, hback, Value.ofExact_of_inRange _ n.inRange_val]
    rfl
  · have hnonneg : 0 ≤ n.val := Int.not_lt.mp hneg
    obtain ⟨number, hreads⟩ := readsProgram_digits (ofDigits?_toDigits hnonneg)
    rw [← Integer.text_of_nonneg hnonneg] at hreads
    exact ⟨_, hreads, by rw [Program.meaning_expression, Expression.meaning]⟩

/-- The text of an integer other than the least is a program that evaluates to it. Of the least one,
the number behind the sign is refused. -/
theorem run_describe_integer (n : Integer) :
    let source := (Value.integer n).describe
    let found : List Diagnostic :=
      if n.val = -9223372036854775808 then [⟨1, .notAnInteger "9223372036854775808"⟩] else []
    (parse source).diagnostics = found ∧
      Object.value <$> (run source).result =
        if n.val = -9223372036854775808 then .error (.syntaxErrors found)
        else .ok (.integer n) := by
  intro source found
  by_cases hleast : n.val = -9223372036854775808
  · have hfound : found = [⟨1, .notAnInteger "9223372036854775808"⟩] := if_pos hleast
    have hsource : source = "-9223372036854775808" := by
      show toString n.val = _
      rw [hleast]
      rfl
    have hparse : (parse source).diagnostics = found := by
      rw [hsource, hfound]
      decide
    refine ⟨hparse, ?_⟩
    rw [if_pos hleast, result_run, hparse, hfound, if_neg (List.cons_ne_nil _ _)]
    rfl
  · have hfound : found = [] := if_neg hleast
    obtain ⟨program, hreads, hmeaning⟩ := exists_readsProgram_describe hleast
    rw [if_neg hleast, hfound, ← hmeaning]
    exact run_of_readsProgram hreads

/-- So not every integer is what its own text evaluates to. -/
theorem describe_least_integer_refused :
    ¬ ∀ n : Integer, (parse (Value.integer n).describe).diagnostics = [] ∧
      ∃ object, (run (Value.integer n).describe).result = .ok object ∧
        object.value = .integer n := by
  intro h
  exact absurd (h ⟨-9223372036854775808, by decide, by decide⟩).1 (by decide)

end SayLang
