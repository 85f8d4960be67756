import SayLang.Proofs.Delivery
import SayLang.Proofs.Drawn
import SayLang.Proofs.Outline

/-!
# The rendering determines the tree

A rendering says all there is to a tree but its tokens. `Sexp.read` reads a tree back from the
S-expression that it is rendered as, by the head of each form, and what the parser formed comes back
without its tokens. Names are never mistaken for anything else: they are words, and none of them is
a keyword.

> `Expression.reads`: what an expression is rendered as is told apart and read back as it.
> `forget_eq_of_render_eq`: two parsed programs that are rendered alike are the same.
-/

namespace SayLang

/-! ## Reading back -/

/-- The expression that an atom is rendered from. -/
def Expression.ofAtom (text : String) : Expression :=
  match Integer.ofDigits? text with
  | some value => .number .blank value
  | none =>
    if text = "true" then .boolean .blank true
    else if text = "false" then .boolean .blank false
    else .identifier ⟨.blank, text⟩

/-- The kind that messages and renderings write as the text. -/
def Kind.ofText? (text : String) : Option Kind := Kind.all.find? (·.text = text)

theorem Kind.ofText?_text (kind : Kind) : Kind.ofText? kind.text = some kind := by
  cases kind <;> decide

/-- The name that an S-expression is. -/
def Sexp.name : Sexp → Name
  | .atom text => ⟨.blank, text⟩
  | _ => ⟨.blank, ""⟩

/-- The expression that a statement is. -/
def Statement.asExpression : Statement → Expression
  | .expression _ value => value
  | _ => .error .blank ""

/-- The block that a statement is. -/
def Statement.asBlock : Statement → Block
  | .block body => body
  | _ => .mk .blank []

/-- A form whose head is the text of a kind, from its parts and what they are read as. What no
tree is rendered as does not matter. -/
def Statement.ofKind (kind : Kind) (items : List Sexp) (parts : List Statement) : Statement :=
  match kind, items, parts with
  | .ifWord, _, [condition, consequence] =>
    .expression .blank (.ifThen .blank condition.asExpression consequence.asBlock)
  | .ifWord, _, [condition, consequence, _, alternative] =>
    .expression .blank
      (.ifElse .blank condition.asExpression consequence.asBlock alternative.asBlock)
  | .funWord, .list _ names :: _, [_, body] =>
    .expression .blank (.function .blank (names.map Sexp.name) body.asBlock)
  | .sayWord, name :: _, [_, value] | .invarWord, name :: _, [_, value] =>
    .say kind.bare name.name value.asExpression
  | .returnWord, _, [] => .bareReturn .blank
  | .returnWord, _, [value] => .returnOf .blank value.asExpression
  | _, _, [operand] => .expression .blank (.unary kind.bare operand.asExpression)
  | _, _, [left, right] =>
    .expression .blank (.binary left.asExpression kind.bare right.asExpression)
  | _, _, _ => .bareReturn .blank

/-- A form whose head is no kind: a call, or an error. -/
def Statement.ofWord (head : String) : List Statement → Statement
  | [] => .bareReturn .blank
  | callee :: arguments =>
    if head = "call" then
      .expression .blank (.call .blank callee.asExpression (arguments.map Statement.asExpression))
    else callee

/-- A list in parentheses, from its parts and what they are read as. -/
def Statement.ofList : List Sexp → List Statement → Statement
  | .atom head :: items, _ :: parts =>
    match Kind.ofText? head with
    | some kind => .ofKind kind items parts
    | none => .ofWord head parts
  | _, _ => .bareReturn .blank

mutual

/-- What an S-expression is rendered from. A quoted text is the message of an error. -/
def Sexp.read : Sexp → Statement
  | .atom text => .expression .blank (.ofAtom text)
  | .quoted message => .expression .blank (.error .blank message)
  | .list .curly items => .block (.mk .blank (Sexp.readEach items))
  | .list .round items => .ofList items (Sexp.readEach items)

/-- What each S-expression of a list is. -/
def Sexp.readEach : List Sexp → List Statement
  | [] => []
  | item :: items => item.read :: Sexp.readEach items

end

/-! ## What is read back -/

/-- The S-expression is told apart from others and is read back as the statement. -/
structure Sexp.Reads (s : Sexp) (statement : Statement) : Prop where
  /-- Its atoms are told apart. -/
  solid : s.Solid
  /-- It is read as the statement. -/
  read_eq : s.read = statement

/-- The S-expressions are, one by one. -/
structure Sexp.ReadsEach (items : List Sexp) (parts : List Statement) : Prop where
  /-- Their atoms are told apart. -/
  solid : Sexp.SolidEach items
  /-- They are read as the statements. -/
  read_eq : Sexp.readEach items = parts

namespace Sexp

theorem readsEach_nil : ReadsEach [] [] := ⟨by rw [SolidEach]; trivial, rfl⟩

theorem Reads.cons {s : Sexp} {items : List Sexp} {part : Statement} {parts : List Statement}
    (h : s.Reads part) (hitems : ReadsEach items parts) : ReadsEach (s :: items) (part :: parts) :=
  ⟨by rw [SolidEach]; exact ⟨h.solid, hitems.solid⟩, by rw [readEach, h.read_eq, hitems.read_eq]⟩

/-- An atom is told apart. -/
theorem solid_atom {text : String} (hne : text ≠ "")
    (h : text.toList.all isAtomChar = true) : (atom text).Solid := by
  rw [Solid]
  exact ⟨hne, List.all_eq_true.mp h⟩

/-- A list in braces is a block. -/
theorem ReadsEach.block {items : List Sexp} {statements : List Statement}
    (h : ReadsEach items statements) :
    (list .curly items).Reads (.block (.mk .blank statements)) :=
  ⟨by rw [Solid]; exact h.solid, by rw [read, h.read_eq]⟩

/-- A list in parentheses is what its parts make. -/
theorem ReadsEach.list {items : List Sexp} {parts : List Statement} (h : ReadsEach items parts) :
    (list .round items).Reads (.ofList items parts) :=
  ⟨by rw [Solid]; exact h.solid, by rw [read, h.read_eq]⟩

theorem ReadsEach.form {head : String} {items : List Sexp} {parts : List Statement}
    (h : ReadsEach items parts) (hhead : (atom head).Solid) :
    (form head items).Reads
      (.ofList (.atom head :: items) (.expression .blank (.ofAtom head) :: parts)) :=
  ReadsEach.list (Reads.cons ⟨hhead, by rw [read]⟩ h)

/-- A form with the text of a kind for its head is what that kind says. -/
theorem ReadsEach.kind {items : List Sexp} {parts : List Statement} (h : ReadsEach items parts)
    (kind : Kind) (hsolid : (atom kind.text).Solid) :
    (Sexp.form kind.text items).Reads (.ofKind kind items parts) := by
  have hform := h.form hsolid
  rw [Statement.ofList] at hform
  simpa only [Kind.ofText?_text] using hform

/-- A form with another head is a call or an error. -/
theorem ReadsEach.word {items : List Sexp} {parts : List Statement} (h : ReadsEach items parts)
    (head : String) (hsolid : (atom head).Solid) (hnone : Kind.ofText? head = none) :
    (Sexp.form head items).Reads (.ofWord head parts) := by
  have hform := h.form hsolid
  rw [Statement.ofList] at hform
  simpa only [hnone] using hform

theorem reads_quoted (message : String) :
    (quoted message).Reads (.expression .blank (.error .blank message)) :=
  ⟨by rw [Solid]; trivial, by rw [read]⟩

end Sexp

/-- The texts of keywords and of operators are atoms. -/
theorem Kind.solid_text {kind : Kind} (h : kind.text.toList.all Sexp.isAtomChar = true) :
    (Sexp.atom kind.text).Solid :=
  Sexp.solid_atom (by cases kind <;> decide) h

/-! ## Atoms -/

theorem isAtomChar_of_isWordChar {c : Char} (h : isWordChar c = true) :
    Sexp.isAtomChar c = true := by
  by_contra hc
  simp only [Sexp.isAtomChar, List.mem_cons, decide_not, Bool.not_eq_true, Bool.not_eq_false',
    decide_eq_true_eq, List.not_mem_nil, or_false] at hc
  rcases hc with rfl | rfl | rfl | rfl | rfl | rfl | rfl <;> exact absurd h (by decide)

theorem isAtomChar_of_isDigit {c : Char} (h : c.isDigit = true) : Sexp.isAtomChar c = true := by
  by_contra hc
  simp only [Sexp.isAtomChar, List.mem_cons, decide_not, Bool.not_eq_true, Bool.not_eq_false',
    decide_eq_true_eq, List.not_mem_nil, or_false] at hc
  rcases hc with rfl | rfl | rfl | rfl | rfl | rfl | rfl <;> exact absurd h (by decide)

/-- A name is made of the characters of words, and is no keyword. -/
theorem Spells.of_identifier {word : String} (h : Spells .identifier word) :
    word ≠ "" ∧ (∀ c ∈ word.toList, isWordChar c = true) ∧
      ∀ kind : Kind, kind.isKeyword = true → word ≠ kind.text := by
  generalize hkind : Kind.identifier = kind at h
  cases h with
  | name hne hword hkeyword => exact ⟨hne, hword, hkeyword⟩
  | sign hsign =>
    subst hkind
    cases hsign
  | keyword hkeyword =>
    subst hkind
    cases hkeyword
  | number _ _ | illegal _ _ _ _ => cases hkind

theorem ofDigits?_eq_none_of_isWordChar {word : String} (hne : word ≠ "")
    (h : ∀ c ∈ word.toList, isWordChar c = true) : Integer.ofDigits? word = none := by
  obtain ⟨c, tail, hword⟩ := List.exists_cons_of_ne_nil
    (show word.toList ≠ [] from fun hnil => hne (String.toList_eq_nil_iff.mp hnil))
  have hdigit := isDigit_of_isWordChar (h c (by rw [hword]; exact List.mem_cons_self))
  unfold Integer.ofDigits?
  rw [if_neg]
  simp [hword, hdigit]

/-- A name is read back as a name. -/
theorem reads_name {word : String} (h : Spells .identifier word) :
    (Sexp.atom word).Reads (.expression .blank (.identifier ⟨.blank, word⟩)) := by
  obtain ⟨hne, hword, hkeyword⟩ := h.of_identifier
  constructor
  · exact Sexp.solid_atom hne
      (List.all_eq_true.mpr fun c hc => isAtomChar_of_isWordChar (hword c hc))
  · have htrue : word ≠ "true" := hkeyword .trueWord rfl
    have hfalse : word ≠ "false" := hkeyword .falseWord rfl
    rw [Sexp.read, Expression.ofAtom, ofDigits?_eq_none_of_isWordChar hne hword]
    simp only [if_neg htrue, if_neg hfalse]

/-- A number that is not negative is read back as that number. -/
theorem reads_number {value : Integer} (h : 0 ≤ value.val) :
    (Sexp.atom value.text).Reads (.expression .blank (.number .blank value)) := by
  rw [Integer.text_of_nonneg h]
  constructor
  · refine Sexp.solid_atom ?_ (List.all_eq_true.mpr fun c hc => isAtomChar_of_isDigit ?_)
    · intro hempty
      exact Nat.toDigits_ne_nil (String.ofList_eq_empty_iff.mp hempty)
    · rw [String.toList_ofList] at hc
      exact Nat.isDigit_of_mem_toDigits (by decide) (by decide) hc
  · rw [Sexp.read, Expression.ofAtom, ofDigits?_toDigits h]

theorem reads_boolean (value : Bool) :
    (Sexp.atom (if value then "true" else "false")).Reads
      (.expression .blank (.boolean .blank value)) := by
  cases value with
  | true => exact ⟨Sexp.solid_atom (by decide) (by decide), by rw [Sexp.read]; rfl⟩
  | false => exact ⟨Sexp.solid_atom (by decide) (by decide), by rw [Sexp.read]; rfl⟩

/-! ## Trees -/

/-- The token is the end of input, or spelled as its kind says. -/
def Token.Lexed (token : Token) : Prop := token.kind = .eof ∨ Spells token.kind token.literal

theorem tokenize_lexed (source : String) : ∀ token ∈ tokenize source, token.Lexed :=
  Lexer.forall_mem_tokens (fun lexer => lexer.next_eof_or_spells.imp_left And.left) _

theorem Token.Lexed.spells {token : Token} (h : token.Lexed) {kind : Kind} (hk : token.kind = kind)
    (hne : kind ≠ .eof) : Spells kind token.literal := by
  rcases h with heof | hspells
  · exact absurd (hk.symm.trans heof) hne
  · rwa [hk] at hspells

/-- The name of an identifier is the spelling of one. -/
theorem Name.Shaped.spells {name : Name} (h : name.Shaped) (hlexed : name.token.Lexed) :
    Spells .identifier name.text := by
  rw [h.2]
  exact hlexed.spells h.1 (by decide)

section trees

variable {recorded : Diagnostic → Prop}

theorem reads_names {names : List Name} (hshaped : ∀ name ∈ names, name.Shaped)
    (hlexed : ∀ name ∈ names, name.token.Lexed) :
    (namesSexp names).Solid ∧
      (names.map fun name => Sexp.atom name.text).map Sexp.name = names.map Name.forget := by
  constructor
  · rw [namesSexp, Sexp.Solid]
    induction names with
    | nil =>
      rw [List.map_nil, Sexp.SolidEach]
      trivial
    | cons name names ih =>
      obtain ⟨hname, hnames⟩ := List.forall_mem_cons.mp hshaped
      obtain ⟨hname', hnames'⟩ := List.forall_mem_cons.mp hlexed
      rw [List.map_cons, Sexp.SolidEach]
      exact ⟨(reads_name (hname.spells hname')).solid, ih hnames hnames'⟩
  · rw [List.map_map]
    rfl

mutual

/-- What an expression is rendered as is told apart, and read back as the expression without its
tokens. -/
theorem Expression.reads : ∀ {e : Expression}, e.Formed recorded → e.Holds Token.Lexed →
    e.sexp.Reads (.expression .blank e.forget)
  | .identifier name, h, htokens => by
    rw [Expression.formed_identifier] at h
    rw [Expression.holds_identifier] at htokens
    rw [Expression.sexp, Expression.forget]
    exact reads_name (h.spells htokens)
  | .number token value, h, _ => by
    rw [Expression.formed_number] at h
    rw [Expression.sexp, Expression.forget]
    exact reads_number (nonneg_of_ofDigits? h.2)
  | .boolean token value, _, _ => by
    rw [Expression.sexp, Expression.forget]
    exact reads_boolean value
  | .unary operator operand, h, htokens => by
    rw [Expression.formed_unary] at h
    rw [Expression.holds_unary] at htokens
    obtain ⟨⟨hk, hliteral⟩, hoperand⟩ := h
    have hparts := (Expression.reads hoperand htokens.2).cons Sexp.readsEach_nil
    rw [Expression.sexp, Expression.forget, hliteral]
    rcases hk with hk | hk <;> rw [hk]
    · exact hparts.kind .bang (Kind.solid_text rfl)
    · exact hparts.kind .minus (Kind.solid_text rfl)
  | .binary left operator right, h, htokens => by
    rw [Expression.formed_binary] at h
    rw [Expression.holds_binary] at htokens
    obtain ⟨⟨hk, hliteral⟩, hleft, hright⟩ := h
    have hparts := (Expression.reads hleft htokens.1).cons
      ((Expression.reads hright htokens.2.2).cons Sexp.readsEach_nil)
    rw [Expression.sexp, Expression.forget, hliteral]
    rcases hk with hk | hk | hk | hk | hk | hk | hk | hk <;> rw [hk] <;>
      exact hparts.kind _ (Kind.solid_text rfl)
  | .ifThen _ condition consequence, h, htokens => by
    rw [Expression.formed_ifThen] at h
    rw [Expression.holds_ifThen] at htokens
    have hparts := (Expression.reads h.2.1 htokens.2.1).cons
      ((Block.reads h.2.2 htokens.2.2).cons Sexp.readsEach_nil)
    rw [Expression.sexp, Expression.forget]
    exact hparts.kind .ifWord (Kind.solid_text rfl)
  | .ifElse _ condition consequence alternative, h, htokens => by
    rw [Expression.formed_ifElse] at h
    rw [Expression.holds_ifElse] at htokens
    have helse : (Sexp.atom "else").Reads (.expression .blank (.ofAtom "else")) :=
      ⟨Sexp.solid_atom (by decide) (by decide), by rw [Sexp.read]⟩
    have hparts := (Expression.reads h.2.1 htokens.2.1).cons
      ((Block.reads h.2.2.1 htokens.2.2.1).cons
        (helse.cons ((Block.reads h.2.2.2 htokens.2.2.2).cons Sexp.readsEach_nil)))
    rw [Expression.sexp, Expression.forget]
    exact hparts.kind .ifWord (Kind.solid_text rfl)
  | .function _ parameters body, h, htokens => by
    rw [Expression.formed_function] at h
    rw [Expression.holds_function] at htokens
    obtain ⟨hsolid, hnames⟩ := reads_names h.1.2 htokens.2.1
    have hparameters : (namesSexp parameters).Reads (namesSexp parameters).read := ⟨hsolid, rfl⟩
    have hparts := hparameters.cons ((Block.reads h.2 htokens.2.2).cons Sexp.readsEach_nil)
    rw [Expression.sexp, Expression.forget, ← hnames]
    exact hparts.kind .funWord (Kind.solid_text rfl)
  | .call _ callee arguments, h, htokens => by
    rw [Expression.formed_call] at h
    rw [Expression.holds_call] at htokens
    obtain ⟨parts, hparts, harguments⟩ := Expression.readsEach h.2.2 htokens.2
    have hcall := ((Expression.reads h.2.1 htokens.1).cons hparts).word "call"
      (Sexp.solid_atom (by decide) (by decide)) (by decide)
    rw [Expression.sexp, Expression.forget, ← harguments]
    exact hcall
  | .error _ message, _, _ => by
    have herror := ((Sexp.reads_quoted message).cons Sexp.readsEach_nil).word "error"
      (Sexp.solid_atom (by decide) (by decide)) (by decide)
    rw [Expression.sexp, Expression.forget]
    exact herror

theorem Expression.readsEach : ∀ {es : List Expression}, Expression.FormedEach recorded es →
    Expression.HoldsEach Token.Lexed es → ∃ parts,
      Sexp.ReadsEach (Expression.sexpOfEach es) parts ∧
        parts.map Statement.asExpression = Expression.forgetEach es
  | [], _, _ => ⟨[], Sexp.readsEach_nil, rfl⟩
  | e :: rest, h, htokens => by
    rw [Expression.formedEach_cons] at h
    rw [Expression.holdsEach_cons] at htokens
    obtain ⟨parts, hparts, hmap⟩ := Expression.readsEach h.2 htokens.2
    refine ⟨_, (Expression.reads h.1 htokens.1).cons hparts, ?_⟩
    rw [List.map_cons, hmap, Expression.forgetEach]
    rfl

/-- So is what a statement is rendered as. -/
theorem Statement.reads : ∀ {s : Statement}, s.Formed recorded → s.Holds Token.Lexed →
    s.sexp.Reads s.forget
  | .expression _ value, h, htokens => by
    rw [Statement.formed_expression] at h
    rw [Statement.holds_expression] at htokens
    exact Expression.reads h.2 htokens
  | .say token name value, h, htokens => by
    rw [Statement.formed_say] at h
    rw [Statement.holds_say] at htokens
    obtain ⟨⟨hk, hname⟩, hvalue⟩ := h
    have hparts := (reads_name (hname.spells htokens.2.1)).cons
      ((Expression.reads hvalue htokens.2.2).cons Sexp.readsEach_nil)
    have hliteral {kind : Kind} (hk : token.kind = kind) (hne : kind ≠ .eof)
        (hfixed : kind.isFixed = true) : token.literal = kind.text :=
      (htokens.1.spells hk hne).text_eq hfixed
    rw [Statement.sexp, Statement.forget]
    rcases hk with hk | hk <;> rw [hliteral hk (by decide) rfl, hk]
    · exact hparts.kind .sayWord (Kind.solid_text rfl)
    · exact hparts.kind .invarWord (Kind.solid_text rfl)
  | .bareReturn _, _, _ => by
    rw [Statement.sexp, Statement.forget]
    exact Sexp.readsEach_nil.kind .returnWord (Kind.solid_text rfl)
  | .returnOf _ value, h, htokens => by
    rw [Statement.formed_returnOf] at h
    rw [Statement.holds_returnOf] at htokens
    have hparts := (Expression.reads h.2 htokens.2).cons Sexp.readsEach_nil
    rw [Statement.sexp, Statement.forget]
    exact hparts.kind .returnWord (Kind.solid_text rfl)
  | .block body, h, htokens => by
    rw [Statement.formed_block] at h
    rw [Statement.holds_block] at htokens
    exact Block.reads h.2 htokens

theorem Statement.readsEach : ∀ {ss : List Statement}, Statement.FormedEach recorded ss →
    Statement.HoldsEach Token.Lexed ss →
      Sexp.ReadsEach (Statement.sexpOfEach ss) (Statement.forgetEach ss)
  | [], _, _ => Sexp.readsEach_nil
  | s :: rest, h, htokens => by
    rw [Statement.formedEach_cons] at h
    rw [Statement.holdsEach_cons] at htokens
    rw [Statement.sexpOfEach, Statement.forgetEach]
    exact (Statement.reads h.1 htokens.1).cons (Statement.readsEach h.2 htokens.2)

/-- So is what a block is rendered as. -/
theorem Block.reads : ∀ {b : Block}, b.Formed recorded → b.Holds Token.Lexed →
    b.sexp.Reads (.block b.forget)
  | .mk _ statements, h, htokens => by
    rw [Block.formed_mk] at h
    rw [Block.holds_mk] at htokens
    rw [Block.sexp, Block.forget]
    exact (Statement.readsEach h.2 htokens.2).block

end

end trees

/-! ## Programs -/

/-- What a parsed program is rendered as is told apart, and read back as the program without its
tokens. -/
theorem parse_readsEach (source : String) :
    Sexp.ReadsEach (Statement.sexpOfEach (parse source).program.statements)
      (Statement.forgetEach (parse source).program.statements) := by
  have hformed := parse_formed source
  rw [Program.allFormed_nodes] at hformed
  exact Statement.readsEach hformed fun token htoken =>
    tokenize_lexed source token (tokens_program_mem source token htoken)

/-- Two parsed programs, of texts right or wrong, that are rendered alike are the same program
without the tokens, and mean the same. -/
theorem forget_eq_of_render_eq {source other : String}
    (h : (parse source).program.render = (parse other).program.render) :
    (parse source).program.forget = (parse other).program.forget ∧
      ∀ supply supply' : Supply, ((parse source).program.evaluate.run supply).value.value =
        ((parse other).program.evaluate.run supply').value.value := by
  have hreads := parse_readsEach source
  have hreads' := parse_readsEach other
  have hsexp : Statement.sexpOfEach (parse source).program.statements =
      Statement.sexpOfEach (parse other).program.statements := by
    refine Sexp.joined_inj (.inr rfl) hreads.solid hreads'.solid ?_
    rw [Program.joined_sexp, Program.joined_sexp, h]
  have hforget : (parse source).program.forget = (parse other).program.forget := by
    rw [Program.forget, Program.forget, ← hreads.read_eq, ← hreads'.read_eq, hsexp]
  refine ⟨hforget, fun supply supply' => ?_⟩
  rw [Program.evaluate_value, Program.evaluate_value,
    ← Program.meaning_forget (parse_formed source), hforget,
    Program.meaning_forget (parse_formed other)]

/-- Parentheses, leading zeros and semicolons leave no trace, and neither does a block that is never
closed. -/
theorem forget_eq_of_render_eq_of_open_block :
    (parse "f((1 + 02) * x) if (a) \x7b").program.render =
        (parse "f((1 + (2)) * (x)); if (a) \x7b\x7d").program.render ∧
      (parse "f((1 + 02) * x) if (a) \x7b").diagnostics ≠ [] ∧
      (parse "f((1 + 02) * x) if (a) \x7b").program.forget =
        (parse "f((1 + (2)) * (x)); if (a) \x7b\x7d").program.forget := by
  have h : (parse "f((1 + 02) * x) if (a) \x7b").program.render =
      (parse "f((1 + (2)) * (x)); if (a) \x7b\x7d").program.render := by decide
  exact ⟨h, by decide, (forget_eq_of_render_eq h).1⟩

end SayLang
