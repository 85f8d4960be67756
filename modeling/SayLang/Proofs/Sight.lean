import SayLang.Parser.Climb

/-!
# What a cursor sees

A parser sees tokens one after the other through a cursor. `Cursor.Sees cursor tokens` says that the
next tokens from the cursor on are `tokens`. A list that ends with the end of input, and has it
nowhere before, is `UpToEof`; it is all that a parser of a whole text ever looks at.

> `tokenize_upToEof`: the tokens of a text go up to the end of input.
> `Window.ofSource_starts`: the window on a source text starts with the tokens of the text.
> `Strip.ofTokens_starts`: the strip of a list of tokens starts with the list.

So what is proved of a cursor by what it sees holds of both kinds of cursors alike.
-/

namespace SayLang

/-! ## Lists of tokens up to the end of input -/

/-- A list of tokens up to and including the end of input. -/
inductive UpToEof : List Token → Prop where
  /-- The end of input alone. -/
  | last {token : Token} : token.kind = .eof → UpToEof [token]
  /-- Another token before it. -/
  | cons {token : Token} {rest : List Token} :
      token.kind ≠ .eof → UpToEof rest → UpToEof (token :: rest)

namespace UpToEof

theorem ne_nil {tokens : List Token} (h : UpToEof tokens) : tokens ≠ [] := by
  cases h <;> simp

/-- Behind every token but the end of input there is another one. -/
theorem lt_length {tokens : List Token} (h : UpToEof tokens) :
    ∀ {i : Nat} {token : Token}, tokens[i]? = some token → token.kind ≠ .eof →
      i + 1 < tokens.length := by
  induction h with
  | last heof =>
    intro i token hget hne
    cases i with
    | zero =>
      simp only [List.getElem?_cons_zero, Option.some.injEq] at hget
      exact absurd (hget ▸ heof) hne
    | succ i => simp at hget
  | cons _ hrest ih =>
    intro i token hget hne
    cases i with
    | zero =>
      have hpos := List.length_pos_iff.mpr hrest.ne_nil
      simp only [List.length_cons]
      omega
    | succ i =>
      have hlt := ih (by simpa using hget) hne
      simp only [List.length_cons]
      omega

/-- The end of input is the last token. -/
theorem length_of_eof {tokens : List Token} (h : UpToEof tokens) :
    ∀ {i : Nat} {token : Token}, tokens[i]? = some token → token.kind = .eof →
      i + 1 = tokens.length := by
  induction h with
  | last _ =>
    intro i token hget _
    cases i with
    | zero => rfl
    | succ i => simp at hget
  | cons hne _ ih =>
    intro i token hget heof
    cases i with
    | zero =>
      simp only [List.getElem?_cons_zero, Option.some.injEq] at hget
      exact absurd (hget ▸ heof) hne
    | succ i =>
      have hlen := ih (by simpa using hget) heof
      simp only [List.length_cons]
      omega

/-- What stands before a token is not the end of input. -/
theorem ne_eof_of_mem_take {tokens : List Token} (h : UpToEof tokens) {i : Nat}
    (hi : i < tokens.length) : ∀ token ∈ tokens.take i, token.kind ≠ .eof := by
  intro token htoken heof
  obtain ⟨j, hj, hget⟩ := List.mem_take_iff_getElem.mp htoken
  have hjlt : j < tokens.length := by omega
  have hsome : tokens[j]? = some token := by rw [List.getElem?_eq_getElem hjlt, hget]
  have hlength := h.length_of_eof hsome heof
  omega

end UpToEof

/-- The tokens of a text end with the end of input, and have it nowhere before. -/
theorem Lexer.tokens_upToEof (lexer : Lexer) : UpToEof lexer.tokens := by
  induction lexer using Lexer.tokens.induct with
  | case1 lexer heof =>
    rw [Lexer.tokens, if_pos heof]
    exact .last heof
  | case2 lexer hne ih =>
    rw [Lexer.tokens, if_neg hne]
    exact .cons hne ih

theorem tokenize_upToEof (source : String) : UpToEof (tokenize source) :=
  Lexer.tokens_upToEof _

theorem UpToEof.map {f : Token → Token} (hf : ∀ token, (f token).kind = token.kind)
    {tokens : List Token} (h : UpToEof tokens) : UpToEof (tokens.map f) := by
  induction h with
  | last heof => exact .last (by rw [hf, heof])
  | cons hne _ ih => exact .cons (by rwa [hf]) ih

/-- What holds of every token that is cut holds of all tokens of a text. -/
theorem Lexer.forall_mem_tokens {holds : Token → Prop} (h : ∀ lexer : Lexer, holds lexer.next.1)
    (lexer : Lexer) : ∀ token ∈ lexer.tokens, holds token := by
  induction lexer using Lexer.tokens.induct with
  | case1 lexer heof =>
    rw [Lexer.tokens, if_pos heof]
    exact List.forall_mem_singleton.mpr (h lexer)
  | case2 lexer hne ih =>
    rw [Lexer.tokens, if_neg hne]
    exact List.forall_mem_cons.mpr ⟨h lexer, ih⟩

/-! ## Cursors that see tokens -/

/-- A cursor that moves on as it should: what was ahead becomes current, and one more step is
counted. -/
class LawfulCursor (κ : Type) [Cursor κ] : Prop where
  /-- What was ahead becomes current. -/
  current_advance (cursor : κ) : Cursor.current (Cursor.advance cursor) = Cursor.peek cursor
  /-- Steps are counted. -/
  position_advance (cursor : κ) :
    Cursor.position (Cursor.advance cursor) = Cursor.position cursor + 1

instance : LawfulCursor Window := ⟨fun _ => rfl, fun _ => rfl⟩

instance : LawfulCursor Strip :=
  ⟨Strip.current_advance, fun strip => by
    show strip.advance.position = strip.position + 1
    unfold Strip.advance
    split <;> rfl⟩

/-- The next tokens from the cursor on are those of the list. -/
def Cursor.Sees {κ : Type} [Cursor κ] (cursor : κ) : List Token → Prop
  | [] => True
  | token :: rest => Cursor.current cursor = token ∧ Cursor.Sees (Cursor.advance cursor) rest

/-- The cursor is at the start of a list of tokens up to the end of input, and expects at least as
many tokens. -/
structure Cursor.Starts {κ : Type} [Cursor κ] (cursor : κ) (tokens : List Token) : Prop where
  /-- The tokens end with the end of input. -/
  upToEof : UpToEof tokens
  /-- The cursor sees them. -/
  sees : Cursor.Sees cursor tokens
  /-- It has not been moved on. -/
  position_eq : Cursor.position cursor = 0
  /-- It expects at least as many. -/
  length_le : tokens.length ≤ Cursor.ahead cursor + 1

namespace Window

/-- A window on the first two tokens of a lexer sees all its tokens. -/
theorem sees_tokens (lexer : Lexer) :
    ∀ {window : Window}, window.current = lexer.next.1 → window.peek = lexer.next.2.next.1 →
      window.lexer = lexer.next.2.next.2 → Cursor.Sees window lexer.tokens := by
  induction lexer using Lexer.tokens.induct with
  | case1 lexer heof =>
    intro window hcurrent _ _
    rw [Lexer.tokens, if_pos heof]
    exact ⟨hcurrent, trivial⟩
  | case2 lexer hne ih =>
    intro window hcurrent hpeek hlexer
    rw [Lexer.tokens, if_neg hne]
    -- moved on, the window is on the first two tokens of the lexer behind this token
    refine ⟨hcurrent, ih hpeek ?_ ?_⟩
    · show window.lexer.next.1 = _
      rw [hlexer]
    · show window.lexer.next.2 = _
      rw [hlexer]

/-- The window on a source text sees the tokens of the text. -/
theorem ofSource_sees (source : String) :
    Cursor.Sees (Window.ofSource source) (tokenize source) :=
  sees_tokens _ rfl rfl rfl

/-- There are at most as many tokens as a window expects ahead, and the current one. -/
theorem length_le_ahead {tokens : List Token} (h : UpToEof tokens) :
    ∀ {window : Window}, Cursor.Sees window tokens → tokens.length ≤ window.ahead + 1 := by
  induction h with
  | last _ =>
    intro window _
    exact Nat.le_add_left _ _
  | cons hne hrest ih =>
    intro window hsees
    have hcurrent : window.current = _ := hsees.1
    have hshort : window.advance.ahead < window.ahead := ahead_advance_lt (hcurrent ▸ hne)
    have hle : _ ≤ window.advance.ahead + 1 := ih hsees.2
    simp only [List.length_cons]
    omega

/-- The window on a source text starts with the tokens of the text. -/
theorem ofSource_starts (source : String) :
    Cursor.Starts (Window.ofSource source) (tokenize source) where
  upToEof := tokenize_upToEof source
  sees := ofSource_sees source
  position_eq := rfl
  length_le := length_le_ahead (tokenize_upToEof source) (ofSource_sees source)

end Window

namespace Strip

theorem sees_rest (rest : List Token) :
    ∀ (position : Nat) (current : Token),
      Cursor.Sees (⟨position, current, rest⟩ : Strip) (current :: rest) := by
  induction rest with
  | nil => intro position current; exact ⟨rfl, trivial⟩
  | cons token rest ih => intro position current; exact ⟨rfl, ih (position + 1) token⟩

/-- The strip of a list of tokens sees the list. -/
theorem ofTokens_sees {tokens : List Token} (h : tokens ≠ []) :
    Cursor.Sees (Strip.ofTokens tokens) tokens := by
  cases tokens with
  | nil => exact absurd rfl h
  | cons token rest => exact sees_rest rest 0 token

theorem position_ofTokens (tokens : List Token) : (Strip.ofTokens tokens).position = 0 := by
  cases tokens <;> rfl

theorem length_le_ahead (tokens : List Token) :
    tokens.length ≤ Cursor.ahead (Strip.ofTokens tokens) + 1 := by
  cases tokens with
  | nil => exact Nat.zero_le _
  | cons token rest => exact Nat.le_refl _

/-- The strip of a list of tokens starts with the list. -/
theorem ofTokens_starts {tokens : List Token} (h : UpToEof tokens) :
    Cursor.Starts (Strip.ofTokens tokens) tokens where
  upToEof := h
  sees := ofTokens_sees h.ne_nil
  position_eq := position_ofTokens tokens
  length_le := length_le_ahead tokens

end Strip

end SayLang
