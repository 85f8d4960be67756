import SayLang.Proofs.Spelling

/-!
# What a cursor comes to see

`Cursor.nth cursor n` is the token that the cursor looks at after `n` steps, for every `n`: also
past the end of input, where the parser of a broken text may well ask for tokens. A cursor stays
there (`Cursor.Settles`), so all that it comes to see is known from the tokens up to the end of
input.

> `Cursor.Faces.nth_eq`: those tokens, and the last of them for ever.
> `Cursor.Faces.kind_eq_eof`: behind those tokens there is nothing but the end of input.
> `Window.ofSource_faces`: the window on a source text sees the tokens of the text in this way.
> `Strip.ofTokens_faces`: so does the strip of a list of tokens.
-/

namespace SayLang

/-! ## Tokens further on -/

section nth

variable {κ : Type} [Cursor κ]

/-- The token that the cursor looks at after so many steps. -/
def Cursor.nth (cursor : κ) : Nat → Token
  | 0 => Cursor.current cursor
  | n + 1 => Cursor.nth (Cursor.advance cursor) n

@[simp] theorem Cursor.nth_zero (cursor : κ) : Cursor.nth cursor 0 = Cursor.current cursor := rfl

theorem Cursor.nth_one [LawfulCursor κ] (cursor : κ) :
    Cursor.nth cursor 1 = Cursor.peek cursor :=
  LawfulCursor.current_advance cursor

/-- Once the cursor has come to the end of input it sees that token again and again. -/
def Cursor.Settles (cursor : κ) : Prop :=
  ∀ n, (Cursor.nth cursor n).kind = .eof → Cursor.nth cursor (n + 1) = Cursor.nth cursor n

theorem Cursor.Settles.advance {cursor : κ} (h : Cursor.Settles cursor) :
    Cursor.Settles (Cursor.advance cursor) :=
  fun n => h (n + 1)

/-- At the end of input a cursor sees nothing else any more. -/
theorem Cursor.Settles.nth_eq {cursor : κ} (h : Cursor.Settles cursor)
    (heof : (Cursor.current cursor).kind = .eof) (n : Nat) :
    Cursor.nth cursor n = Cursor.current cursor := by
  induction n with
  | zero => rfl
  | succ n ih => rw [h n (by rw [ih]; exact heof), ih]

/-- The cursor sees the tokens up to the end of input and stays there. The limit is the position
behind them. -/
structure Cursor.Faces (limit : Nat) (cursor : κ) (tokens : List Token) : Prop where
  /-- It sees the tokens. -/
  sees : Cursor.Sees cursor tokens
  /-- It stays where they end. -/
  settles : Cursor.Settles cursor
  /-- They take it to the limit. -/
  position_add : Cursor.position cursor + tokens.length = limit

namespace Cursor.Faces

variable {limit : Nat} {cursor : κ} {token : Token} {tokens : List Token}

theorem current_eq (h : Cursor.Faces limit cursor (token :: tokens)) :
    Cursor.current cursor = token :=
  h.sees.1

theorem advance [LawfulCursor κ] (h : Cursor.Faces limit cursor (token :: tokens)) :
    Cursor.Faces limit (Cursor.advance cursor) tokens := by
  have hlimit := h.position_add
  have hposition := LawfulCursor.position_advance cursor
  refine ⟨h.sees.2, h.settles.advance, ?_⟩
  rw [List.length_cons] at hlimit
  omega

/-- It sees the tokens, and the last of them for ever. -/
theorem nth_eq [LawfulCursor κ] (hupTo : UpToEof tokens) :
    ∀ {cursor : κ}, Cursor.Faces limit cursor tokens → ∀ n,
      Cursor.nth cursor n = tokens.getD n (tokens.getLast hupTo.ne_nil) := by
  induction hupTo with
  | last heof =>
    intro cursor h n
    rw [h.settles.nth_eq (by rw [h.current_eq, heof]), h.current_eq]
    cases n <;> rfl
  | cons _ hrest ih =>
    intro cursor h n
    cases n with
    | zero => exact h.current_eq
    | succ n =>
      rw [List.getLast_cons hrest.ne_nil]
      exact ih h.advance n

/-- From the last token on there is nothing but the end of input. -/
theorem kind_eq_eof [LawfulCursor κ] (hupTo : UpToEof tokens) :
    ∀ {cursor : κ}, Cursor.Faces limit cursor tokens → ∀ {n : Nat}, tokens.length ≤ n + 1 →
      (Cursor.nth cursor n).kind = .eof := by
  induction hupTo with
  | last heof =>
    intro cursor h n _
    rw [← h.current_eq] at heof
    rw [h.settles.nth_eq heof]
    exact heof
  | cons _ hrest ih =>
    intro cursor h n hn
    have hpos := List.length_pos_iff.mpr hrest.ne_nil
    rw [List.length_cons] at hn
    obtain ⟨m, rfl⟩ := Nat.exists_eq_add_of_le' (show 1 ≤ n by omega)
    exact ih h.advance (by omega)

end Cursor.Faces

end nth

/-! ## The window on a source text -/

/-- At the end of the source the next token is the end of input again. -/
theorem Lexer.next_next_eq {lexer : Lexer} (h : lexer.next.1.kind = .eof) :
    lexer.next.2.next.1 = lexer.next.1 := by
  unfold next at h
  split at h
  next hnil =>
    unfold next
    simp [hnil]
  next c rest _ => exact absurd h (Lexeme.cut_kind_ne_eof c rest)

theorem Window.settles (n : Nat) :
    ∀ (lexer : Lexer) (window : Window), window.current = lexer.next.1 →
      window.peek = lexer.next.2.next.1 → window.lexer = lexer.next.2.next.2 →
      (Cursor.nth window n).kind = .eof → Cursor.nth window (n + 1) = Cursor.nth window n := by
  induction n with
  | zero =>
    intro _ window hcurrent hpeek _ heof
    have heof' : window.current.kind = .eof := heof
    show window.peek = window.current
    rw [hpeek, hcurrent]
    rw [hcurrent] at heof'
    exact Lexer.next_next_eq heof'
  | succ n ih =>
    intro lexer window _ hpeek hlexer
    -- moved on, the window is on the first two tokens of the lexer behind this token
    refine ih lexer.next.2 window.advance hpeek ?_ ?_
    · show window.lexer.next.1 = _
      rw [hlexer]
    · show window.lexer.next.2 = _
      rw [hlexer]

/-- The window on a source text sees the tokens of the text and stays behind them. -/
theorem Window.ofSource_faces (source : String) :
    Cursor.Faces (tokenize source).length (Window.ofSource source) (tokenize source) where
  sees := Window.ofSource_sees source
  settles := fun n => Window.settles n _ _ rfl rfl rfl
  position_add := Nat.zero_add _

/-! ## The strip of a list of tokens -/

namespace Strip

theorem nth_of_last (token : Token) (n : Nat) :
    ∀ position : Nat, Cursor.nth (⟨position, token, []⟩ : Strip) n = token := by
  induction n with
  | zero => exact fun _ => rfl
  | succ n ih => exact fun position => ih (position + 1)

/-- A strip stays at the last token of its list. -/
theorem settles (rest : List Token) :
    ∀ {position : Nat} {current : Token}, UpToEof (current :: rest) →
      Cursor.Settles (⟨position, current, rest⟩ : Strip) := by
  induction rest with
  | nil =>
    intro position current _ n _
    rw [nth_of_last, nth_of_last]
  | cons token rest ih =>
    intro position current h n heof
    cases h with
    | cons hne hrest =>
      cases n with
      | zero => exact absurd heof hne
      | succ n => exact ih hrest n heof

/-- The strip of a list of tokens sees the list and stays behind it. -/
theorem ofTokens_faces {tokens : List Token} (h : UpToEof tokens) :
    Cursor.Faces tokens.length (Strip.ofTokens tokens) tokens where
  sees := ofTokens_sees h.ne_nil
  settles := by
    cases tokens with
    | nil => exact absurd rfl h.ne_nil
    | cons token rest => exact settles rest h
  position_add := by
    show (Strip.ofTokens tokens).position + _ = _
    rw [position_ofTokens, Nat.zero_add]

end Strip

end SayLang
