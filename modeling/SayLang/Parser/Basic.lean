import SayLang.Cursor
import SayLang.Diagnostic
import SayLang.Syntax
import SayLang.Traced

/-!
# Steps of the parser

Parsing threads a cursor and records events: where a statement or an expression is entered, and what
is found wrong. The pieces of the grammar keep one convention. They are entered with the current
token on the first token of the piece, and they leave it on the last token of the piece.

A token that has to follow is asked for by `expecting`. When another one follows, nothing is
consumed; the mismatch is recorded, and the error node that says so takes the place of the piece.
-/

namespace SayLang

/-- What happens while parsing. A position counts the tokens before the one concerned. -/
inductive Event where
  /-- A statement is entered at a token. -/
  | statement (position : Nat) (token : Token)
  /-- An expression is entered. -/
  | expression (position : Nat)
  /-- A token is found wrong. -/
  | diagnostic (position : Nat) (diagnostic : Diagnostic)
deriving DecidableEq

/-- The diagnostic that an event records, if it records one. -/
def Event.diagnostic? : Event → Option Diagnostic
  | diagnostic _ found => some found
  | _ => none

/-- A piece of the parser over a cursor. -/
abbrev Parse (κ α : Type) : Type := Traced κ Event α

namespace Parse

variable {κ α : Type}

/-- Records what is wrong with a token and answers the error node that says so. -/
def report (position : Nat) (token : Token) (problem : Problem) : Parse κ Expression := do
  Traced.record (.diagnostic position ⟨token.line, problem⟩)
  return .error token problem.message

@[simp] theorem run_report (position : Nat) (token : Token) (problem : Problem) (cursor : κ) :
    (report position token problem).run cursor =
      ⟨.error token problem.message, cursor, [.diagnostic position ⟨token.line, problem⟩]⟩ := rfl

variable [Cursor κ]

/-- The token looked at. -/
def current : Parse κ Token := Traced.look Cursor.current

@[simp] theorem run_current (cursor : κ) :
    (current : Parse κ Token).run cursor = ⟨Cursor.current cursor, cursor, []⟩ := rfl

/-- The token after it. -/
def peek : Parse κ Token := Traced.look Cursor.peek

@[simp] theorem run_peek (cursor : κ) :
    (peek : Parse κ Token).run cursor = ⟨Cursor.peek cursor, cursor, []⟩ := rfl

/-- The position of the token looked at. -/
def position : Parse κ Nat := Traced.look Cursor.position

@[simp] theorem run_position (cursor : κ) :
    (position : Parse κ Nat).run cursor = ⟨Cursor.position cursor, cursor, []⟩ := rfl

/-- One token on. -/
def advance : Parse κ Unit := Traced.update Cursor.advance

@[simp] theorem run_advance (cursor : κ) :
    (advance : Parse κ Unit).run cursor = ⟨(), Cursor.advance cursor, []⟩ := rfl

/-- Reports a problem of the token looked at. -/
def reject (problem : Token → Problem) : Parse κ Expression := do
  let token ← current
  report (← position) token (problem token)

/-- One event is recorded, and nothing is consumed. -/
@[simp] theorem run_reject (problem : Token → Problem) (cursor : κ) :
    (reject problem).run cursor =
      ⟨.error (Cursor.current cursor) (problem (Cursor.current cursor)).message, cursor,
        [.diagnostic (Cursor.position cursor)
          ⟨(Cursor.current cursor).line, problem (Cursor.current cursor)⟩]⟩ := rfl

/-- Goes on with `next` on the token ahead if that has the right kind. Otherwise reports the
mismatch, consumes nothing, and answers what `broken` makes of the error node. -/
def expecting (kind : Kind) (broken : Expression → α) (next : Parse κ α) : Parse κ α := do
  let found ← peek
  if found.kind = kind then
    advance
    next
  else
    return broken (← report ((← position) + 1) found (.unexpected kind found.kind))

/-- The token asked for is consumed and parsing goes on. -/
theorem run_expecting_of_eq {kind : Kind} (broken : Expression → α) (next : Parse κ α) {cursor : κ}
    (h : (Cursor.peek cursor).kind = kind) :
    (expecting kind broken next).run cursor = next.run (Cursor.advance cursor) := by
  simp [expecting, h]

/-- Any other token is reported and not consumed. -/
theorem run_expecting_of_ne {kind : Kind} (broken : Expression → α) (next : Parse κ α) {cursor : κ}
    (h : (Cursor.peek cursor).kind ≠ kind) :
    (expecting kind broken next).run cursor =
      ⟨broken (.error (Cursor.peek cursor)
          (Problem.unexpected kind (Cursor.peek cursor).kind).message), cursor,
        [.diagnostic (Cursor.position cursor + 1)
          ⟨(Cursor.peek cursor).line, .unexpected kind (Cursor.peek cursor).kind⟩]⟩ := by
  simp [expecting, h]

/-- The name that the token looked at spells. -/
def name : Parse κ Name := return .ofToken (← current)

@[simp] theorem run_name (cursor : κ) :
    (name : Parse κ Name).run cursor = ⟨.ofToken (Cursor.current cursor), cursor, []⟩ := rfl

/-- Skips a semicolon if one is ahead. -/
def optionalSemicolon : Parse κ Unit := do
  if (← peek).kind = .semicolon then
    advance

/-- Skipping a semicolon consumes at most one token and records nothing. -/
theorem run_optionalSemicolon (cursor : κ) :
    optionalSemicolon.run cursor =
      ⟨(), if (Cursor.peek cursor).kind = .semicolon then Cursor.advance cursor else cursor, []⟩ := by
  unfold optionalSemicolon
  by_cases h : (Cursor.peek cursor).kind = .semicolon <;> simp [h]

end Parse

end SayLang
