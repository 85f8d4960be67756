import SayLang.Proofs.Termination
import SayLang.Proofs.Trail

/-!
# Pulling tokens lazily

The window of a parser pulls a token when it comes into sight. Whoever cuts all tokens of a text
beforehand gets the same ones: asked again and again, a lexer gives the tokens of the text and then
the end of input for ever (`tokenForever`), and a parser never sees anything else, however broken
the text is. To know how often a lexer was asked it is put on a `Tape`, and to know all states of
the parser it is run on the trail of its window.

> `TapedWindow.standsAt_iterate`: after so many steps, what is in sight and what was pulled.
> `parseTokens_tokenize`: parsing tokens cut beforehand is parsing the text.
> `lazy_pulling_eq_cutting_beforehand`: both, for all that a parser goes through.
-/

namespace SayLang

/-! ## The tokens of a text, for ever -/

/-- The token of a text at a place. Behind the end of input there is the end of input for ever. -/
def tokenForever (source : String) (n : Nat) : Token :=
  (tokenize source).getD n ((tokenize source).getLast (tokenize_upToEof source).ne_nil)

theorem Window.nth_ofSource (source : String) (n : Nat) :
    Cursor.nth (ofSource source) n = tokenForever source n :=
  (ofSource_faces source).nth_eq (tokenize_upToEof source) n

theorem Strip.nth_ofTokens (source : String) (n : Nat) :
    Cursor.nth (ofTokens (tokenize source)) n = tokenForever source n :=
  (ofTokens_faces (tokenize_upToEof source)).nth_eq (tokenize_upToEof source) n

/-- What a cursor comes to see is what it looks at after so many steps. -/
theorem Cursor.current_iterate {κ : Type} [Cursor κ] (n : Nat) :
    ∀ cursor : κ, Cursor.current (Cursor.advance^[n] cursor) = Cursor.nth cursor n := by
  induction n with
  | zero => exact fun _ => rfl
  | succ n ih => exact fun cursor => ih (Cursor.advance cursor)

/-- A lexer gives the tokens that a window on its first two tokens comes to see. -/
theorem Lexer.take_eq_map_nth (count : Nat) : ∀ (lexer : Lexer) (position : Nat),
    lexer.take count = (List.range count).map (Cursor.nth
      (⟨position, lexer.next.1, lexer.next.2.next.1, lexer.next.2.next.2⟩ : Window)) := by
  induction count with
  | zero => exact fun _ _ => rfl
  | succ count ih =>
    intro lexer position
    rw [take, ih lexer.next.2 (position + 1), List.range_succ_eq_map, List.map_cons, List.map_map]
    rfl

/-- So a lexer that is asked again and again gives the tokens of the text, for ever. -/
theorem Lexer.take_ofSource (source : String) (count : Nat) :
    (ofSource source).take count = (List.range count).map (tokenForever source) := by
  rw [take_eq_map_nth count (ofSource source) 0]
  exact List.map_congr_left fun n _ => Window.nth_ofSource source n

/-! ## Windows that pull from a tape -/

/-- A lexer and the tokens that it has given, each time that it was asked. -/
structure Tape where
  /-- The lexer. -/
  lexer : Lexer
  /-- What it has given, in order. -/
  given : List Token

namespace Tape

/-- The lexer of a source text, not asked yet. -/
def ofSource (source : String) : Tape := ⟨Lexer.ofSource source, []⟩

/-- How often the lexer was asked. -/
def calls (tape : Tape) : Nat := tape.given.length

/-- The lexer is asked once more. -/
def next (tape : Tape) : Token × Tape :=
  let pulled := tape.lexer.next
  (pulled.1, ⟨pulled.2, tape.given ++ [pulled.1]⟩)

end Tape

/-- A window whose lexer is on tape. -/
structure TapedWindow where
  /-- How often the window has been moved on. -/
  position : Nat
  /-- The token looked at. -/
  current : Token
  /-- The token after it. -/
  peek : Token
  /-- The lexer, and what was pulled from it. -/
  tape : Tape

namespace TapedWindow

/-- The window on the first two tokens of a source text. -/
def ofSource (source : String) : TapedWindow :=
  let first := (Tape.ofSource source).next
  let second := first.2.next
  ⟨0, first.1, second.1, second.2⟩

/-- One token on. -/
def advance (taped : TapedWindow) : TapedWindow :=
  let pulled := taped.tape.next
  ⟨taped.position + 1, taped.peek, pulled.1, pulled.2⟩

/-- The window without what was recorded. -/
def window (taped : TapedWindow) : Window :=
  ⟨taped.position, taped.current, taped.peek, taped.tape.lexer⟩

instance : Cursor TapedWindow :=
  ⟨TapedWindow.current, TapedWindow.peek, TapedWindow.advance, TapedWindow.position,
    fun taped => taped.window.ahead⟩

/-- A taped window is paired with the window that it is. -/
def coupling : Coupling TapedWindow Window where
  Paired taped window := taped.window = window
  current_eq := fun | rfl => rfl
  peek_eq := fun | rfl => rfl
  position_eq := fun | rfl => rfl
  advance := fun | rfl => rfl

/-- Moved on side by side, they stay the same. -/
theorem window_iterate (source : String) (i : Nat) :
    (Cursor.advance^[i] (ofSource source)).window = Cursor.advance^[i] (Window.ofSource source) :=
  Function.Semiconj.iterate_right (f := window) (fun _ => rfl) i (ofSource source)

/-- The state of a parser after so many steps: the token at that place is current, the one after it
is ahead, and the lexer was asked for both of them and for all before. -/
structure StandsAt (source : String) (i : Nat) (taped : TapedWindow) : Prop where
  /-- So many steps lead there. -/
  eq_iterate : taped = Cursor.advance^[i] (ofSource source)
  /-- They have been counted. -/
  position_eq : taped.position = i
  /-- The token at that place is current. -/
  current_eq : taped.current = tokenForever source i
  /-- The next one is ahead. -/
  peek_eq : taped.peek = tokenForever source (i + 1)
  /-- The lexer was asked twice at the start, and once for each step. -/
  calls_eq : taped.tape.calls = i + 2
  /-- It gave the tokens of the text. -/
  given_eq : taped.tape.given = (List.range (i + 2)).map (tokenForever source)

section iterate

variable (source : String) (i : Nat)

theorem current_iterate :
    (Cursor.advance^[i] (ofSource source)).current = tokenForever source i := by
  rw [← Window.nth_ofSource, ← Cursor.current_iterate, ← window_iterate]
  rfl

theorem peek_iterate :
    (Cursor.advance^[i] (ofSource source)).peek = tokenForever source (i + 1) := by
  rw [← current_iterate, Function.iterate_succ_apply']
  rfl

/-- What was pulled is the tokens of the text, up to the one ahead. -/
theorem given_iterate :
    (Cursor.advance^[i] (ofSource source)).tape.given =
      (List.range (i + 2)).map (tokenForever source) := by
  induction i with
  | zero =>
    -- at the start the two tokens in sight were pulled
    show [(ofSource source).current, (ofSource source).peek] = [_, _]
    rw [← current_iterate source 0, ← peek_iterate source 0]
    rfl
  | succ i ih =>
    -- a step pulls the token that is ahead behind it
    rw [List.range_succ, List.map_append, ← ih, List.map_singleton, ← peek_iterate,
      Function.iterate_succ_apply']
    rfl

/-- A step counts itself. -/
theorem position_iterate : (Cursor.advance^[i] (ofSource source)).position = i := by
  induction i with
  | zero => rfl
  | succ i ih =>
    rw [Function.iterate_succ_apply']
    exact congrArg (· + 1) ih

theorem standsAt_iterate : (Cursor.advance^[i] (ofSource source)).StandsAt source i where
  eq_iterate := rfl
  position_eq := position_iterate source i
  current_eq := current_iterate source i
  peek_eq := peek_iterate source i
  calls_eq := by rw [Tape.calls, given_iterate, List.length_map, List.length_range]
  given_eq := given_iterate source i

end iterate

end TapedWindow

/-! ## Cutting beforehand -/

/-- Cursors on one course at one position are paired. -/
def Course.coupling {κ κ' : Type} [Cursor κ] [Cursor κ'] [LawfulCursor κ] [LawfulCursor κ']
    (course : Course) : Coupling κ κ' where
  Paired cursor cursor' := Cursor.On course cursor ∧ Cursor.On course cursor' ∧
    Cursor.position cursor' = Cursor.position cursor
  current_eq := by
    intro cursor cursor' ⟨h, h', hposition⟩
    rw [h.current_eq, h'.current_eq, hposition]
  peek_eq := by
    intro cursor cursor' ⟨h, h', hposition⟩
    rw [h.peek_eq, h'.peek_eq, hposition]
  position_eq hpaired := hpaired.2.2
  advance := by
    intro cursor cursor' ⟨h, h', hposition⟩
    refine ⟨h.advance, h'.advance, ?_⟩
    rw [LawfulCursor.position_advance, LawfulCursor.position_advance, hposition]

theorem Strip.ofTokens_on (source : String) :
    Cursor.On (Course.ofSource source) (ofTokens (tokenize source)) := by
  intro n
  have hposition : Cursor.position (ofTokens (tokenize source)) = 0 := position_ofTokens _
  rw [nth_ofTokens, hposition, Nat.zero_add]
  exact (Window.nth_ofSource source n).symm

/-- Parsing the tokens of a text that were cut beforehand is parsing the text: the tree is the same,
and everything happens at the same tokens. -/
theorem parseTokens_tokenize (source : String) : parseTokens (tokenize source) = parse source := by
  have hon := Strip.ofTokens_on source
  have hposition := Strip.position_ofTokens (tokenize source)
  have hstrip := (Strip.ofTokens_starts (tokenize_upToEof source)).length_tokensBeforeEof_le
  have hwindow := length_tokensBeforeEof_le source
  have hwithin : Cursor.Within (tokensBeforeEof source).length
      (Strip.ofTokens (tokenize source)) := by
    rw [length_tokensBeforeEof]
    exact hon.within.mono (Nat.sub_le _ _)
  -- the strip expects another number of tokens than the window, but both expect enough
  have hagree := (Parse.statements_agree _
    (show _ ≤ Cursor.ahead (Strip.ofTokens (tokenize source)) + 3 by omega)
    (show _ ≤ Cursor.ahead (Window.ofSource source) + 3 by omega) hwithin).1
  have hstep := Parse.statements_inStep (Course.ofSource source).coupling
    (Cursor.ahead (Window.ofSource source) + 3) ⟨Window.ofSource_on source, hon, hposition⟩
  show Parsed.mk _ _ = Parsed.mk _ _
  rw [run_program, run_program, hagree, hstep.value_eq, hstep.events_eq]

/-! ## All states of a parser -/

/-- A parser of a source text that parses so many programs while it is watched: its lexer is on
tape, and it leaves a trail. -/
def watched (source : String) (count : Nat) :
    Traced.Result (Trail TapedWindow) Event (List Program) :=
  (Parse.programs count).run (Trail.start (TapedWindow.ofSource source))

/-- Watching changes nothing, and all states that are seen are steps from the first one. -/
theorem watched_inStep (source : String) (count : Nat) :
    Parse.InStepAt (Trail.coupling TapedWindow.coupling (TapedWindow.ofSource source))
      (Parse.programs count) (Parse.programs count) (Trail.start (TapedWindow.ofSource source))
      (Window.ofSource source) := by
  refine Parse.programs_inStep ?_ count ⟨Trail.leadsFrom_start _, rfl⟩
  intro trail window ⟨_, hwindow⟩
  rw [← hwindow]
  rfl

/-- A parser used repeatedly answers the programs of the parser that is watched, finds the same
wrong, and stops where that one does. -/
theorem answerAll_eq_watched (source : String) (requests : List Session.Request) :
    ((Session.ofSource source).answerAll requests).1.filterMap Session.Reply.program? =
        (watched source (requests.count .parse)).value ∧
      ((Session.ofSource source).answerAll requests).2 =
        ⟨(watched source (requests.count .parse)).state.now.window,
          (watched source (requests.count .parse)).events.filterMap Event.diagnostic?⟩ := by
  have hstep := watched_inStep source (requests.count .parse)
  obtain ⟨hprograms, hsession⟩ :=
    Session.answerAll_eq_programs requests (Session.ofSource source)
  refine ⟨hprograms.trans hstep.value_eq, hsession.trans ?_⟩
  have hwindow : (watched source (requests.count .parse)).state.now.window =
      ((Parse.programs (requests.count .parse)).run (Window.ofSource source)).state :=
    hstep.paired.2
  rw [hwindow, watched, ← hstep.events_eq]
  rfl

/-- Each state of a parser that is watched is the one that so many steps lead to. -/
theorem standsAt_watched (source : String) (count : Nat)
    (i : Fin (watched source count).state.states.length) :
    ((watched source count).state.states.get i).StandsAt source i.val := by
  have htrail : (watched source count).state.LeadsFrom (TapedWindow.ofSource source) :=
    (watched_inStep source count).paired.1
  rw [htrail.get_states]
  exact TapedWindow.standsAt_iterate source i.val

/-- Pulling tokens when they come into sight sees the same tokens as cutting them all beforehand. A
lexer that is asked again and again gives the tokens of the text and then the end of input for ever.
A parser may be used in any way: in every state that it goes through, from the start to where it
stops, it has one token of the text in sight and the one after it, each step leads to the next
token, and its lexer was asked once for each of them; this is seen of the parser with its lexer on
tape and with a trail, which answers, records and stops like the parser without. So parsing the
tokens of the text that were cut beforehand, the last one repeated for ever, is parsing the text. -/
theorem lazy_pulling_eq_cutting_beforehand (source : String) :
    (∀ count, (Lexer.ofSource source).take count =
      (List.range count).map (tokenForever source)) ∧
    (∀ requests : List Session.Request,
      (((Session.ofSource source).answerAll requests).1.filterMap Session.Reply.program? =
          (watched source (requests.count .parse)).value ∧
        ((Session.ofSource source).answerAll requests).2 =
          ⟨(watched source (requests.count .parse)).state.now.window,
            (watched source (requests.count .parse)).events.filterMap Event.diagnostic?⟩) ∧
      ∀ i : Fin _,
        ((watched source (requests.count .parse)).state.states.get i).StandsAt source i.val) ∧
    (∀ n, Cursor.nth (Strip.ofTokens (tokenize source)) n = tokenForever source n) ∧
    parseTokens (tokenize source) = parse source := by
  refine ⟨Lexer.take_ofSource source, fun requests => ?_, Strip.nth_ofTokens source,
    parseTokens_tokenize source⟩
  exact ⟨answerAll_eq_watched source requests, standsAt_watched source _⟩

end SayLang
