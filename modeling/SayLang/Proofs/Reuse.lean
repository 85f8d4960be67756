import SayLang.Parser.Session
import SayLang.Proofs.Termination

/-!
# A parser used repeatedly reports once

The first program takes all of the source, whatever is wrong with it, and leaves the parser at the
end of input. There it stays: every later program is empty, and nothing more is found wrong.

> `kind_current_program`: a parse ends at the end of input.
> `answerAll_ofSource`: the answers to any sequence of requests, and what is found at the end.
-/

namespace SayLang

/-- A parse ends at the end of input. -/
theorem kind_current_program (source : String) :
    (Cursor.current (Parse.program.run (Window.ofSource source)).state).kind = .eof := by
  have hahead := length_tokensBeforeEof_le source
  have hfuel : (tokensBeforeEof source).length + 2 ≤ Cursor.ahead (Window.ofSource source) + 3 := by
    omega
  rw [run_program]
  exact (Parse.statements_agree _ hfuel hfuel (Window.ofSource_within source)).2.kind_eq_eof
    (Nat.le_refl 0)

/-- At the end of input a program is empty, and the parser stays there. -/
theorem run_program_of_eof {κ : Type} [Cursor κ] {cursor : κ}
    (h : (Cursor.current cursor).kind = .eof) :
    Parse.program.run cursor = ⟨⟨[]⟩, cursor, []⟩ := by
  rw [run_program, Parse.run_statements_of_eof h]

namespace Session

/-- What a parser of a source text answers, given what a parse of the text answers and whether a
program was asked for before. -/
def reply (parsed : Parsed) (before : Bool) : Request → Reply
  | .parse => .parsed (if before then ⟨[]⟩ else parsed.program) parsed.diagnostics
  | .errors => .errors (if before then parsed.diagnostics else [])

/-- The parser has come to the end of input, and knows what a parse finds. -/
structure Spent (parsed : Parsed) (session : Session) : Prop where
  /-- It looks at the end of input. -/
  kind_eq_eof : session.window.current.kind = .eof
  /-- It has found what there is to be found. -/
  diagnostics_eq : session.diagnostics = parsed.diagnostics

variable {parsed : Parsed} {session : Session}

/-- At the end of input a program is empty, and the parser is left as it is. -/
theorem parseProgram_of_eof (h : session.window.current.kind = .eof) :
    session.parseProgram = (⟨[]⟩, session) := by
  rw [parseProgram, run_program_of_eof (show (Cursor.current session.window).kind = .eof from h),
    List.filterMap_nil, List.append_nil]

/-- A request leaves a parser that has come to the end as it is. -/
theorem Spent.answer_eq (h : Spent parsed session) (request : Request) :
    session.answer request = (reply parsed true request, session) := by
  cases request with
  | errors =>
    rw [answer, h.diagnostics_eq]
    rfl
  | parse =>
    rw [answer, parseProgram_of_eof h.kind_eq_eof, h.diagnostics_eq]
    rfl

/-- And so do any number of them. -/
theorem Spent.answerAll_eq (h : Spent parsed session) (requests : List Request) :
    session.answerAll requests = (requests.map (reply parsed true), session) := by
  induction requests with
  | nil => rfl
  | cons request rest ih => rw [answerAll, h.answer_eq, ih, List.map_cons]

/-- The first program is that of a parse, and the parser has come to the end behind it. -/
theorem spent_parseProgram (source : String) :
    Spent (parse source) (ofSource source).parseProgram.2 :=
  ⟨kind_current_program source, List.nil_append _⟩

/-- A parser answers each request by what a parse of the text answers and by whether a program was
asked for before: the first program is that of the parse and all others are empty; nothing is found
wrong before the first one and all that the parse finds from then on, also when the parser is asked
no more. -/
theorem answerAll_ofSource (source : String) (requests : List Request) :
    ((ofSource source).answerAll requests).1 =
        requests.mapIdx (fun i => reply (parse source) ((requests.take i).contains .parse)) ∧
      ((ofSource source).answerAll requests).2.diagnostics =
        if requests.contains .parse then (parse source).diagnostics else [] := by
  induction requests with
  | nil => exact ⟨rfl, rfl⟩
  | cons request rest ih =>
    obtain ⟨hreplies, hfound⟩ := ih
    cases request with
    | errors =>
      -- the parser is as it was, so the rest is answered as if it stood alone
      refine ⟨?_, ?_⟩
      · show reply (parse source) false .errors :: ((ofSource source).answerAll rest).1 = _
        rw [hreplies, List.mapIdx_cons]
        simp
      · show ((ofSource source).answerAll rest).2.diagnostics = _
        rw [hfound]
        simp
    | parse =>
      have hspent := spent_parseProgram source
      refine ⟨?_, ?_⟩
      · have hreply : ((ofSource source).answer .parse).1 = reply (parse source) false .parse :=
          congrArg (Reply.parsed (parse source).program) hspent.diagnostics_eq
        show ((ofSource source).answer .parse).1 ::
          ((ofSource source).parseProgram.2.answerAll rest).1 = _
        rw [hspent.answerAll_eq, hreply, List.mapIdx_cons]
        -- every later place has the first program in front of it
        refine congrArg _ (List.ext_getElem (by simp) fun i _ _ => ?_)
        simp
      · show ((ofSource source).parseProgram.2.answerAll rest).2.diagnostics = _
        rw [hspent.answerAll_eq, hspent.diagnostics_eq]
        simp

end Session

end SayLang
