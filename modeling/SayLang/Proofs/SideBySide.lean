import Mathlib.Data.List.GetD
import SayLang.Parser.Climb
import SayLang.Proofs.Outlook
import SayLang.Proofs.Relabelling

/-!
# Two parsers side by side

Two parsers run over the tokens of one text, the second one over the tokens relabelled. Where they
stand abreast (`Abreast`) the second sees what the first one sees, relabelled, and that for ever.
`Mirrors` says of a piece of the parser that both runs of it go the same way: they end abreast, with
the value relabelled and with the diagnostics relabelled.

> `Mirrors.bind`: a sequence goes the same way when its parts do.

There is one such rule for each step of the parser. Nothing is said of whether the text is right, so
all that follows holds of broken texts as well.
-/

namespace SayLang

variable {κ κ' : Type} [Cursor κ] [Cursor κ']

/-! ## Standing abreast -/

/-- The second cursor sees the tokens of the first one relabelled, and the end of input is at most
so many tokens ahead. -/
structure Abreast (r : Relabelling) (ahead : Nat) (cursor : κ) (cursor' : κ') : Prop where
  /-- It sees the tokens relabelled. -/
  nth_eq (n : Nat) : Cursor.nth cursor' n = r.token (Cursor.nth cursor n)
  /-- From there on there is only the end of input. -/
  kind_eq_eof {n : Nat} : ahead ≤ n → (Cursor.nth cursor n).kind = .eof

namespace Abreast

variable {r : Relabelling} {ahead : Nat} {cursor : κ} {cursor' : κ'}

theorem current_eq (h : Abreast r ahead cursor cursor') :
    Cursor.current cursor' = r.token (Cursor.current cursor) :=
  h.nth_eq 0

theorem kind_current (h : Abreast r ahead cursor cursor') :
    (Cursor.current cursor').kind = (Cursor.current cursor).kind := by
  rw [h.current_eq, r.kind_eq]

theorem mono {ahead' : Nat} (h : Abreast r ahead cursor cursor') (hle : ahead ≤ ahead') :
    Abreast r ahead' cursor cursor' :=
  ⟨h.nth_eq, fun hn => h.kind_eq_eof (Nat.le_trans hle hn)⟩

theorem advance (h : Abreast r ahead cursor cursor') :
    Abreast r (ahead - 1) (Cursor.advance cursor) (Cursor.advance cursor') :=
  ⟨fun n => h.nth_eq (n + 1), fun {n} hn => h.kind_eq_eof (n := n + 1) (by omega)⟩

/-- In front of the end of input there is at least one token ahead. -/
theorem pos (h : Abreast r ahead cursor cursor') (hne : (Cursor.current cursor).kind ≠ .eof) :
    0 < ahead := by
  by_contra hzero
  exact hne (h.kind_eq_eof (n := 0) (by omega))

variable [LawfulCursor κ] [LawfulCursor κ']

theorem peek_eq (h : Abreast r ahead cursor cursor') :
    Cursor.peek cursor' = r.token (Cursor.peek cursor) := by
  rw [← Cursor.nth_one, ← Cursor.nth_one, h.nth_eq]

theorem kind_peek (h : Abreast r ahead cursor cursor') :
    (Cursor.peek cursor').kind = (Cursor.peek cursor).kind := by
  rw [h.peek_eq, r.kind_eq]

omit [LawfulCursor κ'] in
/-- Where the end of input is not the next token there are two ahead. -/
theorem one_lt (h : Abreast r ahead cursor cursor') (hne : (Cursor.peek cursor).kind ≠ .eof) :
    1 < ahead := by
  by_contra hle
  refine hne ?_
  rw [← Cursor.nth_one]
  exact h.kind_eq_eof (by omega)

end Abreast

section faces

variable [LawfulCursor κ] [LawfulCursor κ'] {tokens : List Token}

/-- A cursor on tokens relabelled sees the tokens relabelled, for ever. -/
theorem nth_eq_of_faces (r : Relabelling) (hupTo : UpToEof tokens) {limit limit' : Nat}
    {cursor : κ} {cursor' : κ'} (h : Cursor.Faces limit cursor tokens)
    (h' : Cursor.Faces limit' cursor' (tokens.map r.token)) (n : Nat) :
    Cursor.nth cursor' n = r.token (Cursor.nth cursor n) := by
  rw [h.nth_eq hupTo, h'.nth_eq (hupTo.map r.kind_eq), List.getLast_map, List.getD_map]

/-- So it stands abreast of a cursor on the tokens themselves. -/
theorem abreast_of_faces (r : Relabelling) (hupTo : UpToEof tokens) {limit limit' : Nat}
    {cursor : κ} {cursor' : κ'} (h : Cursor.Faces limit cursor tokens)
    (h' : Cursor.Faces limit' cursor' (tokens.map r.token)) :
    Abreast r (tokens.length - 1) cursor cursor' :=
  ⟨nth_eq_of_faces r hupTo h h', fun hn => h.kind_eq_eof hupTo (by omega)⟩

end faces

namespace Parse

/-! ## Runs that go the same way -/

variable {α β : Type}

/-- Run side by side, both pieces end abreast, with the value of the second that of the first
changed by `map`, and with its diagnostics relabelled. -/
structure Mirrors (r : Relabelling) (ahead : Nat) (map : α → α) (p : Parse κ α) (p' : Parse κ' α)
    (cursor : κ) (cursor' : κ') : Prop where
  /-- The values correspond. -/
  value_eq : (p'.run cursor').value = map (p.run cursor).value
  /-- They end abreast. -/
  abreast : Abreast r ahead (p.run cursor).state (p'.run cursor').state
  /-- The diagnostics correspond. -/
  diagnostics_eq : (p'.run cursor').events.filterMap Event.diagnostic? =
    ((p.run cursor).events.filterMap Event.diagnostic?).map (Diagnostic.relabel r)

variable {r : Relabelling} {ahead : Nat} {cursor : κ} {cursor' : κ'}

theorem mirrors_pure (h : Abreast r ahead cursor cursor') {map : α → α} {a a' : α}
    (hmap : a' = map a) : Mirrors r ahead map (pure a) (pure a') cursor cursor' :=
  ⟨hmap, h, rfl⟩

/-- A sequence goes the same way when its parts do. -/
theorem Mirrors.bind {ahead' : Nat} {map : α → α} {map' : β → β} {p : Parse κ α} {p' : Parse κ' α}
    {f : α → Parse κ β} {f' : α → Parse κ' β} (h : Mirrors r ahead map p p' cursor cursor')
    (hf : ∀ (a : α) {after : κ} {after' : κ'}, Abreast r ahead after after' →
      Mirrors r ahead' map' (f a) (f' (map a)) after after') :
    Mirrors r ahead' map' (p >>= f) (p' >>= f') cursor cursor' := by
  have hf := hf (p.run cursor).value h.abreast
  rw [← h.value_eq] at hf
  refine ⟨?_, ?_, ?_⟩
  · rw [Traced.run_bind, Traced.run_bind]
    exact hf.value_eq
  · rw [Traced.run_bind, Traced.run_bind]
    exact hf.abreast
  · rw [Traced.run_bind, Traced.run_bind, List.filterMap_append, List.filterMap_append,
      List.map_append, h.diagnostics_eq, hf.diagnostics_eq]

/-- The end of input may be taken to be further ahead. -/
theorem Mirrors.mono {ahead' : Nat} {map : α → α} {p : Parse κ α} {p' : Parse κ' α}
    (h : Mirrors r ahead map p p' cursor cursor') (hle : ahead ≤ ahead') :
    Mirrors r ahead' map p p' cursor cursor' :=
  ⟨h.value_eq, h.abreast.mono hle, h.diagnostics_eq⟩

/-! ## Steps of the parser -/

section steps

variable {map : α → α}

/-- Only what the runs do counts. -/
theorem mirrors_congr {p q : Parse κ α} {p' q' : Parse κ' α} {start : κ} {start' : κ'}
    (h : p.run cursor = q.run start) (h' : p'.run cursor' = q'.run start') :
    Mirrors r ahead map p p' cursor cursor' ↔ Mirrors r ahead map q q' start start' := by
  constructor
  · intro hm
    exact ⟨h ▸ h' ▸ hm.value_eq, h ▸ h' ▸ hm.abreast, h ▸ h' ▸ hm.diagnostics_eq⟩
  · intro hm
    exact ⟨h ▸ h' ▸ hm.value_eq, h ▸ h' ▸ hm.abreast, h ▸ h' ▸ hm.diagnostics_eq⟩

/-- Two pieces that answer at once go the same way. -/
theorem mirrors_of_run_eq {p : Parse κ α} {p' : Parse κ' α} {a a' : α}
    (h : p.run cursor = ⟨a, cursor, []⟩) (h' : p'.run cursor' = ⟨a', cursor', []⟩)
    (habreast : Abreast r ahead cursor cursor') (hmap : a' = map a) :
    Mirrors r ahead map p p' cursor cursor' :=
  (mirrors_congr (h.trans (Traced.run_pure a cursor).symm)
    (h'.trans (Traced.run_pure a' cursor').symm)).mpr (mirrors_pure habreast hmap)

theorem mirrors_current {f : Token → Parse κ α} {f' : Token → Parse κ' α} :
    Mirrors r ahead map (current >>= f) (current >>= f') cursor cursor' ↔
      Mirrors r ahead map (f (Cursor.current cursor)) (f' (Cursor.current cursor')) cursor
        cursor' :=
  mirrors_congr (Traced.run_look_bind _ _ _) (Traced.run_look_bind _ _ _)

theorem mirrors_peek {f : Token → Parse κ α} {f' : Token → Parse κ' α} :
    Mirrors r ahead map (peek >>= f) (peek >>= f') cursor cursor' ↔
      Mirrors r ahead map (f (Cursor.peek cursor)) (f' (Cursor.peek cursor')) cursor cursor' :=
  mirrors_congr (Traced.run_look_bind _ _ _) (Traced.run_look_bind _ _ _)

theorem mirrors_position {f : Nat → Parse κ α} {f' : Nat → Parse κ' α} :
    Mirrors r ahead map (position >>= f) (position >>= f') cursor cursor' ↔
      Mirrors r ahead map (f (Cursor.position cursor)) (f' (Cursor.position cursor')) cursor
        cursor' :=
  mirrors_congr (Traced.run_look_bind _ _ _) (Traced.run_look_bind _ _ _)

theorem mirrors_name {f : Name → Parse κ α} {f' : Name → Parse κ' α} :
    Mirrors r ahead map (name >>= f) (name >>= f') cursor cursor' ↔
      Mirrors r ahead map (f (.ofToken (Cursor.current cursor)))
        (f' (.ofToken (Cursor.current cursor'))) cursor cursor' :=
  mirrors_congr (by rw [Traced.run_bind]; rfl) (by rw [Traced.run_bind]; rfl)

theorem mirrors_advance {f : Unit → Parse κ α} {f' : Unit → Parse κ' α} :
    Mirrors r ahead map (advance >>= f) (advance >>= f') cursor cursor' ↔
      Mirrors r ahead map (f ()) (f' ()) (Cursor.advance cursor) (Cursor.advance cursor') :=
  mirrors_congr (by rw [Traced.run_bind]; rfl) (by rw [Traced.run_bind]; rfl)

/-- Records other than diagnostics do not count. -/
theorem mirrors_record {event event' : Event} (h : event.diagnostic? = none)
    (h' : event'.diagnostic? = none) {f : Unit → Parse κ α} {f' : Unit → Parse κ' α} :
    Mirrors r ahead map (Traced.record event >>= f) (Traced.record event' >>= f') cursor cursor' ↔
      Mirrors r ahead map (f ()) (f' ()) cursor cursor' := by
  have hsame : ((Traced.record event >>= f).run cursor).events.filterMap Event.diagnostic? =
      ((f ()).run cursor).events.filterMap Event.diagnostic? := by
    rw [Traced.run_bind, Traced.run_record, List.filterMap_append, List.filterMap_cons_none h]
    rfl
  have hsame' : ((Traced.record event' >>= f').run cursor').events.filterMap Event.diagnostic? =
      ((f' ()).run cursor').events.filterMap Event.diagnostic? := by
    rw [Traced.run_bind, Traced.run_record, List.filterMap_append, List.filterMap_cons_none h']
    rfl
  constructor
  · intro hm
    exact ⟨hm.value_eq, hm.abreast, by rw [← hsame, ← hsame', hm.diagnostics_eq]⟩
  · intro hm
    exact ⟨hm.value_eq, hm.abreast, by rw [hsame, hsame', hm.diagnostics_eq]⟩

/-- The same token is rejected for the same reason. -/
theorem mirrors_reject (h : Abreast r ahead cursor cursor') {problem : Token → Problem}
    (hproblem : problem (r.token (Cursor.current cursor)) = problem (Cursor.current cursor)) :
    Mirrors r ahead (Expression.relabel r) (reject problem) (reject problem) cursor cursor' := by
  refine ⟨?_, h, ?_⟩
  · rw [run_reject, run_reject, h.current_eq, hproblem]
    rfl
  · rw [run_reject, run_reject, h.current_eq, hproblem]
    show [_] = [_]
    rw [r.line_eq]
    rfl

variable [LawfulCursor κ] [LawfulCursor κ']

/-- A token asked for is there in both runs or in none. -/
theorem mirrors_expecting {ahead' : Nat} {kind : Kind} {broken : Expression → α}
    {next : Parse κ α} {next' : Parse κ' α} (h : Abreast r ahead cursor cursor')
    (hle : ahead ≤ ahead') (hne : kind ≠ .eof)
    (hbroken : ∀ e, broken (e.relabel r) = map (broken e))
    (hnext : (Cursor.peek cursor).kind = kind → 1 < ahead →
      Abreast r (ahead - 1) (Cursor.advance cursor) (Cursor.advance cursor') →
      Mirrors r ahead' map next next' (Cursor.advance cursor) (Cursor.advance cursor')) :
    Mirrors r ahead' map (expecting kind broken next) (expecting kind broken next') cursor
      cursor' := by
  by_cases hk : (Cursor.peek cursor).kind = kind
  · have hk' : (Cursor.peek cursor').kind = kind := by rw [h.kind_peek, hk]
    rw [mirrors_congr (run_expecting_of_eq broken next hk) (run_expecting_of_eq broken next' hk')]
    exact hnext hk (h.one_lt (by rw [hk]; exact hne)) h.advance
  · have hk' : (Cursor.peek cursor').kind ≠ kind := by rw [h.kind_peek]; exact hk
    refine ⟨?_, ?_, ?_⟩
    · rw [run_expecting_of_ne broken next hk, run_expecting_of_ne broken next' hk', h.kind_peek,
        h.peek_eq]
      exact hbroken (.error (Cursor.peek cursor) _)
    · rw [run_expecting_of_ne broken next hk, run_expecting_of_ne broken next' hk']
      exact h.mono hle
    · rw [run_expecting_of_ne broken next hk, run_expecting_of_ne broken next' hk', h.kind_peek,
        h.peek_eq]
      show [_] = [_]
      rw [r.line_eq]
      rfl

/-- A semicolon is skipped in both runs or in none. -/
theorem mirrors_optionalSemicolon (h : Abreast r ahead cursor cursor') :
    Mirrors r ahead id optionalSemicolon optionalSemicolon cursor cursor' := by
  refine ⟨rfl, ?_, ?_⟩
  · rw [run_optionalSemicolon, run_optionalSemicolon, h.kind_peek]
    split
    · exact h.advance.mono (Nat.sub_le _ _)
    · exact h
  · rw [run_optionalSemicolon, run_optionalSemicolon]
    rfl

end steps

end Parse

end SayLang
