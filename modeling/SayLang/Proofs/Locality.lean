import SayLang.Proofs.Reading

/-!
# A reading looks one token ahead

What is read are the tokens up to those left behind, and of these only the next one matters. So the
same is read when others stand behind that one. Behind a statement that ends with its semicolon
nothing matters at all.

> `ReadsEach.in_front_of`: statements of which the last one ends with its semicolon are read in
> front of whatever tokens.

No expression ends with a semicolon (`ReadsExpression.front`), so a semicolon at the end is the one
of a statement.
-/

namespace SayLang

/-! ## What is read off the front -/

/-- The tokens of `front` are read off `tokens`, and `rest` is left. Of the tokens behind them they
need the next one. -/
structure IsFront (reads : List Token → List Token → Prop) (front tokens rest : List Token) :
    Prop where
  /-- They stand before the tokens left. -/
  append_eq : front ++ rest = tokens
  /-- They are read whatever stands behind the next token. -/
  reads {ahead : List Token} : ahead.head? = rest.head? → reads (front ++ ahead) ahead

/-- The last token is a semicolon. -/
def EndsWithSemicolon (tokens : List Token) : Prop :=
  ∃ last ∈ tokens.getLast?, last.kind = .semicolon

theorem EndsWithSemicolon.of_append {first second : List Token}
    (h : EndsWithSemicolon (first ++ second)) :
    EndsWithSemicolon first ∨ EndsWithSemicolon second := by
  obtain ⟨last, hlast, hk⟩ := h
  rw [List.getLast?_append, Option.mem_def, Option.or_eq_some_iff] at hlast
  rcases hlast with hlast | ⟨-, hlast⟩
  · exact .inr ⟨last, hlast, hk⟩
  · exact .inl ⟨last, hlast, hk⟩

/-- Some tokens are read off the front in that way, and they do not end with a semicolon. -/
def ReadsFront (reads : List Token → List Token → Prop) (tokens rest : List Token) : Prop :=
  ∃ front, IsFront reads front tokens rest ∧ ¬ EndsWithSemicolon front

section fronts

variable {reads reads' reads₁ reads₂ : List Token → List Token → Prop}
variable {token : Token} {kind : Kind} {tokens middle rest front front₁ front₂ : List Token}

theorem IsFront.imp (h : IsFront reads front tokens rest)
    (himp : ∀ tokens rest, reads tokens rest → reads' tokens rest) :
    IsFront reads' front tokens rest :=
  ⟨h.append_eq, fun hahead => himp _ _ (h.reads hahead)⟩

/-- One thing after the other. -/
theorem IsFront.append (h₁ : IsFront reads₁ front₁ tokens middle)
    (h₂ : IsFront reads₂ front₂ middle rest) :
    IsFront (fun tokens rest => ∃ middle, reads₁ tokens middle ∧ reads₂ middle rest)
      (front₁ ++ front₂) tokens rest := by
  refine ⟨?_, ?_⟩
  · rw [List.append_assoc, h₂.append_eq, h₁.append_eq]
  · intro ahead hahead
    have hhead : (front₂ ++ ahead).head? = middle.head? := by
      rw [← h₂.append_eq, List.head?_append, List.head?_append, hahead]
    rw [List.append_assoc]
    exact ⟨_, h₁.reads hhead, h₂.reads hahead⟩

/-- A token. -/
theorem IsFront.one (token : Token) (rest : List Token) :
    IsFront (fun tokens rest => tokens = token :: rest) [token] (token :: rest) rest :=
  ⟨rfl, fun _ => rfl⟩

namespace ReadsFront

theorem imp (h : ReadsFront reads tokens rest)
    (himp : ∀ tokens rest, reads tokens rest → reads' tokens rest) :
    ReadsFront reads' tokens rest := by
  obtain ⟨front, h, hends⟩ := h
  exact ⟨front, h.imp himp, hends⟩

/-- One thing after the other. -/
theorem append (h₁ : ReadsFront reads₁ tokens middle) (h₂ : ReadsFront reads₂ middle rest) :
    ReadsFront (fun tokens rest => ∃ middle, reads₁ tokens middle ∧ reads₂ middle rest) tokens
      rest := by
  obtain ⟨front₁, h₁, hends₁⟩ := h₁
  obtain ⟨front₂, h₂, hends₂⟩ := h₂
  exact ⟨front₁ ++ front₂, h₁.append h₂, fun hends => hends.of_append.elim hends₁ hends₂⟩

/-- The first token stays. -/
theorem head (h : ReadsFront reads tokens rest) :
    ReadsFront (fun tokens' rest => tokens'.head? = tokens.head? ∧ reads tokens' rest) tokens
      rest := by
  obtain ⟨front, h, hends⟩ := h
  refine ⟨front, ⟨h.append_eq, fun hahead => ⟨?_, h.reads hahead⟩⟩, hends⟩
  rw [← h.append_eq, List.head?_append, List.head?_append, hahead]

/-- A token asked for. -/
theorem one (hk : token.kind = kind) (hne : kind ≠ .semicolon := by decide) :
    ReadsFront (fun tokens rest => tokens = token :: rest) (token :: rest) rest := by
  refine ⟨[token], .one token rest, ?_⟩
  rintro ⟨last, hlast, hsemicolon⟩
  rw [List.getLast?_singleton, Option.mem_some] at hlast
  rw [← hlast, hk] at hsemicolon
  exact hne hsemicolon

/-- A token asked for and then something else. -/
theorem cons (h : ReadsFront reads tokens rest) (hk : token.kind = kind)
    (hne : kind ≠ .semicolon := by decide) :
    ReadsFront (fun tokens rest => ∃ more, tokens = token :: more ∧ reads more rest)
      (token :: tokens) rest :=
  (one hk hne).append h

/-- Whatever a token asked for ends. -/
theorem closed (h : IsFront reads front tokens (token :: rest)) (hk : token.kind = kind)
    (hne : kind ≠ .semicolon := by decide) :
    ReadsFront (fun tokens rest => ∃ middle, reads tokens middle ∧ middle = token :: rest) tokens
      rest := by
  refine ⟨front ++ [token], h.append (.one token rest), ?_⟩
  rintro ⟨last, hlast, hsemicolon⟩
  rw [List.getLast?_concat, Option.mem_some] at hlast
  rw [← hlast, hk] at hsemicolon
  exact hne hsemicolon

/-- Nothing, in front of a token. -/
theorem none (token : Token) (rest : List Token) :
    ReadsFront (fun tokens rest => tokens = rest ∧ ∃ more, rest = token :: more) (token :: rest)
      (token :: rest) := by
  refine ⟨[], ⟨rfl, ?_⟩, nofun⟩
  intro ahead hahead
  exact ⟨rfl, List.head?_eq_some_iff.mp hahead⟩

end ReadsFront

/-! ## What a semicolon may end -/

/-- Some tokens are read off the front, and with a semicolon at their end they need nothing behind
them. -/
def ReadsEnded (reads : List Token → List Token → Prop) (tokens rest : List Token) : Prop :=
  ∃ front, IsFront reads front tokens rest ∧
    (EndsWithSemicolon front → ∀ ahead, reads (front ++ ahead) ahead)

theorem ReadsEnded.imp (h : ReadsEnded reads tokens rest)
    (himp : ∀ tokens rest, reads tokens rest → reads' tokens rest) :
    ReadsEnded reads' tokens rest := by
  obtain ⟨front, h, hends⟩ := h
  exact ⟨front, h.imp himp, fun hfront ahead => himp _ _ (hends hfront ahead)⟩

/-- What does not end with a semicolon is ended by one that is there. -/
theorem ReadsFront.ended (h : ReadsFront reads tokens middle) (hs : ReadsSemicolon middle rest) :
    ReadsEnded (fun tokens rest => ∃ middle, reads tokens middle ∧ ReadsSemicolon middle rest)
      tokens rest := by
  obtain ⟨front, h, hends⟩ := h
  cases hs with
  | absent hk =>
    refine ⟨front, ⟨h.append_eq, fun hahead => ⟨_, h.reads hahead, ?_⟩⟩,
      fun hsemicolon => absurd hsemicolon hends⟩
    obtain ⟨more, rfl⟩ := List.head?_eq_some_iff.mp hahead
    exact .absent hk
  | @present sign rest hk =>
    have hreads : ∀ ahead, reads (front ++ sign :: ahead) (sign :: ahead) :=
      fun ahead => h.reads rfl
    refine ⟨front ++ [sign], ⟨?_, fun _ => ?_⟩, fun _ ahead => ?_⟩
    · rw [← h.append_eq, List.append_assoc, List.singleton_append]
    · rw [List.append_assoc]
      exact ⟨_, hreads _, .present hk⟩
    · rw [List.append_assoc]
      exact ⟨_, hreads _, .present hk⟩

end fronts

/-! ## Forms of an expression -/

/-- A semicolon binds not at all. -/
theorem Precedence.ne_semicolon_of_lt {floor : Precedence} {kind : Kind}
    (h : floor < kind.precedence) : kind ≠ .semicolon := by
  intro hk
  rw [hk] at h
  exact absurd h (Nat.not_lt_zero _)

theorem ReadsMoreNames.front {tokens rest : List Token} {names : List Name}
    (h : ReadsMoreNames tokens names rest) :
    ReadsFront (fun tokens rest => ReadsMoreNames tokens names rest) tokens rest := by
  induction h with
  | stop hne => exact (ReadsFront.none _ _).imp fun | _, _, ⟨rfl, _, rfl⟩ => .stop hne
  | cons hcomma hname _ ih =>
    refine ((ih.cons hname).cons hcomma).imp ?_
    rintro _ _ ⟨_, rfl, _, rfl, hmore⟩
    exact .cons hcomma hname hmore

theorem ReadsNames.front {tokens rest : List Token} {names : List Name}
    (h : ReadsNames tokens names rest) :
    ReadsFront (fun tokens rest => ReadsNames tokens names rest) tokens rest := by
  cases h with
  | none hright => exact (ReadsFront.one hright).imp fun | _, _, rfl => .none hright
  | cons hname hmore hright =>
    refine ((hmore.front.append (.one hright)).cons hname).imp ?_
    rintro _ _ ⟨_, rfl, _, hmore, rfl⟩
    exact .cons hname hmore hright

/-- What ends a return is seen at the next token. -/
theorem Grammar.endsReturn_front {tokens : List Token} (h : EndsReturn tokens) :
    ReadsFront (fun tokens rest => tokens = rest ∧ EndsReturn rest) tokens tokens := by
  cases tokens with
  | nil => exact h.elim
  | cons token rest => exact (ReadsFront.none token rest).imp fun | _, _, ⟨rfl, _, rfl⟩ => ⟨rfl, h⟩

mutual

theorem ReadsExpression.front : ∀ {floor : Precedence} {tokens rest : List Token} {e : Expression},
    ReadsExpression floor tokens e rest →
      ReadsFront (fun tokens rest => ReadsExpression floor tokens e rest) tokens rest
  | _, _, _, _, .mk ho hc => (ho.front.append hc.front).imp fun _ _ ⟨_, ho, hc⟩ => .mk ho hc

theorem ReadsOpening.front : ∀ {tokens rest : List Token} {e : Expression},
    ReadsOpening tokens e rest →
      ReadsFront (fun tokens rest => ReadsOpening tokens e rest) tokens rest
  | _, _, _, .identifier hk => (ReadsFront.one hk).imp fun | _, _, rfl => .identifier hk
  | _, _, _, .number hk hvalue => (ReadsFront.one hk).imp fun | _, _, rfl => .number hk hvalue
  | _, _, _, .boolean (.inl hk) => (ReadsFront.one hk).imp fun | _, _, rfl => .boolean (.inl hk)
  | _, _, _, .boolean (.inr hk) => (ReadsFront.one hk).imp fun | _, _, rfl => .boolean (.inr hk)
  | _, _, _, .unary (.inl hk) he =>
    (he.front.cons hk).imp fun _ _ ⟨_, htokens, he⟩ => htokens ▸ .unary (.inl hk) he
  | _, _, _, .unary (.inr hk) he =>
    (he.front.cons hk).imp fun _ _ ⟨_, htokens, he⟩ => htokens ▸ .unary (.inr hk) he
  | _, _, _, .group hleft he hright => by
    refine ((he.front.append (.one hright)).cons hleft).imp ?_
    rintro _ _ ⟨_, rfl, _, he, rfl⟩
    exact .group hleft he hright
  | _, _, _, .ifThen hword hleft he hright hb hnext => by
    refine (((he.front.append ((hb.front.append (.none _ _)).cons hright)).cons hleft).cons
      hword).imp ?_
    rintro _ _ ⟨_, rfl, _, rfl, _, he, _, rfl, _, hb, rfl, _, rfl⟩
    exact .ifThen hword hleft he hright hb hnext
  | _, _, _, .ifElse hword hleft he hright hb helse ha => by
    refine (((he.front.append ((hb.front.append (ha.front.cons helse)).cons hright)).cons
      hleft).cons hword).imp ?_
    rintro _ _ ⟨_, rfl, _, rfl, _, he, _, rfl, _, hb, _, rfl, ha⟩
    exact .ifElse hword hleft he hright hb helse ha
  | _, _, _, .function hword hleft hn hb => by
    refine (((hn.front.append hb.front).cons hleft).cons hword).imp ?_
    rintro _ _ ⟨_, rfl, _, rfl, _, hn, hb⟩
    exact .function hword hleft hn hb

theorem ReadsClimb.front : ∀ {floor : Precedence} {left e : Expression} {tokens rest : List Token},
    ReadsClimb floor left tokens e rest →
      ReadsFront (fun tokens rest => ReadsClimb floor left tokens e rest) tokens rest
  | _, _, _, _, _, .stop hstop => (ReadsFront.none _ _).imp fun | _, _, ⟨rfl, _, rfl⟩ => .stop hstop
  | _, _, _, _, _, .binary hlt hne he hc => by
    refine ((he.front.append hc.front).cons rfl (Precedence.ne_semicolon_of_lt hlt)).imp ?_
    rintro _ _ ⟨_, rfl, _, he, hc⟩
    exact .binary hlt hne he hc
  | _, _, _, _, _, .call hlt hk ha hc => by
    refine ((ha.front.append hc.front).cons hk).imp ?_
    rintro _ _ ⟨_, rfl, _, ha, hc⟩
    exact .call hlt hk ha hc

theorem ReadsArguments.front : ∀ {tokens rest : List Token} {arguments : List Expression},
    ReadsArguments tokens arguments rest →
      ReadsFront (fun tokens rest => ReadsArguments tokens arguments rest) tokens rest
  | _, _, _, .none hright => (ReadsFront.one hright).imp fun | _, _, rfl => .none hright
  | _, _, _, .cons he hm hright => by
    refine (he.front.append (hm.front.append (.one hright))).imp ?_
    rintro _ _ ⟨_, he, _, hm, rfl⟩
    exact .cons he hm hright

theorem ReadsMoreArguments.front : ∀ {tokens rest : List Token} {arguments : List Expression},
    ReadsMoreArguments tokens arguments rest →
      ReadsFront (fun tokens rest => ReadsMoreArguments tokens arguments rest) tokens rest
  | _, _, _, .stop hne => (ReadsFront.none _ _).imp fun | _, _, ⟨rfl, _, rfl⟩ => .stop hne
  | _, _, _, .cons hcomma he hm => by
    refine ((he.front.append hm.front).cons hcomma).imp ?_
    rintro _ _ ⟨_, rfl, _, he, hm⟩
    exact .cons hcomma he hm

theorem ReadsBlock.front : ∀ {tokens rest : List Token} {block : Block},
    ReadsBlock tokens block rest →
      ReadsFront (fun tokens rest => ReadsBlock tokens block rest) tokens rest
  | _, _, _, .mk hleft hs hright => by
    -- the statements may end with a semicolon, but the block does not
    obtain ⟨_, h⟩ := hs.front
    refine ((ReadsFront.closed h hright).cons hleft).imp ?_
    rintro _ _ ⟨_, rfl, _, hs, rfl⟩
    exact .mk hleft hs hright

theorem ReadsStatements.front : ∀ {tokens rest : List Token} {statements : List Statement},
    ReadsStatements tokens statements rest →
      ∃ front, IsFront (fun tokens rest => ReadsStatements tokens statements rest) front tokens rest
  | _, _, _, .stop hends =>
    let ⟨_, h, _⟩ := ReadsFront.none _ _
    ⟨_, h.imp fun | _, _, ⟨rfl, _, rfl⟩ => .stop hends⟩
  | _, _, _, .cons hs hss =>
    let ⟨_, h, _⟩ := hs.front
    let ⟨_, h'⟩ := hss.front
    ⟨_, (h.append h').imp fun _ _ ⟨_, hs, hss⟩ => .cons hs hss⟩

theorem ReadsStatement.front : ∀ {tokens rest : List Token} {statement : Statement},
    ReadsStatement tokens statement rest →
      ReadsEnded (fun tokens rest => ReadsStatement tokens statement rest) tokens rest
  | _, _, _, .declaration hword hname hsign he hs => by
    have hne : ∀ {kind : Kind}, kind = .sayWord ∨ kind = .invarWord → kind ≠ .semicolon := by
      rintro _ (rfl | rfl) <;> decide
    refine ((((he.front.cons hsign).cons hname).cons rfl (hne hword)).ended hs).imp ?_
    rintro _ _ ⟨_, ⟨_, rfl, _, rfl, _, rfl, he⟩, hs⟩
    exact .declaration hword hname hsign he hs
  | _, _, _, .returnOf hword he hs => by
    refine ((he.front.cons hword).ended hs).imp ?_
    rintro _ _ ⟨_, ⟨_, rfl, he⟩, hs⟩
    exact .returnOf hword he hs
  | _, _, _, .bareReturn hword hend hs => by
    refine (((Grammar.endsReturn_front hend).cons hword).ended hs).imp ?_
    rintro _ _ ⟨_, ⟨_, rfl, rfl, hend⟩, hs⟩
    exact .bareReturn hword hend hs
  | _, _, _, .expression he hs => by
    refine (he.front.head.ended hs).imp ?_
    rintro tokens _ ⟨_, ⟨hhead, he⟩, hs⟩
    obtain ⟨more, rfl⟩ := List.head?_eq_some_iff.mp hhead
    exact .expression he hs

end

/-! ## Statements in front of anything -/

/-- Statements one after the other, whatever stands behind the last one. -/
inductive ReadsEach : List Token → List Statement → List Token → Prop where
  | nil {tokens : List Token} : ReadsEach tokens [] tokens
  | cons {tokens middle rest : List Token} {first : Statement} {others : List Statement} :
      ReadsStatement tokens first middle → ReadsEach middle others rest →
      ReadsEach tokens (first :: others) rest

theorem ReadsStatements.stops : ∀ {tokens rest : List Token} {statements : List Statement},
    ReadsStatements tokens statements rest →
      ∃ next more, rest = next :: more ∧ (next.kind = .rightBrace ∨ next.kind = .eof)
  | _, _, _, .stop hends => ⟨_, _, rfl, hends⟩
  | _, _, _, .cons _ hss => hss.stops

/-- Where nothing is read there is no statement. -/
theorem ReadsStatements.eq_nil {tokens : List Token} {statements : List Statement}
    (h : ReadsStatements tokens statements tokens) : statements = [] := by
  obtain ⟨next, more, rfl, hends⟩ := h.stops
  cases h with
  | stop _ => rfl
  | cons hs _ => exact absurd hends hs.head_ne

/-- Statements of which the last one ends with its semicolon are read in front of any tokens. -/
theorem ReadsStatements.in_front_of : ∀ {tokens rest : List Token} {statements : List Statement},
    ReadsStatements tokens statements rest →
      ∃ front, front ++ rest = tokens ∧ (EndsWithSemicolon front →
        ∀ ahead, ReadsEach (front ++ ahead) statements ahead)
  | _, _, _, .stop _ => ⟨[], rfl, nofun⟩
  | _, _, _, .cons hs hss => by
    obtain ⟨front₁, h₁, hends₁⟩ := hs.front
    obtain ⟨front₂, h₂, hends₂⟩ := hss.in_front_of
    refine ⟨front₁ ++ front₂, by rw [List.append_assoc, h₂, h₁.append_eq], ?_⟩
    intro hends ahead
    rw [List.append_assoc]
    cases front₂ with
    | nil =>
      -- the statement just read is the last one, and the semicolon is its own
      rw [List.append_nil] at hends
      cases h₂
      rw [hss.eq_nil]
      exact .cons (hends₁ hends _) .nil
    | cons token front₂ =>
      refine .cons (h₁.reads ?_) (hends₂ ?_ ahead)
      · rw [← h₂]
        rfl
      · obtain ⟨last, hlast, hk⟩ := hends
        refine ⟨last, ?_, hk⟩
        rwa [List.getLast?_append, List.getLast?_cons, Option.some_or, ← List.getLast?_cons]
          at hlast

/-- So are the statements of a whole text up to the end of input. -/
theorem ReadsProgram.in_front_of {before : List Token} {last : Token} {program : Program}
    (h : ReadsProgram (before ++ [last]) program)
    (hbefore : before = [] ∨ EndsWithSemicolon before) (ahead : List Token) :
    ReadsEach (before ++ ahead) program.statements ahead := by
  obtain ⟨hs, -⟩ := h
  obtain ⟨front, hfront, hends⟩ := hs.in_front_of
  obtain ⟨rfl, hlast⟩ := List.append_inj' hfront rfl
  rcases hbefore with rfl | hsemicolon
  · cases hlast
    show ReadsEach ahead _ ahead
    rw [hs.eq_nil]
    exact .nil
  · exact hends hsemicolon ahead

end SayLang
