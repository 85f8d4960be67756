import SayLang.Proofs.Acceptance
import SayLang.Proofs.Printing

/-!
# Parsing undoes printing

> `parse_of_prints`: whatever way a tree is printed in, the tokens are parsed without diagnostics,
> and the program answered is the tree with the tokens it was printed with.

The tokens of an expression do not say by themselves where the expression ends: an operator behind
it may belong to an operand in it. So the induction is about what is read under a given floor in
front of given tokens (`PrintsExpression.reads`): if the expression with what continues it makes a
larger expression, then its tokens in front of the rest are read as that (`ReadsOn`). A left operand
goes through with the operator behind it as one of its continuations, which is how the left spine of
a tree, printed from its leaf on, comes to be folded up again.
-/

namespace SayLang

/-! ## What stands behind an expression -/

/-- The precedence of the token ahead. -/
def precedenceAhead : List Token → Precedence
  | [] => .lowest
  | token :: _ => token.kind.precedence

/-- A token of the kind is ahead. -/
def KindAhead (kind : Kind) : List Token → Prop
  | [] => False
  | token :: _ => token.kind = kind

/-- Nothing ahead goes on with an expression. -/
structure EndsExpression (rest : List Token) : Prop where
  /-- There is something ahead. -/
  ne_nil : rest ≠ []
  /-- It is no operator and no call. -/
  lowest : precedenceAhead rest = .lowest
  /-- It is no other branch of a conditional. -/
  noElse : ¬ KindAhead .elseWord rest

theorem endsExpression_cons {token : Token} {rest : List Token}
    (hlowest : token.kind.precedence = .lowest) (helse : token.kind ≠ .elseWord) :
    EndsExpression (token :: rest) :=
  ⟨by simp, hlowest, helse⟩

theorem ReadsClimb.stop_of_ahead {floor : Precedence} {rest : List Token} (hne : rest ≠ [])
    (hstop : ¬ floor < precedenceAhead rest) (left : Expression) :
    ReadsClimb floor left rest left rest := by
  cases rest with
  | nil => exact absurd rfl hne
  | cons token rest => exact .stop hstop

theorem ReadsClimb.ne_nil {floor : Precedence} {left e : Expression} {tokens rest : List Token}
    (h : ReadsClimb floor left tokens e rest) : tokens ≠ [] := by
  cases h <;> simp

theorem EndsExpression.stop {rest : List Token} (h : EndsExpression rest) (left : Expression) :
    ReadsClimb .lowest left rest left rest :=
  .stop_of_ahead h.ne_nil (by rw [h.lowest]; decide) left

/-! ## Which expressions fit -/

/-- Without parentheses the expression can be read under the floor and in front of the tokens. -/
def Fits (floor : Precedence) (rest : List Token) : Expression → Prop
  | .binary _ operator _ =>
    (floor = .lowest ∨ floor < operator.kind.precedence) ∧
      ¬ operator.kind.precedence < precedenceAhead rest
  | .unary _ _ => ¬ .unary < precedenceAhead rest
  | _ => True

theorem EndsExpression.fits {rest : List Token} (h : EndsExpression rest) (e : Expression) :
    Fits .lowest rest e := by
  have hlowest (p : Precedence) : ¬ p < precedenceAhead rest := by
    rw [h.lowest]
    exact Nat.not_lt_zero _
  cases e with
  | binary _ operator _ => exact ⟨.inl rfl, hlowest _⟩
  | unary _ _ => exact hlowest _
  | _ => exact trivial

/-- The operators between operands bind tighter than nothing and less tightly than those in front of
one operand. -/
theorem precedence_of_isBinary {kind : Kind} (h : Grammar.IsBinary kind) :
    Precedence.lowest < kind.precedence ∧ kind.precedence < .unary ∧ kind ≠ .leftParen := by
  rcases h with rfl | rfl | rfl | rfl | rfl | rfl | rfl | rfl <;> decide

theorem fits_operand {e : Expression} {rest : List Token} (h : Place.operand.AllowsBare e)
    (hstop : ¬ .unary < precedenceAhead rest) : Fits .unary rest e := by
  cases e with
  | binary => exact h.elim
  | unary => exact hstop
  | _ => exact trivial

theorem fits_callee {e : Expression} {floor : Precedence} {rest : List Token}
    (h : Place.callee.AllowsBare e) : Fits floor rest e := by
  cases e with
  | binary | unary => exact h.elim
  | _ => exact trivial

theorem fits_leftOf {e : Expression} {floor : Precedence} {kind : Kind} {rest : List Token}
    (h : (Place.leftOf kind).AllowsBare e) (hfloor : floor < kind.precedence)
    (hunary : kind.precedence < .unary) (hahead : precedenceAhead rest = kind.precedence) :
    Fits floor rest e := by
  rw [Precedence.lt_iff_rank] at hfloor hunary
  cases e with
  | binary _ operator _ =>
    -- it binds as tightly as the operator behind it, which therefore takes no operand from it
    rw [Place.AllowsBare, Precedence.lt_iff_rank] at h
    refine ⟨.inr ?_, ?_⟩
    · rw [Precedence.lt_iff_rank]
      omega
    · rw [hahead, Precedence.lt_iff_rank]
      omega
  | unary =>
    rw [Fits, hahead, Precedence.lt_iff_rank]
    omega
  | _ => exact trivial

theorem fits_rightOf {e : Expression} {kind : Kind} {rest : List Token}
    (h : (Place.rightOf kind).AllowsBare e) (hunary : kind.precedence < .unary)
    (hstop : ¬ kind.precedence < precedenceAhead rest) : Fits kind.precedence rest e := by
  rw [Precedence.lt_iff_rank] at hunary hstop
  cases e with
  | binary _ operator _ =>
    -- it binds tighter than the operator before it, so it does not end where that one stops
    rw [Place.AllowsBare, Precedence.le_iff_rank] at h
    refine ⟨.inr ?_, ?_⟩
    · rw [Precedence.lt_iff_rank]
      omega
    · rw [Precedence.lt_iff_rank]
      omega
  | unary =>
    rw [Fits, Precedence.lt_iff_rank]
    omega
  | _ => exact trivial

/-! ## Printings are read -/

theorem PrintsName.kind_eq {name : Name} {token : Token} (h : PrintsName name token) :
    token.kind = .identifier :=
  (kind_eq_of_spelling h.spelling).trans h.kind

theorem PrintsMoreNames.reads {names q : List Name} {tokens rest : List Token}
    (h : PrintsMoreNames names tokens q rest) :
    ∃ right, ReadsMoreNames tokens q (right :: rest) ∧ right.kind = .rightParen := by
  induction h with
  | nil hright => exact ⟨_, .stop (by simp [hright]), hright⟩
  | cons hcomma hname _ ih =>
    obtain ⟨right, hmore, hright⟩ := ih
    exact ⟨right, .cons hcomma hname.kind_eq hmore, hright⟩

theorem PrintsNames.reads {names q : List Name} {tokens rest : List Token}
    (h : PrintsNames names tokens q rest) : ReadsNames tokens q rest := by
  cases h with
  | nil hright => exact .none hright
  | cons hname hmore =>
    obtain ⟨right, hreads, hright⟩ := hmore.reads
    exact .cons hname.kind_eq hreads hright

/-- Behind an argument stands a comma or the closing parenthesis. -/
theorem PrintsMoreArguments.ends {es q : List Expression} {tokens rest : List Token}
    (h : PrintsMoreArguments es tokens q rest) : EndsExpression tokens := by
  cases h with
  | nil hk | cons hk _ _ => exact endsExpression_cons (by rw [hk]; rfl) (by simp [hk])

/-- Behind the expression of a statement stands what ends it. -/
theorem PrintsEnd.reads {tokens rest : List Token} (h : PrintsEnd AfterExpression tokens rest)
    (helse : ¬ KindAhead .elseWord rest) (hsemicolon : ¬ KindAhead .semicolon rest) :
    EndsExpression tokens ∧ ReadsSemicolon tokens rest := by
  cases h with
  | sign hk =>
    exact ⟨endsExpression_cons (by rw [hk]; rfl) (by simp [hk]), .present hk⟩
  | @omitted next rest hafter =>
    obtain ⟨hbinary, hparen⟩ := hafter
    -- what binds at all is an operator between operands or an opening parenthesis
    have hlowest : next.kind.precedence = .lowest := by
      cases hk : next.kind <;> first | rfl | simp_all [Grammar.IsBinary]
    exact ⟨endsExpression_cons hlowest helse, .absent hsemicolon⟩

theorem PrintsEnd.reads_return {tokens rest : List Token} (h : PrintsEnd AfterReturn tokens rest) :
    Grammar.EndsReturn tokens ∧ ReadsSemicolon tokens rest := by
  cases h with
  | sign hk => exact ⟨.inl hk, .present hk⟩
  | omitted hafter =>
    refine ⟨.inr hafter, .absent ?_⟩
    rcases hafter with hk | hk <;> rw [hk] <;> decide

/-- What statements start with, or end in front of, is not taken for a part of what stands before
it. -/
theorem ReadsStatements.not_ahead {tokens rest : List Token} {statements : List Statement}
    (h : ReadsStatements tokens statements rest) :
    ¬ KindAhead .elseWord tokens ∧ ¬ KindAhead .semicolon tokens := by
  cases tokens with
  | nil => exact ⟨id, id⟩
  | cons token tokens =>
    simp only [KindAhead]
    cases h with
    | stop hends => rcases hends with hk | hk <;> rw [hk] <;> decide
    | cons hs _ =>
      have hstarts := hs.head
      constructor <;> intro hk <;> rw [hk] at hstarts <;> cases hstarts

theorem endsExpression_close {right : Token} {rest : List Token} (h : right.kind = .rightParen) :
    EndsExpression (right :: rest) :=
  endsExpression_cons (by rw [h]; rfl) (by simp [h])

/-- An operation fits only under a floor that its operator binds tighter than. -/
theorem Fits.lt {floor : Precedence} {rest : List Token} {left right : Expression}
    {operator : Token} (h : Fits floor rest (.binary left operator right))
    (hbinary : Grammar.IsBinary operator.kind) : floor < operator.kind.precedence := by
  rcases h.1 with hfloor | hlt
  · rw [hfloor]
    exact (precedence_of_isBinary hbinary).1
  · exact hlt

theorem noElse_of_isBinary {own operator : Token} {rest : List Token}
    (hown : Grammar.IsBinary own.kind) (hoperator : operator.spelling = own.spelling) :
    ¬ KindAhead .elseWord (operator :: rest) := by
  intro helse
  have hown' : own.kind = .elseWord := (kind_eq_of_spelling hoperator).symm.trans helse
  have hlowest := (precedence_of_isBinary hown).1
  rw [hown'] at hlowest
  exact absurd hlowest (by decide)

/-- An operator with its right operand is one of the continuations of the left operand. -/
theorem climb_binary {floor : Precedence} {own operator : Token}
    {left right ql qr e' : Expression} {middle rest rest' : List Token}
    (hown : Grammar.IsBinary own.kind) (hoperator : operator.spelling = own.spelling)
    (hfits : Fits floor rest (.binary left own right))
    (hright : ReadsExpression own.kind.precedence middle qr rest)
    (hclimb : ReadsClimb floor (.binary ql operator qr) rest e' rest') :
    ReadsClimb floor ql (operator :: middle) e' rest' := by
  have hkind := kind_eq_of_spelling hoperator
  have hlt := hfits.lt hown
  have hparen := (precedence_of_isBinary hown).2.2
  rw [← hkind] at hlt hparen hright
  exact .binary hlt hparen hright hclimb

/-- Under every floor that the expression fits, its tokens are read together with whatever continues
it behind them. -/
def ReadsOn (fits : Precedence → Prop) (tokens : List Token) (q : Expression) (rest : List Token) :
    Prop :=
  ∀ (floor : Precedence), floor < .call → fits floor → ¬ KindAhead .elseWord rest →
    ∀ (e' : Expression) (rest' : List Token), ReadsClimb floor q rest e' rest' →
      ReadsExpression floor tokens e' rest'

/-- Where nothing goes on with it, an expression in its place is read as a whole. -/
theorem ReadsOn.whole {place : Place} {e q : Expression} {tokens rest : List Token}
    (h : ReadsOn (fun floor => place.AllowsBare e → Fits floor rest e) tokens q rest)
    (hends : EndsExpression rest) : ReadsExpression .lowest tokens q rest :=
  h _ (by decide) (fun _ => hends.fits e) hends.noElse _ _ (hends.stop q)

-- The recursion is on the printing. Only the two operands and the callee are read under a floor or
-- in front of tokens that could go on with them; everything else is read as a whole.
mutual

/-- In its place an expression is read together with what continues it. -/
theorem PrintsExpression.reads : ∀ {place : Place} {e q : Expression} {tokens rest : List Token},
    PrintsExpression place e tokens q rest →
      ReadsOn (fun floor => place.AllowsBare e → Fits floor rest e) tokens q rest
  | _, _, _, _, _, .bare hallows hb => by
    intro floor hcall hfits helse e' rest' hclimb
    exact hb.reads floor hcall (hfits hallows) helse e' rest' hclimb
  | _, _, _, _, _, .parens hleft he hright => by
    intro floor _ _ _ e' rest' hclimb
    have hinner := he.reads.whole (endsExpression_close hright)
    exact .mk (.group hleft hinner hright) hclimb

/-- Without parentheses an expression is read together with what continues it, if it fits. -/
theorem PrintsBare.reads : ∀ {e q : Expression} {tokens rest : List Token},
    PrintsBare e tokens q rest → ReadsOn (fun floor => Fits floor rest e) tokens q rest
  | _, _, _, _, .identifier hname => by
    intro floor _ _ _ e' rest' hclimb
    exact .mk (.identifier hname.kind_eq) hclimb
  | _, _, _, _, .number _ htoken hvalue => by
    intro floor _ _ _ e' rest' hclimb
    exact .mk (.number htoken hvalue) hclimb
  | _, _, _, _, @PrintsBare.boolean own token value _ hown htoken => by
    intro floor _ _ _ e' rest' hclimb
    rw [← kind_eq_of_spelling htoken] at hown
    have hvalue : decide (token.kind = .trueWord) = value := by
      cases value <;> simp [hown]
    have hkind : token.kind = .trueWord ∨ token.kind = .falseWord := by
      cases value <;> simp [hown]
    rw [← hvalue] at hclimb
    exact .mk (.boolean hkind) hclimb
  | _, _, _, _, @PrintsBare.unary _ operator _ q _ _ hown hoperator he => by
    intro floor _ hfits helse e' rest' hclimb
    have hkind : operator.kind = .bang ∨ operator.kind = .minus := by
      rw [kind_eq_of_spelling hoperator]
      exact hown
    -- the operand ends where the expression fits, and the rest goes on with the whole
    have hstop := ReadsClimb.stop_of_ahead hclimb.ne_nil hfits q
    have hoperand := he.reads .unary (by decide) (fun hallows => fits_operand hallows hfits) helse
      _ _ hstop
    exact .mk (.unary hkind hoperand) hclimb
  | _, _, _, _, @PrintsBare.binary _ _ _ _ _ qr _ _ _ hown hoperator hl hr => by
    intro floor hcall hfits helse e' rest' hclimb
    have hunary := (precedence_of_isBinary hown).2.1
    have hstop := ReadsClimb.stop_of_ahead hclimb.ne_nil hfits.2 qr
    have hright := hr.reads _ (Nat.lt_trans hunary (by decide))
      (fun hallows => fits_rightOf hallows hunary hfits.2) helse _ _ hstop
    -- the operator and the right operand continue the left one, and the rest continues them all
    have hcontinued := climb_binary hown hoperator hfits hright hclimb
    have hahead := congrArg Kind.precedence (kind_eq_of_spelling hoperator)
    exact hl.reads floor hcall
      (fun hallows => fits_leftOf hallows (hfits.lt hown) hunary hahead)
      (noElse_of_isBinary hown hoperator) _ _ hcontinued
  | _, _, _, [], .ifThen _ _ _ _ _ _ => by
    intro floor _ _ _ e' rest' hclimb
    exact absurd rfl hclimb.ne_nil
  | _, _, _, _ :: _, .ifThen hown hword hleft hc hright hb => by
    intro floor _ _ helse e' rest' hclimb
    have hcondition := hc.reads.whole (endsExpression_close hright)
    have hkind := (kind_eq_of_spelling hword).trans hown
    exact .mk (.ifThen hkind hleft hcondition hright hb.reads helse) hclimb
  | _, _, _, _, .ifElse hown hword hleft hc hright hb hother ha => by
    intro floor _ _ _ e' rest' hclimb
    have hcondition := hc.reads.whole (endsExpression_close hright)
    have hkind := (kind_eq_of_spelling hword).trans hown
    exact .mk (.ifElse hkind hleft hcondition hright hb.reads hother ha.reads) hclimb
  | _, _, _, _, .function hown hword hleft hn hb => by
    intro floor _ _ _ e' rest' hclimb
    have hkind := (kind_eq_of_spelling hword).trans hown
    exact .mk (.function hkind hleft hn.reads hb.reads) hclimb
  | _, _, _, _, @PrintsBare.call _ paren _ _ _ _ _ middle _ hown hparen hc ha => by
    intro floor hcall _ _ e' rest' hclimb
    have hkind : paren.kind = .leftParen := (kind_eq_of_spelling hparen).trans hown
    have hnoElse : ¬ KindAhead .elseWord (paren :: middle) := by
      rw [KindAhead, hkind]
      decide
    -- the arguments continue the callee
    exact hc.reads floor hcall fits_callee hnoElse _ _ (.call hcall hkind ha.reads hclimb)

theorem PrintsArguments.reads : ∀ {es q : List Expression} {tokens rest : List Token},
    PrintsArguments es tokens q rest → ReadsArguments tokens q rest
  | _, _, _, _, .nil hright => .none hright
  | _, _, _, _, .cons he hm => by
    have hfirst := he.reads.whole hm.ends
    obtain ⟨right, hmore, hright⟩ := hm.reads
    exact .cons hfirst hmore hright

theorem PrintsMoreArguments.reads : ∀ {es q : List Expression} {tokens rest : List Token},
    PrintsMoreArguments es tokens q rest →
      ∃ right, ReadsMoreArguments tokens q (right :: rest) ∧ right.kind = .rightParen
  | _, _, _, _, .nil hright => ⟨_, .stop (by simp [hright]), hright⟩
  | _, _, _, _, .cons hcomma he hm => by
    have hnext := he.reads.whole hm.ends
    obtain ⟨right, hmore, hright⟩ := hm.reads
    exact ⟨right, .cons hcomma hnext hmore, hright⟩

theorem PrintsBlock.reads : ∀ {block q : Block} {tokens rest : List Token},
    PrintsBlock block tokens q rest → ReadsBlock tokens q rest
  | _, _, _, _, .mk hown hleft hs hright => by
    have hkind := (kind_eq_of_spelling hleft).trans hown
    have hstatements := hs.reads (.inl hright)
    exact .mk hkind hstatements hright

theorem PrintsStatements.reads : ∀ {statements q : List Statement} {tokens rest : List Token},
    PrintsStatements statements tokens q rest →
      KindAhead .rightBrace rest ∨ KindAhead .eof rest → ReadsStatements tokens q rest
  | _, _, [], _, .nil => by
    intro hends
    rcases hends with hends | hends <;> exact hends.elim
  | _, _, _ :: _, _, .nil => by
    intro hends
    exact .stop hends
  | _, _, _, _, .cons hs hss => by
    intro hends
    -- the statements behind this one are read first, since its own end depends on how they start
    have hothers := hss.reads hends
    obtain ⟨helse, hsemicolon⟩ := hothers.not_ahead
    exact .cons (hs.reads helse hsemicolon) hothers

theorem PrintsStatement.reads : ∀ {statement q : Statement} {tokens rest : List Token},
    PrintsStatement statement tokens q rest → ¬ KindAhead .elseWord rest →
      ¬ KindAhead .semicolon rest → ReadsStatement tokens q rest
  | _, _, _, _, .declaration hown hword hname hsign he hend => by
    intro helse hsemicolon
    obtain ⟨hends, hreads⟩ := hend.reads helse hsemicolon
    rw [← kind_eq_of_spelling hword] at hown
    exact .declaration hown hname.kind_eq hsign (he.reads.whole hends) hreads
  | _, _, _, _, .returnOf hown hword he hend => by
    intro helse hsemicolon
    obtain ⟨hends, hreads⟩ := hend.reads helse hsemicolon
    have hkind := (kind_eq_of_spelling hword).trans hown
    exact .returnOf hkind (he.reads.whole hends) hreads
  | _, _, _, _, .bareReturn hown hword hend => by
    intro _ _
    obtain ⟨hends, hreads⟩ := hend.reads_return
    have hkind := (kind_eq_of_spelling hword).trans hown
    exact .bareReturn hkind hends hreads
  | _, _, _, _, .expression he hend => by
    intro helse hsemicolon
    obtain ⟨hends, hreads⟩ := hend.reads helse hsemicolon
    exact .expression (he.reads.whole hends) hreads

end

/-- The tokens that a program is printed as are read as the program with these tokens. -/
theorem PrintsProgram.reads {program q : Program} {tokens : List Token}
    (h : PrintsProgram program tokens q) : ReadsProgram tokens q := by
  obtain ⟨hs, hlast⟩ := h
  exact .mk (hs.reads (.inr hlast)) hlast

end SayLang
