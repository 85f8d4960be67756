import SayLang.Lexer

/-!
# How tokens are spelled

The texts that make up a token of each kind, told without cutting any (`Spells`): an operator, a
sign of punctuation or a keyword has one spelling; a name is a run of word characters that spells no
keyword; a number is a run of digits; and an illegal token is a character that starts nothing else.

> `Lexeme.cut_spells`: whatever is cut is spelled in that way.
> `Spells.cut_eq_iff`: what is spelled in that way is cut off the front of a text, unless the next
> character would be taken for a further one of it.

So the longest token is cut, and where a token ends is decided by the next character alone.
-/

namespace SayLang

/-! ## Spellings -/

/-- The kinds of operators and punctuation. -/
def Kind.isSign : Kind → Bool
  | plus | minus | asterisk | slash | bang | less | greater | equalEqual | bangEqual | assign
  | leftParen | rightParen | leftBrace | rightBrace | comma | semicolon => true
  | _ => false

/-- The kinds of keywords. -/
def Kind.isKeyword : Kind → Bool
  | sayWord | invarWord | trueWord | falseWord | ifWord | elseWord | returnWord | funWord => true
  | _ => false

/-- The kinds of words: names and keywords. -/
def Kind.isWord (kind : Kind) : Bool := kind = .identifier || kind.isKeyword

/-- The characters that operators and punctuation start with. -/
def isSignChar (c : Char) : Bool :=
  c ∈ ['+', '-', '*', '/', '<', '>', '(', ')', '{', '}', ',', ';', '=', '!']

/-- A token of the kind may be spelled so. -/
inductive Spells : Kind → String → Prop where
  | sign {kind : Kind} : kind.isSign = true → Spells kind kind.text
  | keyword {kind : Kind} : kind.isKeyword = true → Spells kind kind.text
  | name {word : String} :
      word ≠ "" → (∀ c ∈ word.toList, isWordChar c = true) →
      (∀ kind : Kind, kind.isKeyword = true → word ≠ kind.text) → Spells .identifier word
  | number {digits : String} :
      digits ≠ "" → (∀ c ∈ digits.toList, c.isDigit = true) → Spells .number digits
  | illegal {c : Char} :
      isBlank c = false → isWordChar c = false → c.isDigit = false → isSignChar c = false →
      Spells .illegal (String.ofList [c])

/-! ## Classes of characters -/

section classes

variable {c : Char}

/-- The letters and the underscore come after the digits. -/
theorem isDigit_of_isWordChar (h : isWordChar c = true) : c.isDigit = false := by
  have hupper (h : c.isUpper = true) : 65 ≤ c.toNat := (of_decide_eq_true h).1
  have hlower (h : c.isLower = true) : 97 ≤ c.toNat :=
    of_decide_eq_true (Bool.and_eq_true_iff.mp h).1
  have hdigit (h : c.isDigit = true) : c.toNat ≤ 57 :=
    of_decide_eq_true (Bool.and_eq_true_iff.mp h).2
  rw [← Bool.not_eq_true]
  intro hc
  have hle := hdigit hc
  rw [isWordChar, Bool.or_eq_true, decide_eq_true_eq] at h
  rcases h with halpha | rfl
  · rcases Bool.or_eq_true_iff.mp halpha with hc | hc
    · have hge := hupper hc
      omega
    · have hge := hlower hc
      omega
  · exact nomatch hc

theorem of_isBlank (h : isBlank c = true) :
    isWordChar c = false ∧ c.isDigit = false ∧ c ≠ '=' := by
  simp only [isBlank, Bool.or_eq_true, decide_eq_true_eq] at h
  rcases h with ((rfl | rfl) | rfl) | rfl
  all_goals decide

theorem isBlank_of_isWordChar (h : isWordChar c = true) : isBlank c = false := by
  rw [← Bool.not_eq_true]
  intro hblank
  rw [(of_isBlank hblank).1] at h
  exact nomatch h

theorem isBlank_of_isDigit (h : c.isDigit = true) : isBlank c = false := by
  rw [← Bool.not_eq_true]
  intro hblank
  rw [(of_isBlank hblank).2.1] at h
  exact nomatch h

end classes

/-! ## What is cut -/

namespace Lexeme

variable {c : Char} (rest : List Char)

theorem cut_of_isDigit (h : c.isDigit = true) :
    cut c rest = ⟨.number, c :: rest.takeWhile Char.isDigit, rest.dropWhile Char.isDigit⟩ := by
  unfold cut
  split
  case h_15 => rw [if_pos h]
  -- no sign is a digit
  all_goals exact nomatch h

theorem cut_of_isWordChar (h : isWordChar c = true) :
    cut c rest =
      ⟨Kind.ofWord (String.ofList (c :: rest.takeWhile isWordChar)),
        c :: rest.takeWhile isWordChar, rest.dropWhile isWordChar⟩ := by
  have hdigit := isDigit_of_isWordChar h
  unfold cut
  split
  case h_15 => rw [if_neg (by rw [hdigit]; exact Bool.false_ne_true), if_pos h]
  -- nor a character of a word
  all_goals exact nomatch h

theorem cut_of_illegal (hword : isWordChar c = false) (hdigit : c.isDigit = false)
    (hsign : isSignChar c = false) : cut c rest = ⟨.illegal, [c], rest⟩ := by
  unfold cut
  split
  case h_15 =>
    rw [if_neg (by rw [hdigit]; exact Bool.false_ne_true),
      if_neg (by rw [hword]; exact Bool.false_ne_true)]
  all_goals exact nomatch hsign

/-- The text of a token starts where it is cut, and the rest follows it. -/
theorem cut_text_eq (c : Char) :
    ∃ chars, (cut c rest).text = c :: chars ∧ rest = chars ++ (cut c rest).rest := by
  obtain ⟨d, chars, htext⟩ := List.exists_cons_of_ne_nil (cut_text_ne_nil c rest)
  have happend := cut_append c rest
  rw [htext] at happend
  obtain ⟨rfl, hrest⟩ := List.cons.inj happend
  exact ⟨chars, htext, hrest.symm⟩

/-- An operator or a sign of punctuation is cut as it is spelled. -/
theorem cut_of_isSignChar (h : isSignChar c = true) :
    (cut c rest).kind.isSign = true ∧ String.ofList (cut c rest).text = (cut c rest).kind.text := by
  unfold cut
  split
  case h_13 | h_14 => split <;> exact ⟨rfl, rfl⟩
  case h_15 => simp_all [isSignChar]
  all_goals exact ⟨rfl, rfl⟩

end Lexeme

namespace Kind

theorem ofWord_text {kind : Kind} (h : kind.isKeyword = true) : ofWord kind.text = kind := by
  cases kind <;> first | rfl | cases h

/-- A word is a name, or the keyword that it spells. -/
theorem ofWord_eq_or (word : String) :
    ofWord word = .identifier ∨ (ofWord word).isKeyword = true ∧ (ofWord word).text = word := by
  unfold ofWord
  split
  case h_9 => exact .inl rfl
  all_goals exact .inr ⟨rfl, rfl⟩

theorem ofWord_spells {word : String} (hne : word ≠ "")
    (hword : ∀ c ∈ word.toList, isWordChar c = true) : Spells (ofWord word) word := by
  rcases ofWord_eq_or word with hname | ⟨hk, htext⟩
  · rw [hname]
    refine .name hne hword fun kind hk htext => ?_
    have hkind := ofWord_text hk
    rw [← htext, hname] at hkind
    rw [← hkind] at hk
    exact nomatch hk
  · have hspells := Spells.keyword hk
    rwa [htext] at hspells

end Kind

/-- What is cut where there is no blank is spelled as its kind says. -/
theorem Lexeme.cut_spells {c : Char} (hblank : isBlank c = false) (rest : List Char) :
    Spells (cut c rest).kind (String.ofList (cut c rest).text) := by
  have hall (p : Char → Bool) (hc : p c = true) :
      ∀ d ∈ (String.ofList (c :: rest.takeWhile p)).toList, p d = true := by
    rw [String.toList_ofList]
    exact List.forall_mem_cons.mpr ⟨hc, List.all_eq_true.mp List.all_takeWhile⟩
  by_cases hdigit : c.isDigit = true
  · rw [cut_of_isDigit rest hdigit]
    exact .number (by simp) (hall _ hdigit)
  by_cases hword : isWordChar c = true
  · rw [cut_of_isWordChar rest hword]
    exact Kind.ofWord_spells (by simp) (hall _ hword)
  rw [Bool.not_eq_true] at hdigit hword
  by_cases hsign : isSignChar c = true
  · obtain ⟨hk, htext⟩ := cut_of_isSignChar rest hsign
    rw [htext]
    exact .sign hk
  · rw [Bool.not_eq_true] at hsign
    rw [cut_of_illegal rest hword hdigit hsign]
    exact .illegal hblank hword hdigit hsign

namespace Spells

variable {kind : Kind} {text : String}

theorem ne_empty (h : Spells kind text) : text ≠ "" := by
  cases h with
  | sign hk | keyword hk => cases kind <;> cases hk <;> decide
  | name hne _ _ => exact hne
  | number hne _ => exact hne
  | illegal _ _ _ _ => simp

theorem exists_cons (h : Spells kind text) : ∃ c chars, text.toList = c :: chars :=
  List.exists_cons_of_ne_nil (mt String.toList_eq_nil_iff.mp h.ne_empty)

/-- The end of input has no spelling. -/
theorem kind_ne_eof (h : Spells kind text) : kind ≠ .eof := by
  cases h with
  | sign hk | keyword hk => cases kind <;> first | decide | cases hk
  | name _ _ _ | number _ _ | illegal _ _ _ _ => decide

/-- There is no blank in a token. -/
theorem isBlank_eq (h : Spells kind text) : ∀ c ∈ text.toList, isBlank c = false := by
  cases h with
  | sign hk | keyword hk =>
    have hall : (kind.text.toList.all fun c => isBlank c = false) = true := by
      cases kind <;> cases hk <;> decide
    exact fun c hc => of_decide_eq_true (List.all_eq_true.mp hall c hc)
  | name _ hword _ => exact fun c hc => isBlank_of_isWordChar (hword c hc)
  | number _ hdigits => exact fun c hc => isBlank_of_isDigit (hdigits c hc)
  | illegal hblank _ _ _ =>
    rw [String.toList_ofList]
    exact List.forall_mem_singleton.mpr hblank

/-- Words start with characters of words and numbers with digits, and nothing else does. -/
theorem head (h : Spells kind text) {c : Char} {chars : List Char}
    (hchars : text.toList = c :: chars) :
    isWordChar c = kind.isWord ∧ c.isDigit = decide (kind = .number) := by
  cases h with
  | sign hk | keyword hk =>
    cases kind <;> cases hk <;> simp [Kind.text] at hchars <;> rw [← hchars.1] <;> decide
  | name _ hword _ =>
    have hc := hword c (by rw [hchars]; exact List.mem_cons_self)
    rw [hc, isDigit_of_isWordChar hc]
    decide
  | number _ hdigits =>
    have hc := hdigits c (by rw [hchars]; exact List.mem_cons_self)
    cases hword : isWordChar c with
    | false => rw [hc]; decide
    | true => rw [isDigit_of_isWordChar hword] at hc; exact nomatch hc
  | illegal _ hword hdigit _ =>
    rw [String.toList_ofList] at hchars
    obtain ⟨rfl, -⟩ := List.cons.inj hchars
    rw [hword, hdigit]
    decide

end Spells

/-! ## Where a token ends -/

/-- Would the character be taken for a further one of a token of the kind? -/
def Kind.takes : Kind → Char → Bool
  | number, c => c.isDigit
  | assign, c | bang, c => c = '='
  | kind, c => kind.isWord && isWordChar c

/-- A token of the kind ends before the text: the next character is no further one of it. -/
def Kind.EndsBefore (kind : Kind) (more : List Char) : Prop :=
  ∀ c ∈ more.head?, kind.takes c = false

theorem Kind.endsBefore_nil (kind : Kind) : kind.EndsBefore [] := nofun

theorem Kind.endsBefore_cons {kind : Kind} {c : Char} {more : List Char} :
    kind.EndsBefore (c :: more) ↔ kind.takes c = false := by
  simp [EndsBefore]

/-- Every token ends before a blank. -/
theorem Kind.endsBefore_of_isBlank (kind : Kind) {c : Char} (h : isBlank c = true)
    (more : List Char) : kind.EndsBefore (c :: more) := by
  obtain ⟨hword, hdigit, hne⟩ := of_isBlank h
  rw [endsBefore_cons]
  cases kind <;> simp [takes, hword, hdigit, hne]

theorem Kind.takes_of_isWord {kind : Kind} (h : kind.isWord = true) : kind.takes = isWordChar := by
  cases kind <;> first | rfl | cases h

/-- A run stops where it should, if the next character is no further one of it. -/
theorem takeWhile_append_eq_iff {p : Char → Bool} {chars : List Char}
    (h : ∀ d ∈ chars, p d = true) (more : List Char) :
    (chars ++ more).takeWhile p = chars ↔ ∀ d ∈ more.head?, p d = false := by
  rw [List.takeWhile_append_of_pos h]
  cases more with
  | nil => simp
  | cons d more => cases hd : p d <;> simp [hd]

namespace Lexeme

variable {c : Char} {text : String} {chars : List Char} (more : List Char)

/-- The same of a token that is a run. -/
theorem run_eq_iff (kind : List Char → Kind) {p : Char → Bool} (h : ∀ d ∈ chars, p d = true) :
    (⟨kind ((chars ++ more).takeWhile p), c :: (chars ++ more).takeWhile p,
        (chars ++ more).dropWhile p⟩ : Lexeme) = ⟨kind chars, c :: chars, more⟩ ↔
      ∀ d ∈ more.head?, p d = false := by
  rw [← takeWhile_append_eq_iff h]
  constructor
  · intro heq
    exact (List.cons.inj (congrArg Lexeme.text heq)).2
  · intro htake
    have hall := List.takeWhile_append_dropWhile (p := p) (l := chars ++ more)
    rw [htake] at hall ⊢
    rw [List.append_cancel_left hall]

theorem cut_digits_eq_iff (hchars : text.toList = c :: chars)
    (h : ∀ d ∈ text.toList, d.isDigit = true) :
    cut c (chars ++ more) = ⟨.number, c :: chars, more⟩ ↔ Kind.number.EndsBefore more := by
  rw [hchars, List.forall_mem_cons] at h
  rw [cut_of_isDigit _ h.1]
  exact run_eq_iff more (fun _ => .number) h.2

theorem cut_word_eq_iff (hchars : text.toList = c :: chars)
    (h : ∀ d ∈ text.toList, isWordChar d = true) :
    cut c (chars ++ more) = ⟨Kind.ofWord text, c :: chars, more⟩ ↔
      (Kind.ofWord text).EndsBefore more := by
  obtain rfl : text = String.ofList (c :: chars) := by rw [← hchars, String.ofList_toList]
  have hkind : (Kind.ofWord (String.ofList (c :: chars))).isWord = true := by
    rcases Kind.ofWord_eq_or (String.ofList (c :: chars)) with hname | ⟨hk, -⟩
    · rw [hname]
      rfl
    · rw [Kind.isWord, hk, Bool.or_true]
  rw [hchars, List.forall_mem_cons] at h
  rw [cut_of_isWordChar _ h.1]
  unfold Kind.EndsBefore
  rw [Kind.takes_of_isWord hkind]
  exact run_eq_iff more (fun run => Kind.ofWord (String.ofList (c :: run))) h.2

/-- An equals sign behind `=` or `!` belongs to them. -/
theorem cut_assign_eq_iff :
    cut '=' more = ⟨.assign, ['='], more⟩ ↔ Kind.assign.EndsBefore more := by
  cases more with
  | nil => exact iff_of_true rfl (Kind.endsBefore_nil _)
  | cons d more =>
    by_cases hd : d = '=' <;> simp [cut, Kind.endsBefore_cons, Kind.takes, hd]

theorem cut_bang_eq_iff :
    cut '!' more = ⟨.bang, ['!'], more⟩ ↔ Kind.bang.EndsBefore more := by
  cases more with
  | nil => exact iff_of_true rfl (Kind.endsBefore_nil _)
  | cons d more =>
    by_cases hd : d = '=' <;> simp [cut, Kind.endsBefore_cons, Kind.takes, hd]

end Lexeme

namespace Spells

variable {kind : Kind} {text : String} {c : Char} {chars : List Char}

/-- What is spelled as its kind says is cut off the front of a text, unless the next character would
be taken for a further one of it. -/
theorem cut_eq_iff (h : Spells kind text) (hchars : text.toList = c :: chars) (more : List Char) :
    Lexeme.cut c (chars ++ more) = ⟨kind, c :: chars, more⟩ ↔ kind.EndsBefore more := by
  cases h with
  | sign hk =>
    cases kind with
    | assign =>
      simp [Kind.text] at hchars
      obtain ⟨rfl, rfl⟩ := hchars
      exact Lexeme.cut_assign_eq_iff more
    | bang =>
      simp [Kind.text] at hchars
      obtain ⟨rfl, rfl⟩ := hchars
      exact Lexeme.cut_bang_eq_iff more
    | _ =>
      -- no other sign takes a further character
      cases hk <;> simp [Kind.text] at hchars <;> obtain ⟨rfl, rfl⟩ := hchars <;>
        exact iff_of_true rfl fun _ _ => rfl
  | keyword hk =>
    have hword : kind.text.toList.all isWordChar = true := by
      cases kind <;> first | decide | cases hk
    have hcut := Lexeme.cut_word_eq_iff more hchars (List.all_eq_true.mp hword)
    rwa [Kind.ofWord_text hk] at hcut
  | name hne hword hkeyword =>
    have hname : Kind.ofWord text = .identifier := by
      rcases Kind.ofWord_eq_or text with hname | ⟨hk, htext⟩
      · exact hname
      · exact absurd htext.symm (hkeyword _ hk)
    rw [← hname]
    exact Lexeme.cut_word_eq_iff more hchars hword
  | number hne hdigits => exact Lexeme.cut_digits_eq_iff more hchars hdigits
  | illegal hblank hword hdigit hsign =>
    rw [String.toList_ofList] at hchars
    obtain ⟨rfl, rfl⟩ := List.cons.inj hchars
    rw [Lexeme.cut_of_illegal _ hword hdigit hsign]
    exact iff_of_true rfl fun _ _ => rfl

end Spells

end SayLang
