/-
Tokens are read back as they were written.

A token by itself is read back whatever its name, its string or its number is.  What
remains is that it is not read on into what follows: a closing quote must not be
followed by another quote, nor a word or a number by a character that continues it.
`Token.EndsBefore` says so for each kind of token.  Between most neighbours a blank
stands, and where none does, one of the two is a mark that nothing runs into, except
that a number would run into a dot.  In statements a dot stands between names only,
and this is what `Legible` asks of a list of tokens.
-/
import FilterSelect.Proofs.Sql.Lexer

namespace FilterSelect

namespace Sql

/-! ### What a token is read as -/

/-- What a string literal is read as. -/
def Dialect.stringLexeme (dialect : Dialect) (s : String) : Lexeme :=
  match dialect with
  | .sqlite => .string s
  | .mysql => .escapeString (escaping s.toList)
  | .postgres =>
    if (escaping s.toList).contains '\\' then .escapeString (escaping s.toList) else .string s

/-- Whether a lexeme is a string literal. -/
def Lexeme.isString : Lexeme → Bool
  | .string _ | .escapeString _ => true
  | _ => false

theorem Dialect.isString_stringLexeme (dialect : Dialect) (s : String) :
    (dialect.stringLexeme s).isString = true := by
  cases dialect with
  | sqlite => rfl
  | mysql => rfl
  | postgres =>
      unfold stringLexeme
      dsimp only
      split <;> rfl

/-- What a token is read as: names, strings and numbers with all their characters. -/
def Token.lexeme (dialect : Dialect) : Token → Lexeme
  | .keyword word => .keyword word
  | .mark m => .mark m
  | .identifier name => .name name
  | .string s => dialect.stringLexeme s
  | .number text => .number text

/-! ### Between quotes

The closing quote is the first one that is neither doubled nor escaped, so all that stands
before it belongs to the content.
-/

theorem readDoubled_doubling {quote : Char} (s : List Char) {follow : List Char}
    (h : ∀ c ∈ follow.head?, c ≠ quote) :
    readDoubled quote (doubling quote s ++ quote :: follow) = some (s, follow) := by
  induction s with
  | nil =>
      cases follow with
      | nil => simp [doubling, readDoubled]
      | cons c rest =>
          have hc : c ≠ quote := h c rfl
          simp [doubling, readDoubled, hc]
  | cons c s ih =>
      by_cases hc : c = quote
      · have hstep : doubling quote (c :: s) ++ quote :: follow =
            quote :: quote :: (doubling quote s ++ quote :: follow) := by
          simp [doubling, hc]
        rw [hstep, readDoubled, if_pos rfl, if_pos rfl, ih, hc]
        rfl
      · have hstep : doubling quote (c :: s) ++ quote :: follow =
            c :: (doubling quote s ++ quote :: follow) := by
          simp [doubling, hc]
        rw [hstep]
        cases hmore : doubling quote s ++ quote :: follow with
        | nil => simp at hmore
        | cons d more =>
            rw [readDoubled, if_neg hc, ← hmore, ih]
            rfl

theorem plain_of_escapeLetter? {c : Char} (h : escapeLetter? c = none) :
    c ≠ '\\' ∧ c ≠ '\'' := by
  constructor
  · rintro rfl
    cases h
  · rintro rfl
    cases h

theorem readEscaped_escaping (s : List Char) {follow : List Char}
    (h : ∀ c ∈ follow.head?, c ≠ '\'') :
    readEscaped (escaping s ++ '\'' :: follow) = some (escaping s, follow) := by
  induction s with
  | nil =>
      cases follow with
      | nil => simp [escaping, readEscaped]
      | cons c rest =>
          have hc : c ≠ '\'' := h c rfl
          simp [escaping, readEscaped, hc]
  | cons c s ih =>
      cases hc : escapeLetter? c with
      | some letter =>
          have hstep : escaping (c :: s) = '\\' :: letter :: escaping s := by
            simp [escaping, hc]
          rw [hstep, List.cons_append, List.cons_append, readEscaped, if_pos (Or.inl rfl), ih]
          rfl
      | none =>
          obtain ⟨hbackslash, hquote⟩ := plain_of_escapeLetter? hc
          have hstep : escaping (c :: s) = c :: escaping s := by
            simp [escaping, hc]
          rw [hstep, List.cons_append]
          cases hmore : escaping s ++ '\'' :: follow with
          | nil => simp at hmore
          | cons d more =>
              rw [readEscaped, if_neg (by simp [hbackslash, hquote]), if_neg hquote, ← hmore, ih]
              rfl

/-- A string that needs no escapes is written as it is, and has no quote in it. -/
theorem escaping_eq_self {s : List Char} (h : (escaping s).contains '\\' = false) :
    escaping s = s ∧ doubling '\'' s = s := by
  induction s with
  | nil => exact ⟨rfl, rfl⟩
  | cons c s ih =>
      cases hc : escapeLetter? c with
      | some letter => simp [escaping, hc] at h
      | none =>
          obtain ⟨-, hquote⟩ := plain_of_escapeLetter? hc
          have hstep : escaping (c :: s) = c :: escaping s := by
            simp [escaping, hc]
          rw [hstep, List.contains_cons, Bool.or_eq_false_iff] at h
          obtain ⟨hescaping, hdoubling⟩ := ih h.2
          refine ⟨by rw [hstep, hescaping], ?_⟩
          simpa [doubling, hquote] using hdoubling

/-! ### Numbers

A number goes on for as long as there are digits, so it must not be followed by a digit or by
the dot of a fraction.
-/

/-- Nothing, or a dot and at least one digit. -/
inductive Fraction : List Char → Prop
  | none : Fraction []
  | digits {f : Char} {fs : List Char} (hf : f.isDigit = true)
      (hfs : ∀ c ∈ fs, c.isDigit = true) : Fraction ('.' :: f :: fs)

/-- At least one digit, after an optional sign and before an optional fraction. -/
inductive Numeral : List Char → Prop
  | unsigned {d : Char} {ds fraction : List Char} (hd : d.isDigit = true)
      (hds : ∀ c ∈ ds, c.isDigit = true) (hfraction : Fraction fraction) :
      Numeral (d :: (ds ++ fraction))
  | negative {d : Char} {ds fraction : List Char} (hd : d.isDigit = true)
      (hds : ∀ c ∈ ds, c.isDigit = true) (hfraction : Fraction fraction) :
      Numeral ('-' :: d :: (ds ++ fraction))

theorem span_append {α : Type} {p : α → Bool} {taken follow : List α}
    (htaken : ∀ c ∈ taken, p c = true) (hfollow : ∀ c ∈ follow.head?, p c = false) :
    (taken ++ follow).takeWhile p = taken ∧ (taken ++ follow).dropWhile p = follow := by
  rw [List.takeWhile_append_of_pos htaken, List.dropWhile_append_of_pos htaken]
  cases follow with
  | nil => simp
  | cons c rest =>
      have hc : p c = false := hfollow c rfl
      simp [hc]

/-- Neither a digit nor the dot of a fraction. -/
def EndsNumber (s : List Char) : Prop :=
  ∀ c ∈ s.head?, c.isDigit = false ∧ c ≠ '.'

private theorem readFraction_append {fraction follow : List Char} (h : Fraction fraction)
    (hfollow : EndsNumber follow) : readFraction (fraction ++ follow) = (fraction, follow) := by
  cases h with
  | none =>
      cases follow with
      | nil => rfl
      | cons c rest =>
          have hc : c ≠ '.' := (hfollow c rfl).2
          simp [readFraction, hc]
  | digits hf hfs =>
      obtain ⟨htake, hdrop⟩ := span_append hfs fun c hc => (hfollow c hc).1
      simp [readFraction, hf, htake, hdrop]

private theorem readNumber_append {d : Char} {ds fraction follow : List Char}
    (hds : ∀ c ∈ ds, c.isDigit = true) (h : Fraction fraction) (hfollow : EndsNumber follow) :
    readNumber d (ds ++ fraction ++ follow) = (d :: (ds ++ fraction), follow) := by
  have hnodigit : ∀ c ∈ (fraction ++ follow).head?, c.isDigit = false := by
    intro c hc
    cases h with
    | none => exact (hfollow c hc).1
    | digits hf hfs =>
        cases hc
        rfl
  obtain ⟨htake, hdrop⟩ := span_append hds hnodigit
  rw [readNumber, List.append_assoc, htake, hdrop, readFraction_append h hfollow]
  rfl

/-! ### One token

The first character of a text says of which class its lexeme is.
-/

/-- A token of whose text every number is a numeral. -/
def Token.Readable : Token → Prop
  | .number text => Numeral text
  | _ => True

/-- A token is over where the text goes on like this. -/
def Token.EndsBefore (dialect : Dialect) : Token → List Char → Prop
  | .keyword _, s => ∀ c ∈ s.head?, isWordChar c = false
  | .identifier _, s => ∀ c ∈ s.head?, c ≠ dialect.identifierQuote
  | .string _, s => ∀ c ∈ s.head?, c ≠ '\''
  | .number _, s => EndsNumber s
  | .mark .less, s => ∀ c ∈ s.head?, c ≠ '=' ∧ c ≠ '>'
  | .mark .greater, s => ∀ c ∈ s.head?, c ≠ '='
  | .mark _, _ => True

variable {dialect : Dialect} {follow : List Char}

private theorem ne_of_class {p : Char → Bool} {c d : Char} (hc : p c = true) (hd : p d = false) :
    c ≠ d := by
  rintro rfl
  rw [hc] at hd
  cases hd

private theorem isBlank_of_class {p : Char → Bool} {c : Char} (hc : p c = true)
    (hp : [' ', '\t', '\n', '\r'].all fun d => !p d) : isBlank c = false := by
  simp only [List.all_cons, List.all_nil, Bool.and_eq_true, Bool.not_eq_true'] at hp
  obtain ⟨hspace, htab, hfeed, hreturn, -⟩ := hp
  simp [isBlank, ne_of_class hc hspace, ne_of_class hc htab, ne_of_class hc hfeed,
    ne_of_class hc hreturn]

theorem identifierQuote_ne (dialect : Dialect) {c : Char} (h : c ≠ '"' ∧ c ≠ '\x60') :
    c ≠ dialect.identifierQuote := by
  cases dialect with
  | postgres => exact h.1
  | sqlite => exact h.1
  | mysql => exact h.2

/-- A spelling is a word that no literal begins with, and it is the keyword's own. -/
theorem spelling_eq (word : Keyword) :
    ∃ c cs, word.spelling.toList = c :: cs ∧ c.isAlpha = true ∧ c.isDigit = false ∧ c ≠ 'E' ∧
      cs.all isWordChar = true ∧ Keyword.ofSpelling? (c :: cs) = some word := by
  cases word <;> exact ⟨_, _, rfl, rfl, rfl, by decide, rfl, rfl⟩

private theorem readLexeme_keyword {word : Keyword} {c : Char} {cs : List Char}
    (hspelling : word.spelling.toList = c :: cs)
    (h : ∀ c ∈ follow.head?, isWordChar c = false) :
    isBlank c = false ∧ readLexeme dialect c (cs ++ follow) = some (.keyword word, follow) := by
  obtain ⟨c', cs', heq, halpha, hdigit, hne, hword, hfound⟩ := spelling_eq word
  rw [hspelling] at heq
  cases heq
  obtain ⟨htake, hdrop⟩ := span_append (List.all_eq_true.mp hword) h
  have hname : c ≠ dialect.identifierQuote := by
    refine identifierQuote_ne dialect ⟨?_, ?_⟩
    · exact ne_of_class halpha rfl
    · exact ne_of_class halpha rfl
  have hquote : c ≠ '\'' := ne_of_class halpha rfl
  refine ⟨isBlank_of_class halpha rfl, ?_⟩
  unfold readLexeme
  rw [if_neg hname, if_neg hquote, if_neg (by simp [hne]), if_neg (by simp [hdigit]), if_pos halpha,
    htake, hdrop, hfound]
  rfl

private theorem readLexeme_identifier {name : String}
    (h : ∀ c ∈ follow.head?, c ≠ dialect.identifierQuote) :
    readLexeme dialect dialect.identifierQuote
      (doubling dialect.identifierQuote name.toList ++ dialect.identifierQuote :: follow) =
        some (.name name, follow) := by
  unfold readLexeme
  simp [readDoubled_doubling _ h]

private theorem readString_doubling {s : String} (h : ∀ c ∈ follow.head?, c ≠ '\'') :
    readString false (doubling '\'' s.toList ++ '\'' :: follow) = some (.string s, follow) := by
  simp [readString, readDoubled_doubling _ h]

private theorem readString_escaping {s : String} (h : ∀ c ∈ follow.head?, c ≠ '\'') :
    readString true (escaping s.toList ++ '\'' :: follow) =
      some (.escapeString (escaping s.toList), follow) := by
  simp [readString, readEscaped_escaping _ h]

private theorem readLexeme_number {text : List Char} (h : Numeral text)
    (hfollow : EndsNumber follow) :
    ∃ c rest, text ++ follow = c :: rest ∧ isBlank c = false ∧
      readLexeme dialect c rest = some (.number text, follow) := by
  cases h with
  | @unsigned d ds fraction hd hds hfraction =>
      have hname : d ≠ dialect.identifierQuote := by
        refine identifierQuote_ne dialect ⟨?_, ?_⟩
        · exact ne_of_class hd rfl
        · exact ne_of_class hd rfl
      have hquote : d ≠ '\'' := ne_of_class hd rfl
      have hletter : d ≠ 'E' := ne_of_class hd rfl
      refine ⟨d, ds ++ fraction ++ follow, rfl, isBlank_of_class hd rfl, ?_⟩
      unfold readLexeme
      rw [if_neg hname, if_neg hquote, if_neg (by simp [hletter]), if_pos hd]
      simp only [readNumber_append hds hfraction hfollow]
  | @negative d ds fraction hd hds hfraction =>
      refine ⟨'-', d :: (ds ++ fraction ++ follow), rfl, rfl, ?_⟩
      have hname : '-' ≠ dialect.identifierQuote := identifierQuote_ne dialect (by decide)
      unfold readLexeme
      rw [if_neg hname, if_neg (by decide), if_neg (by simp), if_neg (by decide),
        if_neg (by decide), if_pos rfl]
      simp only [if_pos hd, readNumber_append hds hfraction hfollow]

private theorem readLexeme_mark {m : Mark} (h : (Token.mark m).EndsBefore dialect follow) :
    ∃ c rest, m.spelling.toList ++ follow = c :: rest ∧ isBlank c = false ∧
      readLexeme dialect c rest = some (.mark m, follow) := by
  cases m with
  | less =>
      refine ⟨'<', follow, rfl, rfl, ?_⟩
      have hmark : readMark ('<' :: follow) = some (.less, follow) := by
        cases follow with
        | nil => rfl
        | cons c rest =>
            obtain ⟨hequal, hgreater⟩ := h c rfl
            simp [readMark, hequal, hgreater]
      unfold readLexeme
      cases dialect <;> simp [hmark, Dialect.identifierQuote]
  | greater =>
      refine ⟨'>', follow, rfl, rfl, ?_⟩
      have hmark : readMark ('>' :: follow) = some (.greater, follow) := by
        cases follow with
        | nil => rfl
        | cons c rest => simp [readMark, h c rfl]
      unfold readLexeme
      cases dialect <;> simp [hmark, Dialect.identifierQuote]
  | _ => cases dialect <;> exact ⟨_, _, rfl, rfl, rfl⟩

private theorem readLexeme_string {s : String} (h : ∀ c ∈ follow.head?, c ≠ '\'') :
    ∃ c rest, dialect.quoteString s ++ follow = c :: rest ∧ isBlank c = false ∧
      readLexeme dialect c rest = some (dialect.stringLexeme s, follow) := by
  cases dialect with
  | sqlite =>
      refine ⟨'\'', doubling '\'' s.toList ++ '\'' :: follow, by simp [Dialect.quoteString], rfl,
        ?_⟩
      exact readString_doubling h
  | mysql =>
      refine ⟨'\'', escaping s.toList ++ '\'' :: follow, by simp [Dialect.quoteString], rfl, ?_⟩
      exact readString_escaping h
  | postgres =>
      cases hescapes : (escaping s.toList).contains '\\' with
      | true =>
          refine ⟨'E', '\'' :: (escaping s.toList ++ '\'' :: follow), ?_, rfl, ?_⟩
          · rw [Dialect.quoteString, if_pos hescapes]
            simp
          · rw [Dialect.stringLexeme, if_pos hescapes]
            exact readString_escaping h
      | false =>
          obtain ⟨hself, hdoubling⟩ := escaping_eq_self hescapes
          have hplain : ¬ (escaping s.toList).contains '\\' = true := by
            rw [hescapes]
            exact Bool.false_ne_true
          refine ⟨'\'', s.toList ++ '\'' :: follow, ?_, rfl, ?_⟩
          · rw [Dialect.quoteString, if_neg hplain, hself]
            simp
          · rw [Dialect.stringLexeme, if_neg hplain]
            have hread := readString_doubling (s := s) h
            rw [hdoubling] at hread
            exact hread

/-- A token is read back, with nothing of what follows and nothing left over. -/
theorem lex_text {t : Token} (ht : t.Readable) (h : t.EndsBefore dialect follow) :
    lex dialect (t.text dialect ++ follow) =
      (lex dialect follow).map (t.lexeme dialect :: ·) := by
  have hread : ∃ c rest, t.text dialect ++ follow = c :: rest ∧ isBlank c = false ∧
      readLexeme dialect c rest = some (t.lexeme dialect, follow) := by
    cases t with
    | keyword word =>
        obtain ⟨c, cs, hspelling, -, -, -, -, -⟩ := spelling_eq word
        obtain ⟨hblank, hread⟩ := readLexeme_keyword hspelling h
        refine ⟨c, cs ++ follow, ?_, hblank, hread⟩
        rw [Token.text, hspelling]
        rfl
    | mark m => exact readLexeme_mark h
    | identifier name =>
        refine ⟨dialect.identifierQuote, _, ?_, ?_, readLexeme_identifier h⟩
        · simp [Token.text, Dialect.quoteName]
        · cases dialect <;> rfl
    | string s => exact readLexeme_string h
    | number text => exact readLexeme_number ht h
  obtain ⟨c, rest, htext, hblank, hlexeme⟩ := hread
  rw [htext]
  exact lex_cons hblank hlexeme

end Sql

end FilterSelect
