/-
Reading SQL text by the lexical rules of its dialect.

Whether a name or a string can get out of its quotes is a question about whoever
reads the text, so the reader is written down here: from the left, one lexeme after
another, each as long as it can be.  It knows nothing of how statements are made.

A name stands in the quotes of the dialect, with that quote doubled inside.  A
string stands in single quotes, doubled inside, or it has backslash escapes: always
in MySQL, and after an `E` in PostgreSQL.  Of a string with escapes the characters
between its quotes are kept as they are written.  Words are keywords, numbers have
an optional sign and an optional fraction, and anything else, such as the start of a
comment, makes the text unreadable.
-/
import FilterSelect.Sql.Token

namespace FilterSelect

namespace Sql

/-- What a text is made of. -/
inductive Lexeme where
  | keyword (word : Keyword)
  | mark (m : Mark)
  /-- A quoted name, without the quotes around it and with the quotes inside read. -/
  | name (s : String)
  /-- A quoted string, likewise. -/
  | string (s : String)
  /-- A string with escapes, as it is written between its quotes. -/
  | escapeString (written : List Char)
  | number (text : List Char)
deriving DecidableEq, Repr

/-! ### Reading one lexeme -/

/-- What is between quotes that are doubled inside, and what follows the closing quote. -/
def readDoubled (quote : Char) : List Char → Option (List Char × List Char)
  | [] => none
  | [c] => if c = quote then some ([], []) else none
  | c :: d :: rest =>
    if c = quote then
      if d = quote then
        (readDoubled quote rest).map fun (content, after) => (quote :: content, after)
      else some ([], d :: rest)
    else (readDoubled quote (d :: rest)).map fun (content, after) => (c :: content, after)

/-- What is written between single quotes with escapes, and what follows the closing quote. -/
def readEscaped : List Char → Option (List Char × List Char)
  | [] => none
  | [c] => if c = '\'' then some ([], []) else none
  | c :: d :: rest =>
    if c = '\\' ∨ c = '\'' ∧ d = '\'' then
      (readEscaped rest).map fun (written, after) => (c :: d :: written, after)
    else if c = '\'' then some ([], d :: rest)
    else (readEscaped (d :: rest)).map fun (written, after) => (c :: written, after)

/-- Whether a character continues a word. -/
def isWordChar (c : Char) : Bool :=
  c.isAlphanum || c = '_'

/-- All keywords. -/
def Keyword.all : List Keyword :=
  [.select, .from, .inner, .join, .as, .on, .where, .order, .by, .asc, .desc, .and, .or, .not,
    .like, .is, .null, .true, .false, .lower]

/-- The keyword of a spelling. -/
def Keyword.ofSpelling? (word : List Char) : Option Keyword :=
  all.find? fun k => k.spelling.toList = word

/-- A fraction, if the text goes on with one. -/
def readFraction : List Char → List Char × List Char
  | '.' :: d :: rest =>
    if d.isDigit then ('.' :: d :: rest.takeWhile Char.isDigit, rest.dropWhile Char.isDigit)
    else ([], '.' :: d :: rest)
  | s => ([], s)

/-- A number that begins with this digit. -/
def readNumber (d : Char) (rest : List Char) : List Char × List Char :=
  let (fraction, after) := readFraction (rest.dropWhile Char.isDigit)
  (d :: rest.takeWhile Char.isDigit ++ fraction, after)

/-- The longest mark in front. -/
def readMark : List Char → Option (Mark × List Char)
  | '<' :: '=' :: rest => some (.lessOrEqual, rest)
  | '<' :: '>' :: rest => some (.notEqual, rest)
  | '<' :: rest => some (.less, rest)
  | '>' :: '=' :: rest => some (.greaterOrEqual, rest)
  | '>' :: rest => some (.greater, rest)
  | '=' :: rest => some (.equal, rest)
  | '*' :: rest => some (.star, rest)
  | '.' :: rest => some (.dot, rest)
  | ',' :: rest => some (.comma, rest)
  | '(' :: rest => some (.leftParen, rest)
  | ')' :: rest => some (.rightParen, rest)
  | _ => none

/-- The string literal whose opening quote has been read. -/
def readString (escapes : Bool) (s : List Char) : Option (Lexeme × List Char) :=
  if escapes then (readEscaped s).map fun (written, after) => (.escapeString written, after)
  else (readDoubled '\'' s).map fun (content, after) => (.string (String.ofList content), after)

/-- The lexeme that begins with this character, and what follows it. -/
def readLexeme (dialect : Dialect) (c : Char) (rest : List Char) :
    Option (Lexeme × List Char) :=
  if c = dialect.identifierQuote then
    (readDoubled c rest).map fun (content, after) => (.name (String.ofList content), after)
  else if c = '\'' then readString (dialect = .mysql) rest
  else if dialect = .postgres ∧ c = 'E' ∧ rest.head? = some '\'' then readString true rest.tail
  else if c.isDigit then
    let (text, after) := readNumber c rest
    some (.number text, after)
  else if c.isAlpha then
    (Keyword.ofSpelling? (c :: rest.takeWhile isWordChar)).map fun k =>
      (.keyword k, rest.dropWhile isWordChar)
  else if c = '-' then
    match rest with
    | [] => none
    | d :: more =>
      if d.isDigit then
        let (text, after) := readNumber d more
        some (.number ('-' :: text), after)
      else none
  else (readMark (c :: rest)).map fun (m, after) => (.mark m, after)

/-! ### What is read is gone

Reading goes on behind a lexeme, and it comes to an end because no lexeme is empty.
-/

private theorem readDoubled_length {quote : Char} {s content after : List Char}
    (h : readDoubled quote s = some (content, after)) : after.length < s.length := by
  fun_induction readDoubled quote s generalizing content after with
  | case1 => cases h
  | case2 => simp_all
  | case3 => cases h
  | case4 rest ih =>
      obtain ⟨⟨content', after'⟩, hread, heq⟩ := Option.map_eq_some_iff.mp h
      cases heq
      have hlt := ih hread
      rw [List.length_cons, List.length_cons]
      omega
  | case5 => simp_all
  | case6 c d rest hc ih =>
      obtain ⟨⟨content', after'⟩, hread, heq⟩ := Option.map_eq_some_iff.mp h
      cases heq
      have hlt := ih hread
      rw [List.length_cons]
      omega

private theorem readEscaped_length {s written after : List Char}
    (h : readEscaped s = some (written, after)) : after.length < s.length := by
  fun_induction readEscaped s generalizing written after with
  | case1 => cases h
  | case2 => simp_all
  | case3 => cases h
  | case4 c d rest hc ih =>
      obtain ⟨⟨written', after'⟩, hread, heq⟩ := Option.map_eq_some_iff.mp h
      cases heq
      have hlt := ih hread
      rw [List.length_cons, List.length_cons]
      omega
  | case5 => simp_all
  | case6 c d rest hc hquote ih =>
      obtain ⟨⟨written', after'⟩, hread, heq⟩ := Option.map_eq_some_iff.mp h
      cases heq
      have hlt := ih hread
      rw [List.length_cons]
      omega

private theorem readFraction_length (s : List Char) : (readFraction s).2.length ≤ s.length := by
  unfold readFraction
  split
  · rename_i d rest
    split
    · have hle := (List.dropWhile_suffix (l := rest) Char.isDigit).length_le
      simp only [List.length_cons]
      omega
    · exact Nat.le_refl _
  · exact Nat.le_refl _

private theorem readNumber_length (d : Char) (rest : List Char) :
    (readNumber d rest).2.length ≤ rest.length := by
  have hdrop := (List.dropWhile_suffix (l := rest) Char.isDigit).length_le
  exact Nat.le_trans (readFraction_length _) hdrop

private theorem readMark_length {s after : List Char} {m : Mark}
    (h : readMark s = some (m, after)) :
    after.length < s.length := by
  unfold readMark at h
  split at h <;> cases h <;> simp only [List.length_cons] <;> omega

private theorem readString_length {escapes : Bool} {s after : List Char} {lexeme : Lexeme}
    (h : readString escapes s = some (lexeme, after)) : after.length < s.length := by
  unfold readString at h
  split at h
  · obtain ⟨⟨written, after'⟩, hread, heq⟩ := Option.map_eq_some_iff.mp h
    cases heq
    exact readEscaped_length hread
  · obtain ⟨⟨content, after'⟩, hread, heq⟩ := Option.map_eq_some_iff.mp h
    cases heq
    exact readDoubled_length hread

theorem readLexeme_length {dialect : Dialect} {c : Char} {rest after : List Char}
    {lexeme : Lexeme} (h : readLexeme dialect c rest = some (lexeme, after)) :
    after.length ≤ rest.length := by
  unfold readLexeme at h
  split at h
  · obtain ⟨⟨content, after'⟩, hread, heq⟩ := Option.map_eq_some_iff.mp h
    cases heq
    exact Nat.le_of_lt (readDoubled_length hread)
  split at h
  · exact Nat.le_of_lt (readString_length h)
  split at h
  · have hlt := readString_length h
    have htail : rest.tail.length ≤ rest.length := by
      rw [List.length_tail]
      omega
    omega
  split at h
  · cases h
    exact readNumber_length c rest
  split at h
  · obtain ⟨k, -, heq⟩ := Option.map_eq_some_iff.mp h
    cases heq
    exact (List.dropWhile_suffix isWordChar).length_le
  split at h
  · cases rest with
    | nil => cases h
    | cons d more =>
        dsimp only at h
        split at h
        · cases h
          exact Nat.le_succ_of_le (readNumber_length d more)
        · cases h
  · obtain ⟨⟨m, after'⟩, hread, heq⟩ := Option.map_eq_some_iff.mp h
    cases heq
    exact Nat.le_of_lt_succ (readMark_length hread)

/-! ### Reading a whole text -/

/-- Whether a character only separates lexemes. -/
def isBlank (c : Char) : Bool :=
  c = ' ' || c = '\t' || c = '\n' || c = '\r'

/-- The lexemes of a text, if all of it can be read. -/
def lex (dialect : Dialect) : List Char → Option (List Lexeme)
  | [] => some []
  | c :: rest =>
    if isBlank c then lex dialect rest
    else
      match _hread : readLexeme dialect c rest with
      | none => none
      | some (lexeme, after) => (lex dialect after).map (lexeme :: ·)
termination_by s => s.length
decreasing_by
  · simp
  · exact Nat.lt_succ_of_le (readLexeme_length _hread)

@[simp] theorem lex_nil (dialect : Dialect) : lex dialect [] = some [] := by
  rw [lex]

theorem lex_blank (dialect : Dialect) (s : List Char) : lex dialect (' ' :: s) = lex dialect s := by
  rw [lex]
  rfl

theorem lex_cons {dialect : Dialect} {c : Char} {rest after : List Char} {lexeme : Lexeme}
    (hc : isBlank c = false) (h : readLexeme dialect c rest = some (lexeme, after)) :
    lex dialect (c :: rest) = (lex dialect after).map (lexeme :: ·) := by
  rw [lex, hc, if_neg Bool.false_ne_true]
  split
  · rename_i hnone
    rw [h] at hnone
    cases hnone
  · rename_i lexeme' after' hsome
    rw [h] at hsome
    cases hsome
    rfl

end Sql

end FilterSelect
