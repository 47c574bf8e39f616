/-
What folding does to matching.

A match that is blind to case folds the column and the pattern and matches the one
against the other.  So it must match whatever an exact match does, and it cannot tell
apart what is folded to the same.  The second is plain: it sees nothing but the folded
text and the folded pattern.  The first is not, because folding a pattern changes what
its characters say.  A fold need not be one-to-one, and it may take a character that
stands for itself to a wildcard.

A pattern is therefore read as a list of pieces (`Rules.pieces?`), and the pieces of the
folded pattern are compared with those of the pattern itself.  Each is one that accepts
at least the folded character (`Piece.Covers`), and from there it is an induction on the
match.  That the pieces stay in step needs the assumption about the escape character: if
a fold hid it, or made one of another character, the rest of the pattern would be read
differently.

The rules of matching are those of SQL: a percent sign is any sequence of characters, an
underscore any one, and any other character itself, as is one after the escape character.
Databases differ in which character that is, and in what it is at the end of a pattern.
-/
import FilterSelect.Proofs.Rows.Semantics
import FilterSelect.Select.Sql

namespace FilterSelect

open Sql (Token)

namespace Like

/-! ### Patterns -/

/-- What a pattern has at one place. -/
inductive Piece where
  /-- Any characters, or none. -/
  | sequence
  /-- Any one character. -/
  | one
  /-- This character. -/
  | char (c : Char)
deriving DecidableEq, Repr

/-- How a database reads patterns. -/
structure Rules where
  /-- The character after which any other stands for itself. -/
  escape : Option Char
  /-- Whether an escape character at the end stands for itself; otherwise it is refused. -/
  allowsLast : Bool
deriving DecidableEq, Repr

/-- What a character is that is not escaped. -/
def Piece.ofChar (c : Char) : Piece :=
  if c = '%' then .sequence else if c = '_' then .one else .char c

/-- The pieces of a pattern. -/
def Rules.pieces? (rules : Rules) : List Char → Option (List Piece)
  | [] => some []
  | [c] =>
    if rules.escape = some c then
      if rules.allowsLast then some [.char c] else none
    else some [.ofChar c]
  | c :: next :: rest =>
    if rules.escape = some c then (rules.pieces? rest).map (.char next :: ·)
    else (rules.pieces? (next :: rest)).map (.ofChar c :: ·)

/-! ### Matching -/

/-- Pieces match a text if it consists of parts that they accept, one after another. -/
inductive Matches : List Piece → List Char → Prop
  | nil : Matches [] []
  | sequence {pieces : List Piece} {text : List Char} (skipped : List Char)
      (h : Matches pieces text) : Matches (.sequence :: pieces) (skipped ++ text)
  | one {pieces : List Piece} {text : List Char} (c : Char) (h : Matches pieces text) :
      Matches (.one :: pieces) (c :: text)
  | char {pieces : List Piece} {text : List Char} (c : Char) (h : Matches pieces text) :
      Matches (.char c :: pieces) (c :: text)

/-- Whether pieces match a text: a sequence is tried at every length. -/
def accepts : List Piece → List Char → Bool
  | [], text => text.isEmpty
  | .sequence :: pieces, text => text.tails.any (accepts pieces)
  | .one :: pieces, text =>
    match text with
    | [] => false
    | _ :: rest => accepts pieces rest
  | .char c :: pieces, text =>
    match text with
    | [] => false
    | d :: rest => d = c && accepts pieces rest

theorem accepts_iff {pieces : List Piece} {text : List Char} :
    accepts pieces text = true ↔ Matches pieces text := by
  constructor
  · intro h
    induction pieces generalizing text with
    | nil =>
        rw [accepts, List.isEmpty_iff] at h
        subst h
        exact .nil
    | cons piece pieces ih =>
        cases piece with
        | sequence =>
            rw [accepts, List.any_eq_true] at h
            obtain ⟨rest, hrest, haccepts⟩ := h
            obtain ⟨skipped, rfl⟩ := (List.mem_tails _ _).mp hrest
            exact .sequence skipped (ih haccepts)
        | one =>
            cases text with
            | nil => cases h
            | cons d rest => exact .one d (ih h)
        | char c =>
            cases text with
            | nil => cases h
            | cons d rest =>
                simp only [accepts, Bool.and_eq_true, decide_eq_true_eq] at h
                obtain ⟨rfl, hrest⟩ := h
                exact .char d (ih hrest)
  · intro h
    induction h with
    | nil => rfl
    | sequence skipped _ ih =>
        rw [accepts, List.any_eq_true]
        exact ⟨_, (List.mem_tails _ _).mpr (List.suffix_append _ _), ih⟩
    | one c _ ih => exact ih
    | char c _ ih => simpa [accepts] using ih

instance (pieces : List Piece) (text : List Char) : Decidable (Matches pieces text) :=
  decidable_of_iff _ accepts_iff

/-- What matching a text against a pattern comes to.  It is unknown if one of them is NULL. -/
def Rules.truth (rules : Rules) : Option (List Char) → Option (List Char) → Truth
  | some text, some pattern =>
    match rules.pieces? pattern with
    | some pieces => if Matches pieces text then .holds else .fails
    | none => .unknown
  | _, _ => .unknown

/-! ### Folding

A folded pattern is read piece by piece along with the pattern itself.  A character that is
folded to a wildcard accepts more than before, and a wildcard stays what it is.
-/

/--
A fold of characters that leaves alone what a pattern is made of: it may take other
characters to a wildcard, but none to the escape character.
-/
structure Rules.Folds (rules : Rules) (fold : Char → Char) : Prop where
  percent : fold '%' = '%'
  underscore : fold '_' = '_'
  escape : ∀ c, rules.escape = some (fold c) ↔ rules.escape = some c

/-- A piece accepts the folded character if another accepts the character. -/
inductive Piece.Covers (fold : Char → Char) : Piece → Piece → Prop
  | sequence : Covers fold .sequence .sequence
  | one : Covers fold .one .one
  | char (c : Char) : Covers fold (.char c) (.char (fold c))
  | charSequence (c : Char) : Covers fold (.char c) .sequence
  | charOne (c : Char) : Covers fold (.char c) .one

variable {rules : Rules} {fold : Char → Char}

private theorem Rules.Folds.covers_ofChar (h : rules.Folds fold) (c : Char) :
    (Piece.ofChar c).Covers fold (.ofChar (fold c)) := by
  unfold Piece.ofChar
  by_cases hpercent : c = '%'
  · rw [if_pos hpercent, hpercent, h.percent]
    exact .sequence
  by_cases hunderscore : c = '_'
  · rw [if_neg hpercent, if_pos hunderscore, hunderscore, h.underscore]
    exact .one
  rw [if_neg hpercent, if_neg hunderscore]
  split
  · exact .charSequence c
  · split
    · exact .charOne c
    · exact .char c

theorem Rules.Folds.exists_pieces? (h : rules.Folds fold) {pattern : List Char}
    {pieces : List Piece} (hpieces : rules.pieces? pattern = some pieces) :
    ∃ folded, rules.pieces? (pattern.map fold) = some folded ∧
      List.Forall₂ (Piece.Covers fold) pieces folded := by
  induction pattern using Rules.pieces?.induct rules generalizing pieces with
  | case1 =>
      cases hpieces
      exact ⟨[], rfl, .nil⟩
  | case2 c hescape hlast =>
      simp only [pieces?, hescape, hlast, if_true, Option.some.injEq] at hpieces
      subst hpieces
      refine ⟨[.char (fold c)], ?_, .cons (.char c) .nil⟩
      simp only [List.map_cons, List.map_nil, pieces?, (h.escape c).mpr hescape, hlast, if_true]
  | case3 c hescape hlast => simp [pieces?, hescape, hlast] at hpieces
  | case4 c hescape =>
      simp only [pieces?, hescape, if_false, Option.some.injEq] at hpieces
      subst hpieces
      refine ⟨[.ofChar (fold c)], ?_, .cons (h.covers_ofChar c) .nil⟩
      simp only [List.map_cons, List.map_nil, pieces?, mt (h.escape c).mp hescape, if_false]
  | case5 c next rest hescape ih =>
      simp only [pieces?, hescape, if_true, Option.map_eq_some_iff] at hpieces
      obtain ⟨others, hrest, rfl⟩ := hpieces
      obtain ⟨folded, hfolded, hcovers⟩ := ih hrest
      refine ⟨.char (fold next) :: folded, ?_, .cons (.char next) hcovers⟩
      simp only [List.map_cons, pieces?, (h.escape c).mpr hescape, if_true, hfolded,
        Option.map_some]
  | case6 c next rest hescape ih =>
      simp only [pieces?, hescape, if_false, Option.map_eq_some_iff] at hpieces
      obtain ⟨others, hrest, rfl⟩ := hpieces
      obtain ⟨folded, hfolded, hcovers⟩ := ih hrest
      refine ⟨.ofChar (fold c) :: folded, ?_, .cons (h.covers_ofChar c) hcovers⟩
      rw [List.map_cons] at hfolded
      simp only [List.map_cons, pieces?, mt (h.escape c).mp hescape, if_false, hfolded,
        Option.map_some]

theorem Matches.of_covers {pieces folded : List Piece} {text : List Char} (h : Matches pieces text)
    (hcovers : List.Forall₂ (Piece.Covers fold) pieces folded) :
    Matches folded (text.map fold) := by
  induction h generalizing folded with
  | nil =>
      cases hcovers
      exact .nil
  | sequence skipped _ ih =>
      obtain _ | ⟨hpiece, hrest⟩ := hcovers
      cases hpiece
      rw [List.map_append]
      exact .sequence _ (ih hrest)
  | one c _ ih =>
      obtain _ | ⟨hpiece, hrest⟩ := hcovers
      cases hpiece
      exact .one _ (ih hrest)
  | char c _ ih =>
      obtain _ | ⟨hpiece, hrest⟩ := hcovers
      cases hpiece with
      | char => exact .char _ (ih hrest)
      | charSequence => exact .sequence [_] (ih hrest)
      | charOne => exact .one _ (ih hrest)

/-- What a text matches, it matches when both are folded. -/
theorem Rules.Folds.truth_map (h : rules.Folds fold) {text pattern : Option (List Char)}
    (htruth : rules.truth text pattern = .holds) :
    rules.truth (text.map (List.map fold)) (pattern.map (List.map fold)) = .holds := by
  cases text with
  | none => cases htruth
  | some text =>
      cases pattern with
      | none => cases htruth
      | some pattern =>
          cases hpieces : rules.pieces? pattern with
          | none => simp [truth, hpieces] at htruth
          | some pieces =>
              have hmatches : Matches pieces text := by simpa [truth, hpieces] using htruth
              obtain ⟨folded, hfolded, hcovers⟩ := h.exists_pieces? hpieces
              simp [truth, hfolded, hmatches.of_covers hcovers]

/-! ### What is matched

Both kinds of LIKE are written with two sides, and a side says what text it has.
-/

/-- What stands on a side of LIKE. -/
inductive Side where
  | column (c : ColumnRef)
  | string (s : String)
  | lower (inner : Side)

/-- The tokens of a side. -/
def Side.tokens : Side → List Token
  | .column c => c.tokens
  | .string s => [.string s]
  | .lower inner => Condition.folded inner.tokens

variable {Cell : Type}

/-- The text of a side, where LOWER folds each character; none for NULL. -/
def Side.text? (fold : Char → Char) (text? : Cell → Option (List Char))
    (env : Environment Cell) : Side → Option (List Char)
  | .column c => (env.cell? c).bind text?
  | .string s => some s.toList
  | .lower inner => (inner.text? fold text? env).map (List.map fold)

private theorem Side.like_notMem_tokens (side : Side) : Token.keyword .like ∉ side.tokens := by
  induction side with
  | column c => simp [tokens, ColumnRef.tokens]
  | string s => simp [tokens]
  | lower inner ih => simp [tokens, Condition.folded, Condition.enclosed, ih]

private theorem Side.tokens_injective {side side' : Side} (h : side.tokens = side'.tokens) :
    side = side' := by
  induction side generalizing side' with
  | column c =>
      cases side' with
      | column c' =>
          obtain ⟨qualifier, name⟩ := c
          obtain ⟨qualifier', name'⟩ := c'
          simpa [tokens, ColumnRef.tokens] using h
      | _ => simp [tokens, ColumnRef.tokens, Condition.folded] at h
  | string s =>
      cases side' with
      | string s' => simpa [tokens] using h
      | _ => simp [tokens, ColumnRef.tokens, Condition.folded] at h
  | lower inner ih =>
      cases side' with
      | lower inner' =>
          simp only [tokens, Condition.folded, Condition.enclosed, if_true, List.cons_append,
            List.cons.injEq, true_and, List.append_cancel_right_eq] at h
          rw [ih h]
      | _ => simp [tokens, ColumnRef.tokens, Condition.folded] at h

theorem Side.eq_of_tokens {left right left' right' : Side}
    (h : left.tokens ++ .keyword .like :: right.tokens =
      left'.tokens ++ .keyword .like :: right'.tokens) : left = left' ∧ right = right' := by
  obtain ⟨hleft, -, hright⟩ :=
    (List.append_cons_inj_of_notMem left.like_notMem_tokens right.like_notMem_tokens).mp h
  exact ⟨tokens_injective hleft, tokens_injective hright⟩

end Like

open Like

variable {Cell : Type} {db : Database Cell} {rules : Like.Rules} {fold : Char → Char}
  {text? : Cell → Option (List Char)}

/--
A database matches texts by rules of patterns: what is written with LIKE between two sides
comes to the match of their texts.
-/
structure Database.Matching (db : Database Cell) (rules : Like.Rules) (fold : Char → Char)
    (text? : Cell → Option (List Char)) : Prop where
  ask : ∀ env column test (left right : Side),
    (test.on column).tokens = left.tokens ++ .keyword .like :: right.tokens →
    db.ask env column test = rules.truth (left.text? fold text? env) (right.text? fold text? env)

theorem Database.Matching.truth_like (h : db.Matching rules fold text?) (env : Environment Cell)
    (column : ColumnRef) (pattern : String) :
    (Condition.like column pattern).truth db env =
      rules.truth ((env.cell? column).bind text?) (some pattern.toList) :=
  h.ask env column (.like pattern) (.column column) (.string pattern) rfl

theorem Database.Matching.truth_likeFolded (h : db.Matching rules fold text?)
    (env : Environment Cell) (column : ColumnRef) (pattern : String) :
    (Condition.likeFolded column pattern).truth db env =
      rules.truth (((env.cell? column).bind text?).map (List.map fold))
        (some (pattern.toList.map fold)) :=
  h.ask env column (.likeFolded pattern) (.lower (.column column)) (.lower (.string pattern)) rfl

/-! ### Databases that match -/

/-- How a dialect reads patterns where no other escape character is chosen. -/
def Sql.Dialect.likeRules : Sql.Dialect → Like.Rules
  | .postgres => ⟨some '\\', false⟩
  | .sqlite => ⟨none, false⟩
  | .mysql => ⟨some '\\', true⟩

private theorem toLower_eq_backslash (c : Char) : '\\' = c.toLower ↔ '\\' = c := by
  have hrange : ∀ n : UInt32, 65 ≤ n → n ≤ 90 → 92 ≠ n + 32 := by
    intro n hlow hhigh heq
    have hn := congrArg UInt32.toNat heq
    rw [UInt32.le_iff_toNat_le] at hlow hhigh
    simp at hn hlow hhigh
    omega
  unfold Char.toLower
  split
  · rename_i h
    constructor
    · intro heq
      exact absurd (congrArg Char.val heq) (hrange _ h.1 h.2)
    · rintro rfl
      simp at h
  · rfl

/-- Folding the capitals of the alphabet is a fold for the rules of every dialect. -/
theorem Sql.Dialect.folds_toLower (dialect : Sql.Dialect) :
    dialect.likeRules.Folds Char.toLower where
  percent := rfl
  underscore := rfl
  escape := by
    intro c
    cases dialect <;> simp [likeRules, toLower_eq_backslash]

/-- A database that holds texts and NULLs, matches them by rules and knows nothing else. -/
def Like.Rules.database (rules : Like.Rules) (fold : Char → Char) :
    Database (Option (List Char)) where
  rows _ := 0
  equal _ _ := .unknown
  passes test cell :=
    match test with
    | .like pattern => rules.truth cell (some pattern.toList)
    | .likeFolded pattern =>
      rules.truth (cell.map (List.map fold)) (some (pattern.toList.map fold))
    | _ => .unknown

theorem Like.Rules.matching_database (rules : Like.Rules) (fold : Char → Char) :
    (rules.database fold).Matching rules fold id where
  ask := by
    intro env column test left right h
    have hlike : Token.keyword .like ∈ (test.on column).tokens := by
      rw [h]
      exact List.mem_append_right _ (List.mem_cons_self ..)
    cases test with
    | compare comparator value =>
        have hvalue : value.token ≠ .keyword .like := by
          cases value with
          | bool b => cases b <;> simp [Value.token]
          | _ => simp [Value.token]
        simp [Test.on, Condition.tokens, ColumnRef.tokens, hvalue.symm] at hlike
    | isNull => simp [Test.on, Condition.tokens, ColumnRef.tokens] at hlike
    | isNotNull => simp [Test.on, Condition.tokens, ColumnRef.tokens] at hlike
    | like pattern =>
        have hsides : left = .column column ∧ right = .string pattern := Side.eq_of_tokens h.symm
        obtain ⟨rfl, rfl⟩ := hsides
        rw [Database.ask, Side.text?, Side.text?]
        cases env.cell? column <;> rfl
    | likeFolded pattern =>
        have hsides : left = .lower (.column column) ∧ right = .lower (.string pattern) :=
          Side.eq_of_tokens h.symm
        obtain ⟨rfl, rfl⟩ := hsides
        rw [Database.ask, Side.text?, Side.text?, Side.text?, Side.text?]
        cases env.cell? column <;> rfl

/-! ### Blindness to case -/

/--
**A match that is blind to case misses nothing and sees only what folding leaves.**

Whatever LOWER makes of characters, as long as wildcards and the escape character stay what
they are: for a column and a pattern, `like` and `ilike` both make a condition, and that of
`ilike` holds wherever that of `like` does.  What it comes to does not change if the text
in the column, or the pattern, is replaced by one that is folded to the same.
-/
theorem Comparison.truth_ilike (hdb : db.Matching rules fold text?) (hfold : rules.Folds fold)
    (field : Field) (pattern : String) :
    ∃ exact folded, Comparison.like.build field (some (.string pattern)) = .ok exact ∧
      Comparison.ilike.build field (some (.string pattern)) = .ok folded ∧
      (∀ env, exact.truth db env = .holds → folded.truth db env = .holds) ∧
      (∀ env env' : Environment Cell,
        ((env.cell? field.toColumnRef).bind text?).map (List.map fold) =
          ((env'.cell? field.toColumnRef).bind text?).map (List.map fold) →
        folded.truth db env = folded.truth db env') ∧
      ∀ pattern' : String, pattern'.toList.map fold = pattern.toList.map fold →
        ∃ folded', Comparison.ilike.build field (some (.string pattern')) = .ok folded' ∧
          ∀ env, folded'.truth db env = folded.truth db env := by
  refine ⟨_, _, rfl, rfl, ?_, ?_, ?_⟩
  · intro env hholds
    rw [hdb.truth_like] at hholds
    rw [hdb.truth_likeFolded]
    exact hfold.truth_map hholds
  · intro env env' htext
    rw [hdb.truth_likeFolded, hdb.truth_likeFolded, htext]
  · intro pattern' hpattern
    refine ⟨_, rfl, ?_⟩
    intro env
    rw [hdb.truth_likeFolded, hdb.truth_likeFolded, hpattern]

/-- Escaped and unescaped wildcards, folded as PostgreSQL folds the letters of the alphabet. -/
theorem Comparison.truth_ilike_escaped :
    let rules := Sql.Dialect.postgres.likeRules
    let db := rules.database Char.toLower
    let field : Field := ⟨⟨"users", "name"⟩, .string⟩
    let holding (text : String) : Environment (Option (List Char)) :=
      [("users", fun _ => some text.toList)]
    db.Matching rules Char.toLower id ∧ rules.Folds Char.toLower ∧
    ∃ exact folded, Comparison.like.build field (some (.string "\\%_T%")) = .ok exact ∧
      Comparison.ilike.build field (some (.string "\\%_T%")) = .ok folded ∧
      exact.truth db (holding "% The") = .holds ∧ exact.truth db (holding "% the") = .fails ∧
      folded.truth db (holding "% the") = .holds := by
  intro rules db field holding
  have hdb : db.Matching rules Char.toLower id := rules.matching_database Char.toLower
  have hfold : rules.Folds Char.toLower := Sql.Dialect.postgres.folds_toLower
  refine ⟨hdb, hfold, ?_⟩
  obtain ⟨exact, folded, hexact, hfolded, hholds, htext, -⟩ :=
    Comparison.truth_ilike hdb hfold field "\\%_T%"
  refine ⟨exact, folded, hexact, hfolded, ?_⟩
  cases hexact
  have hcapital :
      (Condition.like field.toColumnRef "\\%_T%").truth db (holding "% The") = .holds := by
    decide
  refine ⟨hcapital, by decide, ?_⟩
  rw [← htext (holding "% The") (holding "% the") rfl]
  exact hholds _ hcapital

end FilterSelect
