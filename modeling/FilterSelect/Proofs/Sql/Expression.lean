/-
Reading conditions by the precedence of SQL.

Comparisons, LIKE and IS bind tighter than NOT, NOT tighter than AND, and AND tighter
than OR; AND and OR associate to the left, and parentheses override all of this.  So
a condition is taken apart at the last OR outside of parentheses.  If there is none, it
is at the last such AND, and if there is none of those either, a NOT in front belongs
to all of the rest, and parentheses around the whole belong to nothing else.

The reader is that rule and knows nothing of who writes the parentheses.  It works on
lexemes, so a keyword or a parenthesis within a name or a string is none to it.
-/
import FilterSelect.Proofs.Sql.Lexer

namespace FilterSelect

namespace Sql

/-- What stands on a side of a comparison. -/
inductive Operand where
  | column (qualifier name : String)
  /-- A string, a number, TRUE, FALSE or NULL. -/
  | literal (lexeme : Lexeme)
  | lower (inner : Operand)
deriving DecidableEq

/-- What a condition is read as. -/
inductive Expression where
  | compare (comparator : Mark) (left right : Operand)
  | like (left right : Operand)
  | isNull (operand : Operand)
  | isNotNull (operand : Operand)
  | not (inner : Expression)
  | and (left right : Expression)
  | or (left right : Expression)
deriving DecidableEq

/-! ### Comparisons -/

/-- Whether a lexeme is a literal. -/
def Lexeme.isLiteral : Lexeme → Bool
  | .string _ | .escapeString _ | .number _ => true
  | .keyword word => word = .true || word = .false || word = .null
  | _ => false

/-- Whether a mark compares what stands to its sides. -/
def Mark.isComparator (m : Mark) : Bool :=
  [equal, notEqual, less, lessOrEqual, greater, greaterOrEqual].contains m

/-- The operand in front, and what follows it. -/
def readOperand : List Lexeme → Option (Operand × List Lexeme)
  | .name qualifier :: .mark .dot :: .name name :: rest => some (.column qualifier name, rest)
  | .keyword .lower :: .mark .leftParen :: rest =>
    match readOperand rest with
    | some (inner, .mark .rightParen :: after) => some (.lower inner, after)
    | _ => none
  | lexeme :: rest => if lexeme.isLiteral then some (.literal lexeme, rest) else none
  | [] => none

/-- A whole comparison: an operand with all that is said of it. -/
def readComparison (s : List Lexeme) : Option Expression := do
  let (operand, rest) ← readOperand s
  match rest with
  | [.keyword .is, .keyword .null] => some (.isNull operand)
  | [.keyword .is, .keyword .not, .keyword .null] => some (.isNotNull operand)
  | .keyword .like :: rest =>
    let (pattern, after) ← readOperand rest
    if after = [] then some (.like operand pattern) else none
  | .mark m :: rest =>
    let (value, after) ← readOperand rest
    if m.isComparator ∧ after = [] then some (.compare m operand value) else none
  | _ => none

theorem readOperand_literal {lexeme : Lexeme} (h : lexeme.isLiteral = true) (rest : List Lexeme) :
    readOperand (lexeme :: rest) = some (.literal lexeme, rest) := by
  cases lexeme with
  | mark m => cases h
  | name s => cases h
  | keyword word =>
      cases word
      all_goals first
        | rfl
        | cases h
  | _ => rfl

theorem readOperand_lower {inner : Operand} {rest after : List Lexeme}
    (h : readOperand rest = some (inner, .mark .rightParen :: after)) :
    readOperand (.keyword .lower :: .mark .leftParen :: rest) = some (.lower inner, after) := by
  rw [readOperand, h]

theorem readComparison_compare {s rest : List Lexeme} {m : Mark} {x y : Operand}
    (hm : m.isComparator = true) (hx : readOperand s = some (x, .mark m :: rest))
    (hy : readOperand rest = some (y, [])) : readComparison s = some (.compare m x y) := by
  simp [readComparison, hx, hy, hm]

theorem readComparison_like {s rest : List Lexeme} {x y : Operand}
    (hx : readOperand s = some (x, .keyword .like :: rest))
    (hy : readOperand rest = some (y, [])) : readComparison s = some (.like x y) := by
  simp [readComparison, hx, hy]

/-! ### Connectives

A condition is taken apart where it binds least: at the last OR outside of parentheses, or else
at the last AND.
-/

/-- How many parentheses are open after a lexeme. -/
def depthAfter (depth : Nat) : Lexeme → Nat
  | .mark .leftParen => depth + 1
  | .mark .rightParen => depth - 1
  | _ => depth

/-- What stands before and after the last occurrence of a word outside of parentheses. -/
def splitLast? (word : Keyword) (depth : Nat) : List Lexeme → Option (List Lexeme × List Lexeme)
  | [] => none
  | lexeme :: rest =>
    match splitLast? word (depthAfter depth lexeme) rest with
    | some (before, after) => some (lexeme :: before, after)
    | none => if depth = 0 ∧ lexeme = .keyword word then some ([], rest) else none

/-- What stands after a NOT in front. -/
def afterNot? : List Lexeme → Option (List Lexeme)
  | .keyword .not :: rest => some rest
  | _ => none

/-- What stands between a first and a last parenthesis. -/
def inside? : List Lexeme → Option (List Lexeme)
  | .mark .leftParen :: rest =>
    if rest.getLast? = some (.mark .rightParen) then some rest.dropLast else none
  | _ => none

private theorem splitLast?_length {word : Keyword} {depth : Nat} {s before after : List Lexeme}
    (h : splitLast? word depth s = some (before, after)) :
    before.length + after.length < s.length := by
  induction s generalizing depth before with
  | nil => cases h
  | cons lexeme rest ih =>
      rw [splitLast?] at h
      cases hrest : splitLast? word (depthAfter depth lexeme) rest with
      | none =>
          rw [hrest] at h
          obtain ⟨-, heq⟩ := Option.ite_none_right_eq_some.mp h
          cases heq
          simp
      | some split =>
          obtain ⟨before', after'⟩ := split
          rw [hrest] at h
          cases h
          have hlt := ih hrest
          simp only [List.length_cons]
          omega

private theorem afterNot?_length {s rest : List Lexeme} (h : afterNot? s = some rest) :
    rest.length < s.length := by
  unfold afterNot? at h
  split at h <;> cases h
  exact Nat.lt_succ_self _

private theorem inside?_length {s inner : List Lexeme} (h : inside? s = some inner) :
    inner.length < s.length := by
  unfold inside? at h
  split at h
  · obtain ⟨-, heq⟩ := Option.ite_none_right_eq_some.mp h
    cases heq
    simp only [List.length_dropLast, List.length_cons]
    omega
  · cases h

/-- The expression that a list of lexemes is read as, if all of it can be read. -/
def readCondition (s : List Lexeme) : Option Expression :=
  match _hor : splitLast? .or 0 s with
  | some (left, right) => do
    let first ← readCondition left
    let second ← readCondition right
    some (.or first second)
  | none =>
    match _hand : splitLast? .and 0 s with
    | some (left, right) => do
      let first ← readCondition left
      let second ← readCondition right
      some (.and first second)
    | none =>
      match _hnot : afterNot? s with
      | some rest => (readCondition rest).map .not
      | none =>
        match _hinside : inside? s with
        | some inner => readCondition inner
        | none => readComparison s
termination_by s.length
decreasing_by
  · have hlt := splitLast?_length _hor
    omega
  · have hlt := splitLast?_length _hor
    omega
  · have hlt := splitLast?_length _hand
    omega
  · have hlt := splitLast?_length _hand
    omega
  · exact afterNot?_length _hnot
  · exact inside?_length _hinside

/-! ### Connectives outside of parentheses

What stands inside of matching parentheses is passed over as a whole.  So of a text only the
words outside of its parentheses have to be known.
-/

/-- Parentheses match, and of the words that are listed none stands outside of them. -/
inductive Nested : List Keyword → List Lexeme → Prop
  | nil {words : List Keyword} : Nested words []
  | cons {words : List Keyword} {lexeme : Lexeme} {rest : List Lexeme}
      (hopen : lexeme ≠ .mark .leftParen) (hclose : lexeme ≠ .mark .rightParen)
      (hwords : ∀ word ∈ words, lexeme ≠ .keyword word) (hrest : Nested words rest) :
      Nested words (lexeme :: rest)
  | group {words : List Keyword} {inner rest : List Lexeme} (hinner : Nested [] inner)
      (hrest : Nested words rest) :
      Nested words (.mark .leftParen :: (inner ++ .mark .rightParen :: rest))

namespace Nested

variable {words : List Keyword} {s t : List Lexeme}

theorem append (h : Nested words s) (ht : Nested words t) : Nested words (s ++ t) := by
  induction h with
  | nil => exact ht
  | cons hopen hclose hwords _ ih => exact .cons hopen hclose hwords (ih ht)
  | @group words inner rest hinner _ _ ih =>
      rw [List.cons_append, List.append_assoc]
      exact .group hinner (ih ht)

theorem keyword {word : Keyword} (hword : word ∉ words) (h : Nested words s) :
    Nested words (.keyword word :: s) := by
  refine .cons Lexeme.noConfusion Lexeme.noConfusion ?_ h
  rintro word' hword' heq
  cases heq
  exact hword hword'

theorem mark {m : Mark} (hopen : m ≠ .leftParen) (hclose : m ≠ .rightParen)
    (h : Nested words s) : Nested words (.mark m :: s) :=
  .cons (fun heq => hopen (Lexeme.mark.inj heq)) (fun heq => hclose (Lexeme.mark.inj heq))
    (fun _ _ => Lexeme.noConfusion) h

theorem name (n : String) (h : Nested words s) : Nested words (.name n :: s) :=
  .cons Lexeme.noConfusion Lexeme.noConfusion (fun _ _ => Lexeme.noConfusion) h

theorem literal {lexeme : Lexeme} (hliteral : lexeme.isLiteral = true)
    (hwords : words ⊆ [.and, .or]) (h : Nested words s) : Nested words (lexeme :: s) := by
  refine .cons ?_ ?_ ?_ h
  · rintro rfl
    cases hliteral
  · rintro rfl
    cases hliteral
  · rintro word hword rfl
    have hconnective := hwords hword
    simp only [List.mem_cons, List.not_mem_nil, or_false] at hconnective
    rcases hconnective with rfl | rfl <;> cases hliteral

theorem mono {fewer : List Keyword} (h : Nested words s) (hsub : fewer ⊆ words) :
    Nested fewer s := by
  induction h with
  | nil => exact .nil
  | cons hopen hclose hwords _ ih =>
      exact .cons hopen hclose (fun word hword => hwords word (hsub hword)) (ih hsub)
  | group hinner _ _ ih => exact .group hinner (ih hsub)

end Nested

private theorem depthAfter_eq {lexeme : Lexeme} (hopen : lexeme ≠ .mark .leftParen)
    (hclose : lexeme ≠ .mark .rightParen) (depth : Nat) : depthAfter depth lexeme = depth := by
  unfold depthAfter
  split
  · exact absurd rfl hopen
  · exact absurd rfl hclose
  · rfl

section Splitting

variable {word : Keyword} {words : List Keyword} {s t before after : List Lexeme}

private theorem splitLast?_cons_of_some {depth : Nat} {lexeme : Lexeme}
    (h : splitLast? word (depthAfter depth lexeme) s = some (before, after)) :
    splitLast? word depth (lexeme :: s) = some (lexeme :: before, after) := by
  rw [splitLast?, h]

private theorem splitLast?_cons_of_none {depth : Nat} {lexeme : Lexeme}
    (h : splitLast? word (depthAfter depth lexeme) s = none)
    (hne : depth = 0 → lexeme ≠ .keyword word) : splitLast? word depth (lexeme :: s) = none := by
  rw [splitLast?, h]
  exact if_neg fun hboth => hne hboth.1 hboth.2

private theorem splitLast?_append {depth : Nat} (h : Nested words s)
    (ht : splitLast? word depth t = some (before, after)) :
    splitLast? word depth (s ++ t) = some (s ++ before, after) := by
  induction h generalizing depth t before with
  | nil => exact ht
  | cons hopen hclose _ _ ih =>
      refine splitLast?_cons_of_some ?_
      rw [depthAfter_eq hopen hclose]
      exact ih ht
  | @group words inner rest _ _ ihinner ihrest =>
      -- one level down for what is inside, and back up before the rest
      have hclosed : splitLast? word (depth + 1) (.mark .rightParen :: (rest ++ t)) =
          some (.mark .rightParen :: (rest ++ before), after) :=
        splitLast?_cons_of_some (ihrest ht)
      have hopened : splitLast? word depth
          (.mark .leftParen :: (inner ++ .mark .rightParen :: (rest ++ t))) =
            some (.mark .leftParen :: (inner ++ .mark .rightParen :: (rest ++ before)), after) :=
        splitLast?_cons_of_some (ihinner hclosed)
      simpa using hopened

private theorem splitLast?_append_eq_none {depth : Nat} (h : Nested words s)
    (hword : depth = 0 → word ∈ words) (ht : splitLast? word depth t = none) :
    splitLast? word depth (s ++ t) = none := by
  induction h generalizing depth t with
  | nil => exact ht
  | cons hopen hclose hwords _ ih =>
      refine splitLast?_cons_of_none ?_ fun hzero => hwords word (hword hzero)
      rw [depthAfter_eq hopen hclose]
      exact ih hword ht
  | @group words inner rest _ _ ihinner ihrest =>
      have hclosed : splitLast? word (depth + 1) (.mark .rightParen :: (rest ++ t)) = none :=
        splitLast?_cons_of_none (ihrest hword ht) fun _ => Lexeme.noConfusion
      have hopened : splitLast? word depth
          (.mark .leftParen :: (inner ++ .mark .rightParen :: (rest ++ t))) = none :=
        splitLast?_cons_of_none
          (ihinner (fun hzero => absurd hzero (Nat.succ_ne_zero depth)) hclosed)
          fun _ => Lexeme.noConfusion
      simpa using hopened

theorem splitLast?_eq_none (h : Nested words s) (hword : word ∈ words) :
    splitLast? word 0 s = none := by
  have hnone : splitLast? word 0 (s ++ []) = none :=
    splitLast?_append_eq_none h (fun _ => hword) rfl
  rwa [List.append_nil] at hnone

theorem splitLast?_connective (hleft : Nested [] before) (hright : Nested words after)
    (hword : word ∈ words) :
    splitLast? word 0 (before ++ .keyword word :: after) = some (before, after) := by
  have hlast : splitLast? word 0 (.keyword word :: after) = some ([], after) := by
    rw [splitLast?, depthAfter_eq Lexeme.noConfusion Lexeme.noConfusion,
      splitLast?_eq_none hright hword]
    exact if_pos ⟨rfl, rfl⟩
  rw [splitLast?_append hleft hlast, List.append_nil]

end Splitting

/-! ### How conditions are read

Each way to build a condition is read by one rule, given that no connective that binds less
stands outside of its parentheses.
-/

section Reading

variable {s left right : List Lexeme} {x y : Expression}

private theorem readCondition_of_or (hsplit : splitLast? .or 0 s = some (left, right))
    (hleft : readCondition left = some x) (hright : readCondition right = some y) :
    readCondition s = some (.or x y) := by
  rw [readCondition]
  split
  · rename_i left' right' hor
    rw [hsplit] at hor
    cases hor
    rw [hleft, hright]
    rfl
  · rename_i hor
    rw [hsplit] at hor
    cases hor

private theorem readCondition_of_and (hnone : splitLast? .or 0 s = none)
    (hsplit : splitLast? .and 0 s = some (left, right)) (hleft : readCondition left = some x)
    (hright : readCondition right = some y) : readCondition s = some (.and x y) := by
  rw [readCondition]
  split
  · rename_i left' right' hor
    rw [hnone] at hor
    cases hor
  split
  · rename_i left' right' hand
    rw [hsplit] at hand
    cases hand
    rw [hleft, hright]
    rfl
  · rename_i hand
    rw [hsplit] at hand
    cases hand

/-- Without connectives outside of parentheses, what stands in front decides. -/
theorem readCondition_of_nested (h : Nested [.and, .or] s) :
    readCondition s = ((afterNot? s).map fun rest => (readCondition rest).map .not).getD
      (((inside? s).map readCondition).getD (readComparison s)) := by
  have hor : splitLast? .or 0 s = none := splitLast?_eq_none h (by simp)
  have hand : splitLast? .and 0 s = none := splitLast?_eq_none h (by simp)
  rw [readCondition]
  split
  · rename_i left right hsplit
    rw [hor] at hsplit
    cases hsplit
  split
  · rename_i left right hsplit
    rw [hand] at hsplit
    cases hsplit
  split
  · rename_i rest hnot
    rw [hnot]
    rfl
  · rename_i hnot
    rw [hnot]
    split
    · rename_i inner hinside
      rw [hinside]
      rfl
    · rename_i hinside
      rw [hinside]
      rfl

theorem readCondition_or (hleft : Nested [] left) (hright : Nested [.or] right)
    (hx : readCondition left = some x) (hy : readCondition right = some y) :
    readCondition (left ++ .keyword .or :: right) = some (.or x y) :=
  readCondition_of_or (splitLast?_connective hleft hright List.mem_cons_self) hx hy

theorem readCondition_and (hleft : Nested [.or] left) (hright : Nested [.and, .or] right)
    (hx : readCondition left = some x) (hy : readCondition right = some y) :
    readCondition (left ++ .keyword .and :: right) = some (.and x y) := by
  have hword : Nested [.or] (.keyword .and :: right) := .keyword (by simp) (hright.mono (by simp))
  have hnone : splitLast? .or 0 (left ++ .keyword .and :: right) = none :=
    splitLast?_eq_none (hleft.append hword) List.mem_cons_self
  exact readCondition_of_and hnone
    (splitLast?_connective (hleft.mono (by simp)) hright List.mem_cons_self) hx hy

theorem readCondition_comparison (h : Nested [.and, .or] s) (hnot : afterNot? s = none)
    (hinside : inside? s = none) : readCondition s = readComparison s := by
  rw [readCondition_of_nested h, hnot, hinside]
  rfl

theorem readCondition_not (h : Nested [.and, .or] s) (hx : readCondition s = some x) :
    readCondition (.keyword .not :: s) = some (.not x) := by
  have hnot : Nested [.and, .or] (.keyword .not :: s) := .keyword (by simp) h
  rw [readCondition_of_nested hnot, afterNot?, Option.map_some, Option.getD_some, hx]
  rfl

/-- Parentheses around a condition are read away. -/
theorem readCondition_group (h : Nested [] s) (hx : readCondition s = some x) :
    readCondition (.mark .leftParen :: (s ++ [.mark .rightParen])) = some x := by
  have hinside : inside? (.mark .leftParen :: (s ++ [.mark .rightParen])) = some s := by
    rw [inside?, if_pos List.getLast?_concat, List.dropLast_concat]
  rw [readCondition_of_nested (.group h .nil), hinside]
  exact hx

end Reading

end Sql

end FilterSelect
