/-
Evaluations and the clock.

An evaluation has one reading of the clock for all of its filters.  A clock that is looked at
while the filters are evaluated goes on meanwhile, and shows each of them another reading;
`evaluateOver` evaluates a query that way, with a reading for every filter.  Where the clock
stands still the two are the same.

They are also the same where no filter brings a word for a moment, and then at any readings
whatsoever: a filter reaches the clock through its operator only, and there it depends on the
reading only if it brings such a word.  The induction is on the tree, and all that it needs
of a filter is that it fares the same at any two readings, in every draft (`evaluateLeaf_congr`).
-/
import FilterSelect.Proofs.Evaluation.Footprint
import FilterSelect.Proofs.Operators.Clock

namespace FilterSelect

open Calendar (Keyword)

/-- No filter brings a word for a moment. -/
def Query.WithoutKeywords (query : Query) : Prop :=
  ∀ l ∈ query.leaves, ¬ l.value.IsKeyword

namespace Evaluation

/-- The evaluation at another reading of the clock. -/
def withClock (e : Evaluation) (clock : DateTime) : Evaluation :=
  { e with clock }

/-! ### A clock that goes on

The readings are given by a sequence, one for each filter from left to right.  A right operand
takes up the sequence where its left neighbour has stopped.
-/

/--
The condition of a tree, and the draft with the joins it needs, where the clock shows each
filter a reading of its own; `readings` has them from left to right.
-/
def evaluateTreeOver (e : Evaluation) (readings : Nat → DateTime) (draft : Draft) :
    FilterTree → Except Fault (Condition × Draft)
  | .leaf l => (e.withClock (readings 0)).evaluateLeaf draft l
  | .not inner =>
    (e.evaluateTreeOver readings draft inner).map fun (condition, draft) => (.not condition, draft)
  | .and left right =>
    inTurn .and (e.evaluateTreeOver readings draft left) fun draft =>
      e.evaluateTreeOver (fun n => readings (left.leaves.length + n)) draft right
  | .or left right =>
    inTurn .or (e.evaluateTreeOver readings draft left) fun draft =>
      e.evaluateTreeOver (fun n => readings (left.leaves.length + n)) draft right
  | .binding operator _ _ => .error (.unresolvedNode operator)

/-- The draft restricted by the condition of a tree, if there is one. -/
def applyFilterOver (e : Evaluation) (readings : Nat → DateTime) (draft : Draft) :
    Option FilterTree → Except Fault Draft
  | none => .ok draft
  | some tree =>
    (e.evaluateTreeOver readings draft tree).map fun (condition, draft) =>
      { draft with select := draft.select.restrict condition }

/-- The statement that a query makes of a base statement. -/
def evaluateOver (e : Evaluation) (readings : Nat → DateTime) (base : Select) (query : Query) :
    Except Fault Select := do
  e.checkQuery query
  let filtered ← e.applyFilterOver readings (Draft.start base) query.filter
  let ordered ← e.applyOrders filtered query.orders
  return ordered.select

end Evaluation

/-- The statement that a query asks for, while the clock goes on. -/
def Endpoint.evaluateOver (e : Endpoint) (readings : Nat → DateTime) (query : Query) :
    Except Fault Select := do
  let model ← e.model
  let session ← e.session
  let evaluation ← e.evaluation (readings 0)
  evaluation.evaluateOver readings (session.base model) query

namespace Evaluation

variable {e : Evaluation} {clock clock' : DateTime} {readings : Nat → DateTime} {draft : Draft}

/-! ### Filters

A filter uses the reading in one place, where its operator converts the scalar.
-/

private theorem evaluateLeaf_congr {l : Leaf}
    (hbuiltIn : Converters.orBuiltIn (some e.converters) = Converters.builtIn)
    (h : ¬ l.value.IsKeyword) (draft : Draft) :
    (e.withClock clock).evaluateLeaf draft l = (e.withClock clock').evaluateLeaf draft l := by
  have happly : ∀ (op : Operator) field, op.apply (some e.converters) clock field l.value =
      op.apply (some e.converters) clock' field l.value :=
    fun op field => op.apply_congr hbuiltIn h
  simp only [evaluateLeaf, withClock, operatorOf, happly]

/-- A filter leads to a column that holds a part of moments, and to an operator that takes it. -/
structure AsksMoment (e : Evaluation) (draft : Draft) (l : Leaf) (op : Operator)
    (resolution : Resolution) (part : DateTime → Value) : Prop where
  operator : e.operatorOf l = .ok op
  resolves : e.scope.resolve draft.joined l.name = .ok resolution
  accepts : op.accepts resolution.field.type = true
  part : resolution.field.type.kind.ofMoment? = some part

section Words

variable {l : Leaf} {op : Operator} {resolution : Resolution} {part : DateTime → Value}
  {k : Keyword} {s : String}

theorem evaluateLeaf_of_convert (h : e.AsksMoment draft l op resolution part)
    (hvalue : l.value = .string s) : e.evaluateLeaf draft l =
      match Converters.convert (some e.converters) e.clock resolution.field.type (.string s) with
      | .error refusal => .error (.conversion (.string s) resolution.field.type refusal)
      | .ok v => (op.comparison.build resolution.field (some v)).map
          fun condition => (condition, draft.commit resolution) := by
  have hvalueFor : Operator.valueFor (some e.converters) e.clock resolution.field.type (.string s) =
      _ := Operator.valueFor_of_ne_null nofun
  simp only [evaluateLeaf, h.operator, h.resolves, hvalue, Operator.apply_of_accepts h.accepts,
    hvalueFor]
  cases Converters.convert (some e.converters) e.clock resolution.field.type (.string s) with
  | error refusal => rfl
  | ok v =>
      dsimp only
      cases op.comparison.build resolution.field (some v) <;> rfl

theorem evaluateLeaf_of_names
    (hbuiltIn : Converters.orBuiltIn (some e.converters) = Converters.builtIn)
    (h : e.AsksMoment draft l op resolution part) (hvalue : l.value = .string s) (hk : k.Spells s)
    {m : DateTime} (hm : k.Names e.clock m) :
    e.evaluateLeaf draft l = (op.comparison.build resolution.field (some (part m))).map
      fun condition => (condition, draft.commit resolution) := by
  have hconvert := (Converters.convert_eq_ok_iff hbuiltIn h.part hk).mpr ⟨m, hm, rfl⟩
  rw [evaluateLeaf_of_convert h hvalue, hconvert]

theorem evaluateLeaf_of_not_names
    (hbuiltIn : Converters.orBuiltIn (some e.converters) = Converters.builtIn)
    (h : e.AsksMoment draft l op resolution part) (hvalue : l.value = .string s) (hk : k.Spells s)
    (hnone : ∀ m, ¬ k.Names e.clock m) :
    e.evaluateLeaf draft l = .error (.conversion (.string s) resolution.field.type
      (.moment (.outOfRange (String.ofList (Text.trim s.toList))))) := by
  have hconvert := (Converters.convert_eq_error_iff hbuiltIn h.part hk).mpr ⟨hnone, rfl⟩
  rw [evaluateLeaf_of_convert h hvalue, hconvert]

end Words

theorem evaluateTreeOver_eq {tree : FilterTree}
    (h : ∀ l ∈ tree.leaves, ∀ n draft,
      (e.withClock (readings n)).evaluateLeaf draft l = (e.withClock clock).evaluateLeaf draft l) :
    e.evaluateTreeOver readings draft tree = (e.withClock clock).evaluateTree draft tree := by
  induction tree generalizing readings draft with
  | leaf l => exact h l (List.mem_singleton_self l) 0 draft
  | not inner ih =>
      rw [evaluateTreeOver, evaluateTree, ih h]
      cases (e.withClock clock).evaluateTree draft inner <;> rfl
  | and left right ihleft ihright =>
      refine inTurn_congr (ihleft fun l hl => h l (List.mem_append_left _ hl)) ?_
      -- the right side has the later readings, and `h` is about all of them
      intro condition next hrun
      exact ihright fun l hl n => h l (List.mem_append_right _ hl) _
  | or left right ihleft ihright =>
      refine inTurn_congr (ihleft fun l hl => h l (List.mem_append_left _ hl)) ?_
      intro condition next hrun
      exact ihright fun l hl n => h l (List.mem_append_right _ hl) _
  | binding operator left right => rfl

/-! ### Queries -/

private theorem applyOrders_withClock (orders : List OrderSpec) :
    (e.withClock clock).applyOrders draft orders = e.applyOrders draft orders := by
  induction orders generalizing draft with
  | nil => rfl
  | cons order rest ih => simp only [applyOrders, ih]; rfl

private theorem applyFilterOver_eq {filter : Option FilterTree}
    (h : ∀ tree, filter = some tree → ∀ l ∈ tree.leaves, ∀ n draft,
      (e.withClock (readings n)).evaluateLeaf draft l = (e.withClock clock).evaluateLeaf draft l) :
    e.applyFilterOver readings draft filter = (e.withClock clock).applyFilter draft filter := by
  cases filter with
  | none => rfl
  | some tree =>
      rw [applyFilterOver, applyFilter, evaluateTreeOver_eq (h tree rfl)]
      cases (e.withClock clock).evaluateTree draft tree <;> rfl

/-- Filters that fare the same at all readings make queries that do. -/
theorem evaluateOver_eq {base : Select} {query : Query}
    (h : ∀ l ∈ query.leaves, ∀ n draft,
      (e.withClock (readings n)).evaluateLeaf draft l = (e.withClock clock).evaluateLeaf draft l) :
    e.evaluateOver readings base query = (e.withClock clock).evaluate base query := by
  have hregistry : (e.withClock clock).registry = e.registry := rfl
  have hleaves : ∀ tree, query.filter = some tree → tree.leaves = query.leaves := by
    intro tree htree
    rw [Query.leaves, htree]
  have hfilter : e.applyFilterOver readings (Draft.start base) query.filter =
      (e.withClock clock).applyFilter (Draft.start base) query.filter :=
    applyFilterOver_eq fun tree htree l hl => h l (hleaves tree htree ▸ hl)
  simp only [evaluateOver, evaluate, checkQuery_congr hregistry, hfilter, applyOrders_withClock]

end Evaluation

/-! ### Endpoints -/

namespace Endpoint

variable {e : Endpoint} {clock : DateTime} {readings : Nat → DateTime} {query : Query}

private theorem evaluation_withClock (e : Endpoint) (clock clock' : DateTime) :
    e.evaluation clock' = (e.evaluation clock).map (·.withClock clock') := by
  simp only [evaluation, bind, Except.bind, pure, Except.pure]
  cases e.model with
  | error fault => rfl
  | ok model => cases e.config.registry <;> rfl

private theorem clock_of_evaluation {evaluation : Evaluation}
    (h : e.evaluation clock = .ok evaluation) :
    evaluation.clock = clock := by
  have hsame := evaluation_withClock e clock clock
  rw [h] at hsame
  exact congrArg Evaluation.clock (Except.ok.inj hsame)

theorem evaluateOver_eq (h : ∀ evaluation, e.evaluation (readings 0) = .ok evaluation →
      ∀ l ∈ query.leaves, ∀ n draft, (evaluation.withClock (readings n)).evaluateLeaf draft l =
        (evaluation.withClock clock).evaluateLeaf draft l) :
    e.evaluateOver readings query = e.evaluate clock query := by
  simp only [evaluateOver, evaluate, evaluateFrom, evaluation_withClock e (readings 0) clock, bind,
    Except.bind]
  cases e.model with
  | error fault => rfl
  | ok model =>
      cases e.session with
      | error fault => rfl
      | ok session =>
          cases hevaluation : e.evaluation (readings 0) with
          | error fault => rfl
          | ok evaluation => exact Evaluation.evaluateOver_eq (h evaluation hevaluation)

theorem evaluateOver_const (e : Endpoint) (clock : DateTime) (query : Query) :
    e.evaluateOver (fun _ => clock) query = e.evaluate clock query :=
  evaluateOver_eq fun _ _ _ _ _ _ => rfl

theorem evaluateOver_of_withoutKeywords
    (hbuiltIn : Converters.orBuiltIn e.config.converters = Converters.builtIn)
    (h : query.WithoutKeywords) (readings : Nat → DateTime) (clock : DateTime) :
    e.evaluateOver readings query = e.evaluate clock query := by
  apply evaluateOver_eq
  intro evaluation hevaluation l hl n draft
  have hconverters := (orBuiltIn_of_evaluation hevaluation).trans hbuiltIn
  exact Evaluation.evaluateLeaf_congr hconverters (h l hl) draft

/--
**The clock matters for words only.**

Under the built-in converters, a query without words for moments evaluates to the same
statement or to the same fault at any two readings of the clock, and also if the clock goes on
and shows each filter another reading; with a clock that stands still, that is the evaluation
at its reading.

Of a filter with a word, on a column that holds dates, dates with a time or times, the same
is built as of the part of one moment, and the reading alone decides which: the day of the
moment is as many days after that of the reading as the word says, and its time of day is
midnight, or for `now` that of the reading.  Where the date range has no such day, the word is
refused as out of range.
-/
theorem evaluate_keywords {e : Endpoint}
    (hbuiltIn : Converters.orBuiltIn e.config.converters = Converters.builtIn) :
    (∀ query : Query, query.WithoutKeywords → ∀ readings clock,
      e.evaluate (readings 0) query = e.evaluate clock query ∧
      e.evaluateOver readings query = e.evaluate clock query) ∧
    (∀ clock query, e.evaluateOver (fun _ => clock) query = e.evaluate clock query) ∧
    ∀ clock evaluation, e.evaluation clock = .ok evaluation →
      ∀ draft l op resolution part, evaluation.AsksMoment draft l op resolution part →
      ∀ (k : Keyword) (s : String), k.Spells s → l.value = .string s →
        (∀ m, k.Names clock m → evaluation.evaluateLeaf draft l =
          (op.comparison.build resolution.field (some (part m))).map
            fun condition => (condition, draft.commit resolution)) ∧
        ((∀ m, ¬ k.Names clock m) → evaluation.evaluateLeaf draft l =
          .error (.conversion (.string s) resolution.field.type
            (.moment (.outOfRange (String.ofList (Text.trim s.toList)))))) := by
  refine ⟨?_, e.evaluateOver_const, ?_⟩
  · intro query h readings clock
    have hconst := evaluateOver_of_withoutKeywords hbuiltIn h (fun _ => readings 0) clock
    rw [evaluateOver_const] at hconst
    exact ⟨hconst, evaluateOver_of_withoutKeywords hbuiltIn h readings clock⟩
  · intro clock evaluation hevaluation draft l op resolution part hasks k s hk hvalue
    have hconverters := (orBuiltIn_of_evaluation hevaluation).trans hbuiltIn
    have hclock := clock_of_evaluation hevaluation
    constructor
    · intro m hm
      exact Evaluation.evaluateLeaf_of_names hconverters hasks hvalue hk (hclock ▸ hm)
    · intro hnone
      exact Evaluation.evaluateLeaf_of_not_names hconverters hasks hvalue hk (hclock ▸ hnone)

end Endpoint

/-! ### Loans -/

namespace Library

/-- The loans of the library, each due on a day. -/
def loans : Endpoint where
  schema := Directory.ofList [⟨"loan", "loans", [⟨"due", .date⟩], []⟩]
  config := { Configuration.empty with
    model := some "loan"
    bindings := Directory.ofList [⟨"due", .simple "due"⟩]
    session := some ⟨.sqlite⟩ }
  ownSession := none

/-- What loans are evaluated with. -/
def loansEvaluation (clock : DateTime) : Evaluation :=
  ⟨⟨loans.schema, ⟨"loan", "loans", [⟨"due", .date⟩], []⟩, loans.config.bindings⟩,
    Registry.builtIn, Converters.builtIn, clock⟩

/-- Loans that were due before the day of a word. -/
def dueBefore (word : String) : Leaf :=
  ⟨"due", some "lt", .string word⟩

theorem asksMoment_due (clock : DateTime) (word : String) :
    (loansEvaluation clock).AsksMoment (Draft.start (.allOf "loans")) (dueBefore word)
      (.builtIn .lt) ⟨⟨⟨"loans", "due"⟩, .date⟩, [], []⟩ (fun m => .date m.date) where
  operator := by cbv
  resolves := by cbv
  accepts := rfl
  part := rfl

/-- The morning after a leap day. -/
def firstOfMarch : DateTime :=
  ⟨⟨1932, 3, 1, by decide⟩, ⟨6, 0, 0, 0, by decide⟩⟩

/-- The morning of the last day of the date range. -/
def lastMorning : DateTime :=
  ⟨⟨262142, 12, 31, by decide⟩, ⟨6, 0, 0, 0, by decide⟩⟩

/--
A day by its numbers is the same day at any reading.  The day before the first of March is the
leap day, and there is no day after the last one.
-/
theorem evaluate_loans :
    Converters.orBuiltIn loans.config.converters = Converters.builtIn ∧
    (∀ clock, loans.evaluate clock ⟨some (.leaf (dueBefore "1932-03-01")), []⟩ =
      loans.evaluate noon ⟨some (.leaf (dueBefore "1932-03-01")), []⟩) ∧
    (loansEvaluation firstOfMarch).evaluateLeaf (Draft.start (.allOf "loans"))
        (dueBefore " Yesterday") =
      .ok (.compare .less ⟨"loans", "due"⟩ (.date ⟨1932, 2, 29, by decide⟩),
        Draft.start (.allOf "loans")) ∧
    (loansEvaluation lastMorning).evaluateLeaf (Draft.start (.allOf "loans"))
        (dueBefore "tomorrow") =
      .error (.conversion (.string "tomorrow") .date (.moment (.outOfRange "tomorrow"))) := by
  have hbuiltIn : Converters.orBuiltIn loans.config.converters = Converters.builtIn := rfl
  obtain ⟨hwithout, -, hword⟩ := Endpoint.evaluate_keywords hbuiltIn
  have hevaluation : ∀ clock, loans.evaluation clock = .ok (loansEvaluation clock) := by
    intro clock
    cbv
  refine ⟨hbuiltIn, ?_, ?_, ?_⟩
  · intro clock
    refine (hwithout _ ?_ (fun _ => clock) noon).1
    rintro l hl ⟨s, hs, k, hk⟩
    obtain rfl := List.mem_singleton.mp hl
    cases hs
    cases k <;> exact absurd hk (by decide)
  · have hnames : Keyword.Names .yesterday firstOfMarch ⟨⟨1932, 2, 29, by decide⟩, Time.midnight⟩ :=
      Keyword.moment?_eq_some_iff.mp (by decide)
    exact (hword _ _ (hevaluation _) _ _ _ _ _ (asksMoment_due _ _) .yesterday _ (by decide) rfl).1
      _ hnames
  · have hnone : ∀ m, ¬ Keyword.Names .tomorrow lastMorning m :=
      Keyword.moment?_eq_none_iff.mp (by decide)
    exact (hword _ _ (hevaluation _) _ _ _ _ _ (asksMoment_due _ _) .tomorrow _ (by decide) rfl).2
      hnone

end Library

end FilterSelect
