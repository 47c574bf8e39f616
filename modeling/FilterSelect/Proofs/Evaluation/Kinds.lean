/-
Every constant in a statement is of its column's kind.

A condition is built of predicates, each of one column and at most one constant.  The
column belongs to what its qualifier stands for in the statement: to the root table, or to
the table that is joined under that alias.  The entity of that table declares the type of
the column, and with the built-in converters the constant is of the kind of that type.

Neither NOT nor AND nor OR changes predicates, so the predicates of a condition are those
of the leaves (`FilterTree.exists_leaf`), and what a leaf asks is what its operator asks of
columns of the type that the leaf's name leads to.
-/
import FilterSelect.Proofs.Evaluation.Faults
import FilterSelect.Proofs.Evaluation.PathTest
import FilterSelect.Proofs.Operators.Kinds

namespace FilterSelect

/-! ### Predicates

A condition only combines predicates, so each of its predicates was put there by one leaf.
-/

/-- The predicates of a condition from left to right: the columns with what is asked of them. -/
def Condition.predicates : Condition → List (ColumnRef × Test)
  | .compare comparator column value => [(column, .compare comparator value)]
  | .isNull column => [(column, .isNull)]
  | .isNotNull column => [(column, .isNotNull)]
  | .like column pattern => [(column, .like pattern)]
  | .likeFolded column pattern => [(column, .likeFolded pattern)]
  | .not inner => inner.predicates
  | .and left right => left.predicates ++ right.predicates
  | .or left right => left.predicates ++ right.predicates

@[simp] theorem Condition.predicates_on (column : ColumnRef) (test : Test) :
    (test.on column).predicates = [(column, test)] := by
  cases test <;> rfl

theorem FilterTree.exists_leaf {leaf : Leaf → Option Condition} {tree : FilterTree}
    {condition : Condition} (h : tree.mirror? leaf = some condition) :
    ∀ p ∈ condition.predicates, ∃ l ∈ tree.leaves, ∃ c, leaf l = some c ∧ p ∈ c.predicates := by
  induction tree generalizing condition with
  | leaf l =>
      intro p hp
      exact ⟨l, by simp [leaves], condition, h, hp⟩
  | not inner ih =>
      obtain ⟨x, hinner, rfl⟩ := mirror?_not h
      intro p hp
      exact ih hinner p hp
  | and left right ihleft ihright =>
      obtain ⟨x, y, hleft, hright, rfl⟩ := mirror?_and h
      intro p hp
      rcases List.mem_append.mp hp with hp | hp
      · obtain ⟨l, hl, hleaf⟩ := ihleft hleft p hp
        exact ⟨l, List.mem_append_left _ hl, hleaf⟩
      · obtain ⟨l, hl, hleaf⟩ := ihright hright p hp
        exact ⟨l, List.mem_append_right _ hl, hleaf⟩
  | or left right ihleft ihright =>
      obtain ⟨x, y, hleft, hright, rfl⟩ := mirror?_or h
      intro p hp
      rcases List.mem_append.mp hp with hp | hp
      · obtain ⟨l, hl, hleaf⟩ := ihleft hleft p hp
        exact ⟨l, List.mem_append_left _ hl, hleaf⟩
      · obtain ⟨l, hl, hleaf⟩ := ihright hright p hp
        exact ⟨l, List.mem_append_right _ hl, hleaf⟩
  | binding operator left right => cases h

/-! ### Columns of a statement

Qualifiers need not be distinct, so what a qualifier stands for is found along the joins and
not by looking it up.
-/

/--
A column of a statement has a type: its qualifier is the root table or the alias of a join,
and the entity whose table that is declares the column with the type.
-/
def Select.Declares (s : Select) (scope : Scope) (column : ColumnRef) (type : ColumnType) : Prop :=
  ∃ entity : Entity, entity.column? column.column = some ⟨column.column, type⟩ ∧
    ((column.qualifier = s.table ∧ entity = scope.model) ∨
      ∃ j ∈ s.joins, j.aliasName = column.qualifier ∧ j.table = entity.table ∧
        scope.schema.find? entity.name = some entity)

namespace Evaluation

variable {e : Evaluation} {plan : List PendingJoin} {select : Select}

/-- A column of what stands for a path is a column of the statement. -/
theorem declares_of_stands {path : List String} {entity : Entity} {qualifier : String}
    {column : Column} (h : e.scope.Planned plan) (htable : select.table = e.scope.model.table)
    (hjoins : select.joins = plan.map PendingJoin.join)
    (hs : e.scope.Stands plan path entity qualifier)
    (hcolumn : entity.column? column.name = some column) :
    select.Declares e.scope ⟨qualifier, column.name⟩ column.type := by
  refine ⟨entity, hcolumn, ?_⟩
  cases hs with
  | root => exact Or.inl ⟨htable.symm, rfl⟩
  | @joined p _ hp hentity =>
      obtain ⟨-, target, -, hfind, hname, hjoin, -⟩ := h.link?_eq p hp
      have hsame : entity = target := by
        rw [hname, hfind] at hentity
        exact (Option.some.inj hentity).symm
      refine Or.inr ⟨p.join, ?_, rfl, ?_, ?_⟩
      · rw [hjoins]
        exact List.mem_map_of_mem hp
      · rw [hjoin, hsame]
      · rw [hsame]
        exact hfind

theorem asks_of_leafCondition? {names : List String} {l : Leaf} {condition : Condition}
    (hbuiltIn : Converters.orBuiltIn (some e.converters) = Converters.builtIn)
    (h : e.scope.Planned plan) (htable : select.table = e.scope.model.table)
    (hjoins : select.joins = plan.map PendingJoin.join)
    (hplan : pathsOf plan = e.scope.usedPaths names) (hl : l.name ∈ names)
    (hcondition : e.leafCondition? (pathsOf plan) l = some condition) :
    ∀ p ∈ condition.predicates, ∃ c type, select.Declares e.scope p.1 type ∧
      Comparison.Asks type c l.value p.2 := by
  rw [leafCondition?_eq, Option.bind_eq_some_iff] at hcondition
  obtain ⟨asked, hasked, hcondition⟩ := hcondition
  obtain ⟨qualifier, hqualifier, rfl⟩ := Option.map_eq_some_iff.mp hcondition
  obtain ⟨op, column, -, hdestination, hname, htest⟩ := parts_of_pathTest? hasked
  have hpath : asked.path = [] ∨ asked.path ∈ pathsOf plan := by
    by_cases hnil : asked.path = []
    · exact Or.inl hnil
    · rw [hplan]
      exact Or.inr (Scope.mem_usedPaths hl hdestination hnil)
  obtain ⟨entity, hs⟩ := h.stands_qualifier? hpath hqualifier
  obtain ⟨last, hreach, hcolumn⟩ := Scope.reach_of_destination hdestination
  have hsame : entity = last := Except.ok.inj ((h.reach_eq hs).symm.trans hreach)
  intro p hp
  rw [Condition.predicates_on, List.mem_singleton] at hp
  subst hp hsame
  refine ⟨op.comparison, column.type, ?_, Operator.asks_of_test? hbuiltIn htest⟩
  rw [hname]
  exact declares_of_stands h htable hjoins hs hcolumn

theorem asks_of_evaluate {query : Query}
    (hbuiltIn : Converters.orBuiltIn (some e.converters) = Converters.builtIn)
    (h : e.evaluate (Select.allOf e.scope.model.table) query = .ok select) :
    ∀ condition, select.condition = some condition → ∀ p ∈ condition.predicates,
      ∃ l ∈ query.leaves, ∃ c type, select.Declares e.scope p.1 type ∧
        Comparison.Asks type c l.value p.2 := by
  obtain ⟨plan, hplanned, hpaths, htable, -, hjoins, hfilter⟩ := evaluate_parts h
  intro condition hcondition p hp
  rw [hcondition] at hfilter
  cases htree : query.filter with
  | none =>
      rw [htree] at hfilter
      cases hfilter
  | some tree =>
      rw [htree] at hfilter
      obtain ⟨condition', hmirror, hsome⟩ := Option.map_eq_some_iff.mp hfilter
      cases hsome
      obtain ⟨l, hl, c, hleaf, hmem⟩ := FilterTree.exists_leaf hmirror p hp
      have hname : l.name ∈ query.names := by
        rw [names_eq, htree]
        exact List.mem_append_left _ (List.mem_map_of_mem hl)
      refine ⟨l, ?_, asks_of_leafCondition? hbuiltIn hplanned htable hjoins hpaths hname hleaf p
        hmem⟩
      rw [Query.leaves, htree]
      exact hl

end Evaluation

/-! ### Endpoints -/

/--
**Every column is compared with a constant of the kind of its type, or with NULL.**

Under the built-in converters, what comes of a built-in comparison is decided by a few
cases.  A pattern for a column that is not string-like is refused for the type of the
column, whatever the scalar is.  Every other comparison takes null, a pattern takes just
the strings, and apart from that a scalar is taken if and only if it is converted; what is
not taken is refused as no constant.  The constant is then of the kind that the nearest
converter at or above the column's type makes.

So it is in every statement: each predicate is of a column that the entity behind its
qualifier declares with a type, and asks what a comparison asks of columns of that type for
the scalar of some leaf.
-/
theorem Endpoint.asks_evaluate {e : Endpoint}
    (hbuiltIn : Converters.orBuiltIn e.config.converters = Converters.builtIn) :
    (∀ (c : Comparison) clock (field : Field) raw, c.Decides field raw
      (Converters.convert e.config.converters clock field.type raw)
      ((Operator.builtIn c).apply e.config.converters clock field raw)) ∧
    ∀ clock query select, e.evaluate clock query = .ok select →
      ∃ evaluation, e.evaluation clock = .ok evaluation ∧
        ∀ condition, select.condition = some condition → ∀ p ∈ condition.predicates,
          ∃ l ∈ query.leaves, ∃ c type, select.Declares evaluation.scope p.1 type ∧
            Comparison.Asks type c l.value p.2 := by
  constructor
  · intro c clock field raw
    exact Operator.decides hbuiltIn c clock field raw
  · intro clock query select h
    obtain ⟨session, evaluation, -, hevaluation, hrun⟩ := evaluation_of_evaluate h
    have hconverters := (orBuiltIn_of_evaluation hevaluation).trans hbuiltIn
    exact ⟨evaluation, hevaluation, Evaluation.asks_of_evaluate hconverters hrun⟩

/-- The name of an author is compared with a string, and no pattern is matched against numbers. -/
theorem Library.asks_author :
    Converters.orBuiltIn (endpoint .sqlite).config.converters = Converters.builtIn ∧
    (Operator.builtIn .like).apply none noon ⟨⟨"books", "author_id"⟩, .integer⟩ (.array []) =
      .error (.typeMismatch "like" .integer) ∧
    ∃ l ∈ (query "anonymous" "%").leaves, ∃ c type,
      (select "anonymous" "%").Declares scope ⟨"authors_1", "name"⟩ type ∧
      Comparison.Asks type c l.value (.compare .equal (.string "anonymous")) := by
  have hbuiltIn : Converters.orBuiltIn (endpoint .sqlite).config.converters = Converters.builtIn :=
    rfl
  obtain ⟨hdecides, hasks⟩ := Endpoint.asks_evaluate hbuiltIn
  obtain ⟨evaluation, hevaluation, htyped⟩ :=
    hasks noon _ _ (evaluate_endpoint .sqlite noon "anonymous" "%")
  rw [evaluation_endpoint] at hevaluation
  cases hevaluation
  refine ⟨hbuiltIn, ?_, ?_⟩
  · exact (hdecides .like noon ⟨⟨"books", "author_id"⟩, .integer⟩ (.array [])).mismatch rfl rfl
  · exact htyped _ rfl (⟨"authors_1", "name"⟩, .compare .equal (.string "anonymous"))
      (List.mem_cons_self ..)

end FilterSelect
