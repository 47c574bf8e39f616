/-
Integers in queries.

The same query can be written twice, with its integers as number tokens and with their
digits in strings.  An evaluation converts each constant once and then looks at nothing but
the value, so the two queries fare alike if every constant does.  Only the reason of a
failed conversion differs, because it quotes what was written.

The induction is on the two trees at once.  As long as nothing has failed, both evaluations
have built the same condition and joined the same tables, so the next filter is evaluated in
the same draft.  That the draft follows a plan is carried along for the type of the column,
which a filter has wherever its name is resolved.
-/
import FilterSelect.Proofs.Evaluation.Faults
import FilterSelect.Proofs.Query.Requoting
import FilterSelect.Proofs.Value.Integers

namespace FilterSelect

/-- Where the name leads to a column, it is one of integers. -/
def Scope.NamesIntegers (scope : Scope) (name : String) : Prop :=
  ∀ path column, scope.destination name = .ok (path, column) → column.type.isA .integer = true

/-- Constants in the same place are equal or belong to columns of integers. -/
def Scope.DiffersOnIntegers (scope : Scope) (leaves leaves' : List Leaf) : Prop :=
  ∀ pair ∈ leaves.zip leaves', pair.1.value = pair.2.value ∨ scope.NamesIntegers pair.1.name

private theorem Scope.differsOnIntegers_append {scope : Scope} {left left' right right' : List Leaf}
    (hlength : left.length = left'.length)
    (h : scope.DiffersOnIntegers (left ++ right) (left' ++ right')) :
    scope.DiffersOnIntegers left left' ∧ scope.DiffersOnIntegers right right' := by
  unfold DiffersOnIntegers at h
  rw [List.zip_append hlength] at h
  exact ⟨fun pair hpair => h pair (List.mem_append_left _ hpair),
    fun pair hpair => h pair (List.mem_append_right _ hpair)⟩

/-- Constants of integer columns that differ in quotes are converted alike. -/
theorem Operator.valueFor_alike {given : Option Converters} {clock : DateTime} {type : ColumnType}
    {raw raw' : Json} (hbuiltIn : Converters.orBuiltIn given = Converters.builtIn)
    (hinteger : type.isA .integer = true) (h : raw.Requoted raw') :
    Alike (valueFor given clock type raw) (valueFor given clock type raw') := by
  cases h with
  | same => exact .same _
  | quoted hz htoken =>
      exact ((keeps_token_iff hbuiltIn hinteger htoken).mpr hz).alike
        (keeps_digits hbuiltIn hinteger _)
  | array items items' =>
      rw [valueFor_integer_error hbuiltIn hinteger rfl (by simp),
        valueFor_integer_error hbuiltIn hinteger rfl (by simp)]
      exact .refused rfl rfl
  | object members members' =>
      rw [valueFor_integer_error hbuiltIn hinteger rfl (by simp),
        valueFor_integer_error hbuiltIn hinteger rfl (by simp)]
      exact .refused rfl rfl

theorem Operator.apply_alike (op : Operator) {given : Option Converters} {clock : DateTime}
    {field : Field} {raw raw' : Json}
    (h : Alike (valueFor given clock field.type raw) (valueFor given clock field.type raw')) :
    Alike (op.apply given clock field raw) (op.apply given clock field raw') := by
  unfold apply
  split
  · rcases h.eq_or with hsame | ⟨fault, fault', hfault, hfault', hvalue, hvalue'⟩
    · rw [hsame]
      exact .same _
    · rw [hvalue, hvalue']
      exact .refused hfault hfault'
  · exact .same _

namespace Evaluation

variable {e : Evaluation} {plan : List PendingJoin} {draft : Draft} {tree tree' : FilterTree}

/-! ### One filter

A filter on a column of integers hands its constant to one converter and then looks at the
value alone.
-/

private theorem evaluateLeaf_alike {name : String} {filter : Option String} {raw raw' : Json}
    (h : ∀ resolution, e.scope.resolve draft.joined name = .ok resolution →
      Alike (Operator.valueFor (some e.converters) e.clock resolution.field.type raw)
        (Operator.valueFor (some e.converters) e.clock resolution.field.type raw')) :
    Alike (e.evaluateLeaf draft ⟨name, filter, raw⟩)
      (e.evaluateLeaf draft ⟨name, filter, raw'⟩) := by
  have hop : e.operatorOf ⟨name, filter, raw'⟩ = e.operatorOf ⟨name, filter, raw⟩ := rfl
  simp only [evaluateLeaf, hop]
  cases e.operatorOf ⟨name, filter, raw⟩ with
  | error fault => exact .same _
  | ok op =>
      cases hresolve : e.scope.resolve draft.joined name with
      | error fault => exact .same _
      | ok resolution =>
          have happly := op.apply_alike (h resolution hresolve)
          dsimp only
          rcases happly.eq_or with hsame | ⟨fault, fault', hfault, hfault', hrun, hrun'⟩
          · rw [hsame]
            exact .same _
          · rw [hrun, hrun']
            exact .refused hfault hfault'

/-! ### Trees

Both trees have the same shape, and what their left operands leave is the same draft, so their
right operands start alike.
-/

private theorem inTurn_alike {combine : Condition → Condition → Condition}
    {first first' : Except Fault (Condition × Draft)}
    {second second' : Draft → Except Fault (Condition × Draft)} (hfirst : Alike first first')
    (hsecond : ∀ condition next, first = .ok (condition, next) →
      Alike (second next) (second' next)) :
    Alike (inTurn combine first second) (inTurn combine first' second') := by
  cases hfirst with
  | refused h h' => exact .refused h h'
  | same =>
      unfold inTurn
      cases first with
      | error fault => exact .same _
      | ok built =>
          obtain ⟨condition, next⟩ := built
          dsimp only
          rcases (hsecond condition next rfl).eq_or with hsame | ⟨fault, fault', hfault, hfault',
            hrun, hrun'⟩
          · rw [hsame]
            exact .same _
          · rw [hrun, hrun']
            exact .refused hfault hfault'

theorem evaluateTree_alike
    (hbuiltIn : Converters.orBuiltIn (some e.converters) = Converters.builtIn)
    (h : draft.Follows e.scope plan) (hrequoted : tree.Requoted tree')
    (hnames : e.scope.DiffersOnIntegers tree.leaves tree'.leaves) :
    Alike (e.evaluateTree draft tree) (e.evaluateTree draft tree') := by
  induction hrequoted generalizing draft plan with
  | @leaf name filter raw raw' hvalue =>
      refine evaluateLeaf_alike ?_
      intro resolution hresolve
      have hcolumn : raw = raw' ∨ e.scope.NamesIntegers name :=
        hnames _ (List.mem_singleton_self _)
      rcases hcolumn with rfl | hname
      · exact .same _
      · cases hdestination : e.scope.destination name with
        | error fault =>
            rw [h.resolve_error hdestination] at hresolve
            cases hresolve
        | ok target =>
            obtain ⟨path, column⟩ := target
            obtain ⟨_, hresolve', htype⟩ := resolve_typed h hdestination
            cases hresolve.symm.trans hresolve'
            rw [htype]
            exact Operator.valueFor_alike hbuiltIn (hname path column hdestination) hvalue
  | not hinner ih =>
      rw [evaluateTree, evaluateTree]
      rcases (ih h hnames).eq_or with hsame | ⟨fault, fault', hfault, hfault', hrun, hrun'⟩
      · rw [hsame]
        exact .same _
      · rw [hrun, hrun']
        exact .refused hfault hfault'
  | and hleft hright ihleft ihright =>
      obtain ⟨hnamesLeft, hnamesRight⟩ := Scope.differsOnIntegers_append hleft.length_leaves hnames
      refine inTurn_alike (ihleft h hnamesLeft) ?_
      intro condition next hrun
      obtain ⟨plan', hnext⟩ := follows_of_evaluateTree h hrun
      exact ihright hnext hnamesRight
  | or hleft hright ihleft ihright =>
      obtain ⟨hnamesLeft, hnamesRight⟩ := Scope.differsOnIntegers_append hleft.length_leaves hnames
      refine inTurn_alike (ihleft h hnamesLeft) ?_
      intro condition next hrun
      obtain ⟨plan', hnext⟩ := follows_of_evaluateTree h hrun
      exact ihright hnext hnamesRight
  | binding operator hleft hright => exact .same _

/-- The check made before anything is built does not look at constants. -/
theorem check_requoted (h : tree.Requoted tree') : e.check tree' = e.check tree := by
  induction h with
  | leaf name filter hvalue => rfl
  | not hinner ih => exact ih
  | and hleft hright ihleft ihright => simp only [check, ihleft, ihright]
  | or hleft hright ihleft ihright => simp only [check, ihleft, ihright]
  | binding operator hleft hright => rfl

/-! ### Queries -/

theorem evaluate_alike (hbuiltIn : Converters.orBuiltIn (some e.converters) = Converters.builtIn)
    {query query' : Query} (h : query.Requoted query')
    (hnames : e.scope.DiffersOnIntegers query.leaves query'.leaves) :
    Alike (e.evaluate (.allOf e.scope.model.table) query)
      (e.evaluate (.allOf e.scope.model.table) query') := by
  cases h with
  | same => exact .same _
  | @filter tree tree' htree orders =>
      have hstart := Draft.follows_allOf e.scope e.scope.model.table
      have hrun := evaluateTree_alike hbuiltIn hstart htree hnames
      simp only [evaluate, checkQuery, check_requoted htree, applyFilter, bind, Except.bind]
      cases e.check tree with
      | error fault => exact .same _
      | ok _ =>
          dsimp only
          rcases hrun.eq_or with hsame | ⟨fault, fault', hfault, hfault', hrun, hrun'⟩
          · rw [hsame]
            exact .same _
          · rw [hrun, hrun']
            exact .refused hfault hfault'

end Evaluation

/-! ### Endpoints -/

namespace Endpoint

theorem evaluate_alike {e : Endpoint} {clock : DateTime}
    (hbuiltIn : Converters.orBuiltIn e.config.converters = Converters.builtIn)
    {query query' : Query} (h : query.Requoted query')
    (hnames : ∀ evaluation, e.evaluation clock = .ok evaluation →
      evaluation.scope.DiffersOnIntegers query.leaves query'.leaves) :
    Alike (e.evaluate clock query) (e.evaluate clock query') := by
  cases hsession : e.session with
  | error fault =>
      rw [evaluate, evaluate, evaluateFrom_of_session hsession, evaluateFrom_of_session hsession]
      exact .same _
  | ok session =>
      cases hevaluation : e.evaluation clock with
      | error fault =>
          rw [evaluate, evaluate, evaluateFrom_of_evaluation hsession hevaluation,
            evaluateFrom_of_evaluation hsession hevaluation]
          exact .same _
      | ok evaluation =>
          rw [evaluate_eq hsession hevaluation, evaluate_eq hsession hevaluation]
          rw [← orBuiltIn_of_evaluation hevaluation] at hbuiltIn
          exact Evaluation.evaluate_alike hbuiltIn h (hnames evaluation hevaluation)

/--
**Integer constants are compared exactly or refused, however they are written, unless a
token rounds into the range.**

Under the built-in converters, the digits of every integer in a string become that integer
on every column of integers, or are refused where 64 bits do not hold it.  The token of the
integer, if it denotes a number at all, does just the same unless the integer is one of the
1024 below `-2^63`; every token of at most 307 digits does denote one.  So a query that is
written with such tokens and the query with their digits between quotes have the same
statement or the same fault, or both of them fail over a conversion.
-/
theorem keeps_integers (e : Endpoint) (clock : DateTime)
    (hbuiltIn : Converters.orBuiltIn e.config.converters = Converters.builtIn) :
    (∀ (type : ColumnType) (z : Int), type.isA .integer = true →
      Operator.Keeps z (Operator.valueFor e.config.converters clock type
        (.string (String.ofList (Text.signedDigits z)))) ∧
      (∀ n, Json.Document.ofText? (String.ofList (Text.signedDigits z)) = some (.number n) →
        (Operator.Keeps z (Operator.valueFor e.config.converters clock type (.number n)) ↔
          ¬ RoundsIntoRange z)) ∧
      (z.natAbs < 10 ^ 307 →
        ∃ n, Json.Document.ofText? (String.ofList (Text.signedDigits z)) = some (.number n))) ∧
    ∀ (s s' : String) (query query' : Query), Json.RequotedText s s' →
      (Json.Document.ofText? s).bind Query.ofDocument? = some query →
      (Json.Document.ofText? s').bind Query.ofDocument? = some query' →
      (∀ evaluation, e.evaluation clock = .ok evaluation →
        evaluation.scope.DiffersOnIntegers query.leaves query'.leaves) →
      Alike (e.evaluate clock query) (e.evaluate clock query') := by
  constructor
  · intro type z htype
    refine ⟨Operator.keeps_digits hbuiltIn htype z, ?_, ?_⟩
    · intro n htoken
      exact Operator.keeps_token_iff hbuiltIn htype htoken
    · intro hz
      exact Json.exists_ofText? (Nat.le_refl 307) hz
  · intro s s' query query' hrequoted hquery hquery' hnames
    exact evaluate_alike hbuiltIn (Query.ofText?_requoted hrequoted hquery hquery') hnames

end Endpoint

/-! ### A ledger -/

namespace Ledger

/-- Entries, each of an amount. -/
def entry : Entity :=
  ⟨"entry", "entries", [⟨"amount", .bigInteger⟩], []⟩

/-- Where entries are looked up by their amounts. -/
def scope : Scope where
  schema := Directory.ofList [entry]
  model := entry
  bindings := Directory.ofList [⟨"amount", .simple "amount"⟩]

/-- The endpoint of the ledger. -/
def endpoint : Endpoint where
  schema := scope.schema
  config := { Configuration.empty with
    model := some entry.name
    bindings := scope.bindings
    session := some ⟨.sqlite⟩ }
  ownSession := none

/-- The entries of less than an amount. -/
def below (amount : Json) : FilterTree :=
  .leaf ⟨"amount", some "lt", amount⟩

/-- The statement of such a query. -/
def select (amount : Value) : Select where
  table := "entries"
  output := .root
  joins := []
  condition := some (.compare .less ⟨"entries", "amount"⟩ amount)
  orders := []

/-- The moment of the queries. -/
def midnight : DateTime :=
  ⟨⟨1494, 11, 10, by decide⟩, Time.midnight⟩

theorem evaluation_endpoint :
    endpoint.evaluation midnight = .ok ⟨scope, Registry.builtIn, Converters.builtIn, midnight⟩ := by
  cbv

theorem namesIntegers_amount : scope.NamesIntegers "amount" := by
  intro path column h
  have hname : scope.destination "amount" = .ok ([], ⟨"amount", .bigInteger⟩) := by cbv
  cases hname.symm.trans h
  rfl

/-- The query for the entries of less than a hundred quintillion. -/
def large : String :=
  "[[\"param\", \"amount\", \"lt\", 100000000000000000000], []]"

/-- The same query with the amount between quotes. -/
def largeQuoted : String :=
  "[[\"param\", \"amount\", \"lt\", \"100000000000000000000\"], []]"

/-- An amount that 64 bits do not hold is refused, as a token and as a string. -/
theorem refuses_hundred_quintillion :
    (∃ n, Json.Document.ofText? (String.ofList (Text.signedDigits 100000000000000000000)) =
        some (.number n) ∧
      Operator.Keeps 100000000000000000000
        (Operator.valueFor none midnight .bigInteger (.number n))) ∧
    Operator.Keeps 100000000000000000000 (Operator.valueFor none midnight .bigInteger
      (.string (String.ofList (Text.signedDigits 100000000000000000000)))) ∧
    ∃ query query', (Json.Document.ofText? large).bind Query.ofDocument? = some query ∧
      (Json.Document.ofText? largeQuoted).bind Query.ofDocument? = some query' ∧
      Alike (endpoint.evaluate midnight query) (endpoint.evaluate midnight query') := by
  have hz : ¬ RoundsIntoRange 100000000000000000000 := by decide
  obtain ⟨hconstants, hqueries⟩ := endpoint.keeps_integers midnight rfl
  obtain ⟨hdigits, htokens, hexists⟩ := hconstants .bigInteger 100000000000000000000 rfl
  obtain ⟨n, htoken⟩ := hexists (by decide +kernel)
  refine ⟨⟨n, htoken, (htokens n htoken).mpr hz⟩, hdigits, ?_⟩
  have hread : ((Json.Document.ofText? large).bind Query.ofDocument?).map
      (fun query => query.leaves.map Leaf.name) = some ["amount"] := by decide +kernel
  have hread' : ((Json.Document.ofText? largeQuoted).bind Query.ofDocument?).map
      (fun query => query.leaves.map Leaf.name) = some ["amount"] := by decide +kernel
  obtain ⟨query, hquery, hleaves⟩ := Option.map_eq_some_iff.mp hread
  obtain ⟨query', hquery', -⟩ := Option.map_eq_some_iff.mp hread'
  have hrequoted : Json.RequotedText large largeQuoted :=
    Json.requotedText_of_tokens hz
      [.openArray, .openArray, .string "param".toList, .comma, .string "amount".toList, .comma,
        .string "lt".toList, .comma]
      [.closeArray, .comma, .openArray, .closeArray, .closeArray]
      (by decide +kernel) (by decide +kernel)
  refine ⟨query, query', hquery, hquery', hqueries _ _ _ _ hrequoted hquery hquery' ?_⟩
  intro evaluation hevaluation pair hpair
  cases evaluation_endpoint.symm.trans hevaluation
  right
  have hname : pair.1.name = "amount" := by
    have hmem := List.mem_map_of_mem (f := Leaf.name) (List.of_mem_zip hpair).1
    rw [hleaves] at hmem
    exact List.mem_singleton.mp hmem
  rw [hname]
  exact namesIntegers_amount

/-- All that can go wrong with such a query is the conversion of the amount. -/
theorem evaluate_below (amount : Json) :
    endpoint.evaluate midnight ⟨some (below amount), []⟩ =
      (Operator.valueFor (some Converters.builtIn) midnight .bigInteger amount).map
        fun value => select (value.getD .null) := by
  have hsession : endpoint.session = .ok ⟨.sqlite⟩ := rfl
  have hop : Registry.builtIn.get (Evaluation.refOf (some "lt")) = .ok (.builtIn .lt) := by cbv
  have hresolve : scope.resolve [] "amount" =
      .ok ⟨⟨⟨"entries", "amount"⟩, .bigInteger⟩, [], []⟩ := by cbv
  have haccepts : (Operator.builtIn .lt).accepts .bigInteger = true := rfl
  have happly : Operator.apply (.builtIn .lt) (some Converters.builtIn) midnight
      ⟨⟨"entries", "amount"⟩, .bigInteger⟩ amount =
        (Operator.valueFor (some Converters.builtIn) midnight .bigInteger amount).map
          fun value => .compare .less ⟨"entries", "amount"⟩ (value.getD .null) := by
    rw [Operator.apply, if_pos haccepts]
    cases Operator.valueFor (some Converters.builtIn) midnight .bigInteger amount <;> rfl
  rw [Endpoint.evaluate_eq hsession evaluation_endpoint]
  simp only [Evaluation.evaluate, Evaluation.checkQuery, Evaluation.check, below,
    Evaluation.operatorOf, hop, Evaluation.applyFilter, Evaluation.evaluateTree,
    Evaluation.evaluateLeaf, Draft.start, hresolve, happly, bind, Except.bind]
  cases Operator.valueFor (some Converters.builtIn) midnight .bigInteger amount <;> rfl

/-- The double of `-2^63`. -/
def least : Binary64 :=
  ⟨true, 1086 <<< 52, by decide⟩

/-- The amount next below `-2^63` is refused as a string, and as a token it becomes `-2^63`. -/
theorem takes_below_least :
    ∃ n, Json.Document.ofText? "-9223372036854775809" = some (.number n) ∧
      endpoint.evaluate midnight ⟨some (below (.number n)), []⟩ =
        .ok (select (.integer (-9223372036854775808))) ∧
      endpoint.evaluate midnight ⟨some (below (.string "-9223372036854775809")), []⟩ =
        .error (.conversion (.string "-9223372036854775809") .bigInteger (.integer .tooSmall)) := by
  have htext :
      "-9223372036854775809" = String.ofList (Text.signedDigits (-9223372036854775809)) := by
    decide +kernel
  have hnumber : (Json.Numeral.ofInt (-9223372036854775809)).toNumber? = some (.float least) := by
    decide +kernel
  have hinteger : Value.integerOf? (.float least) = some (-9223372036854775808) := by
    decide +kernel
  have htoken : Value.readInteger (.number (.float least)) = .ok (-9223372036854775808) := by
    simp only [Value.readInteger, hinteger]
  have hdigits : Value.readInteger (.string "-9223372036854775809") =
      .error (.integer .tooSmall) := by
    rw [htext]
    exact Value.readInteger_digits_beyond (by decide)
  refine ⟨.float least, ?_, ?_, ?_⟩
  · rw [htext, Json.Document.ofText?_signedDigits, hnumber]
    rfl
  · rw [evaluate_below, Operator.valueFor_integer rfl rfl htoken]
    rfl
  · rw [evaluate_below, Operator.valueFor_integer_error rfl rfl hdigits (by simp)]
    rfl

end Ledger

end FilterSelect
