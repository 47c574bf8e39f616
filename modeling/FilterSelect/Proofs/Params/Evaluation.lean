/-
Evaluating request parameters.

Parameters are evaluated by reading them as a query first.  The parser is given the names of
the registered operators and refuses every other one, so the query it reads never fails over
an operator: a fault of this kind can only come from the configuration itself, which is asked
for its operators before anything is read.

That is the one difference to evaluating the same query, where the operators are asked for
last, after the model and the session.  With everything in place, the two evaluations are
the same.
-/
import FilterSelect.Proofs.Configuration.Operators
import FilterSelect.Proofs.Evaluation.Faults
import FilterSelect.Proofs.Params.Keys

namespace FilterSelect

/-! ### Queries with known operators

The parser names an operator for every filter, and only registered ones.  So the check made
before anything is built finds nothing, and what is reported later is never a fault of a node.
-/

namespace Evaluation

variable {e : Evaluation}

private theorem check_leaf {l : Leaf} {operator : String} (hfilter : l.filter = some operator)
    (hoperator : operator ∈ e.registry.names) : e.check (.leaf l) = .ok () := by
  obtain ⟨op, hop, rfl⟩ := List.mem_map.mp hoperator
  have hfound : (e.registry.find? op.name).isSome = true := by
    rw [← Registry.contains_eq_isSome_find?, Registry.contains, List.any_eq_true]
    exact ⟨op, hop, beq_self_eq_true _⟩
  obtain ⟨found, hfind⟩ := Option.isSome_iff_exists.mp hfound
  rw [check, operatorOf, hfilter, refOf, Registry.get, Registry.nameOf, hfind]
  rfl

private theorem checkQuery_conjunction {leaves : List Leaf}
    (hleaves : ∀ l ∈ leaves, e.check (.leaf l) = .ok ()) :
    e.checkQuery ⟨Params.conjunction leaves, []⟩ = .ok () := by
  cases leaves with
  | nil => rfl
  | cons first rest =>
      obtain ⟨hfirst, hrest⟩ := List.forall_mem_cons.mp hleaves
      clear hleaves
      rw [checkQuery, Params.conjunction]
      -- any tree that passes the check will do as the first operand
      generalize FilterTree.leaf first = tree at hfirst
      induction rest generalizing tree with
      | nil => exact hfirst
      | cons l rest ih =>
          obtain ⟨hl, hrest⟩ := List.forall_mem_cons.mp hrest
          apply ih hrest (.and tree (.leaf l))
          rw [check, hfirst]
          exact hl

end Evaluation

namespace Endpoint

variable {e : Endpoint} {clock : DateTime} {params : Params} {registry : Registry}

private theorem isUpFront_model {fault : Fault} (h : e.model = .error fault) :
    fault.isUpFront = false := by
  unfold model at h
  split at h
  · cases h
    rfl
  · split at h <;> cases h
    rfl

private theorem isUpFront_session {fault : Fault} (h : e.session = .error fault) :
    fault.isUpFront = false := by
  unfold session at h
  split at h
  · cases h
  · split at h
    · cases h
      rfl
    · rename_i hmodel
      cases h
      exact isUpFront_model hmodel

private theorem prepared_of_isUpFront {query : Query} {fault : Fault}
    (h : e.evaluate clock query = .error fault) (hfault : fault.isUpFront = true) :
    ∃ model session, e.model = .ok model ∧ e.session = .ok session := by
  cases hsession : e.session with
  | error reason =>
      rw [evaluate, evaluateFrom_of_session hsession] at h
      cases h
      rw [isUpFront_session hsession] at hfault
      cases hfault
  | ok session =>
      cases hmodel : e.model with
      | error reason =>
          rw [evaluate, evaluateFrom_of_model hmodel] at h
          cases h
          rw [isUpFront_model hmodel] at hfault
          cases hfault
      | ok model => exact ⟨model, session, rfl, rfl⟩

private theorem isUpFront_evaluate {query : Query} {fault : Fault}
    (hregistry : e.config.registry = .ok registry)
    (hcheck : ∀ evaluation : Evaluation, evaluation.registry = registry →
      evaluation.checkQuery query = .ok ())
    (h : e.evaluate clock query = .error fault) : fault.isUpFront = false := by
  rw [Bool.eq_false_iff]
  intro hfault
  obtain ⟨model, session, hmodel, hsession⟩ := prepared_of_isUpFront h hfault
  rw [evaluate_eq hsession (evaluation_eq hmodel hregistry)] at h
  have hlate := (Evaluation.checkQuery_iff_evaluate query).mp (hcheck _ rfl) fault h
  rw [hlate] at hfault
  cases hfault

theorem evaluateParams_of_readLeaves {leaves : List Leaf}
    (hregistry : e.config.registry = .ok registry)
    (h : Params.readLeaves registry.names registry.defaultName params.items = .ok leaves) :
    e.evaluateParams clock Params.bracketed params =
      e.evaluate clock ⟨Params.conjunction leaves, []⟩ := by
  simp only [evaluateParams, hregistry, bind, Except.bind, Params.bracketed, h]

private theorem evaluateParams_of_fault {fault : Params.Fault}
    (hregistry : e.config.registry = .ok registry)
    (h : Params.readLeaves registry.names registry.defaultName params.items = .error fault) :
    e.evaluateParams clock Params.bracketed params = .error (.invalidParams fault.message) := by
  simp only [evaluateParams, hregistry, bind, Except.bind, Params.bracketed, h]

theorem evaluateParams_unregistered {before after : List Param} {p : Param}
    {name operator : String} (hregistry : e.config.registry = .ok registry)
    (hparams : params.items = before ++ p :: after)
    (hbefore : ∀ q ∈ before, ∃ name operator,
      Params.readKey registry.defaultName q.key = .ok (name, operator) ∧ operator ∈ registry.names)
    (hkey : Params.readKey registry.defaultName p.key = .ok (name, operator))
    (hoperator : operator ∉ registry.names) :
    e.evaluateParams clock Params.bracketed params =
      .error (.invalidParams ("unknown filter " ++ operator)) := by
  have hleaves : Params.readLeaves registry.names registry.defaultName params.items =
      .error (.unknownFilter operator) := by
    rw [hparams]
    exact Params.readLeaves_unregistered hbefore hkey hoperator
  exact evaluateParams_of_fault hregistry hleaves

/-- Parameters do not fail over a node, whatever their keys. -/
theorem isUpFront_evaluateParams {fault : Fault} (hregistry : e.config.registry = .ok registry)
    (h : e.evaluateParams clock Params.bracketed params = .error fault) :
    fault.isUpFront = false := by
  cases hleaves : Params.readLeaves registry.names registry.defaultName params.items with
  | error reason =>
      rw [evaluateParams_of_fault hregistry hleaves] at h
      cases h
      rfl
  | ok leaves =>
      rw [evaluateParams_of_readLeaves hregistry hleaves] at h
      refine isUpFront_evaluate hregistry ?_ h
      rintro evaluation rfl
      apply Evaluation.checkQuery_conjunction
      intro l hl
      obtain ⟨operator, hoperator, hfilter⟩ := Params.exists_operator_of_readLeaves hleaves l hl
      exact Evaluation.check_leaf hfilter hoperator

private theorem isUpFront_registry {fault : Fault} (h : e.config.registry = .error fault) :
    fault.isUpFront = true := by
  obtain ⟨name, -, -, rfl⟩ := Configuration.registry_eq_error_iff.mp h
  rfl

/-- Operators that are missing are reported if and only if the model and the session are there. -/
theorem evaluate_eq_registry_error_iff {fault : Fault}
    (hregistry : e.config.registry = .error fault) {query : Query} :
    e.evaluate clock query = .error fault ↔
      ∃ model session, e.model = .ok model ∧ e.session = .ok session := by
  constructor
  · intro h
    exact prepared_of_isUpFront h (isUpFront_registry hregistry)
  · rintro ⟨model, session, hmodel, hsession⟩
    exact evaluateFrom_of_registry hmodel hsession hregistry

/--
**Parameters with keys in brackets are evaluated as the query that they stand for.**

This is so if the endpoint has its operators and they include those that the keys name, with
the default one where a key names none.  Whatever the keys are, the first operator that is
missing is reported.  If the endpoint does not have its operators, this is reported for all
parameters.  For a query it is reported if and only if the model and the session are there,
and otherwise what is missing of these is.

Where the endpoint has its operators, no parameters at all fail over a node of their query.
-/
theorem evaluateParams_bracketed (e : Endpoint) (clock : DateTime) :
    (∀ registry, e.config.registry = .ok registry →
      (∀ (filters : List FilterParam) (params : Params), (∀ f ∈ filters, f.Legible) →
        params.items = filters.map FilterParam.param →
          ((∀ f ∈ filters, f.operatorName registry.defaultName ∈ registry.names) →
            e.evaluateParams clock Params.bracketed params =
              e.evaluate clock ⟨FilterTree.leftNested
                (filters.map (FilterParam.leaf · registry.defaultName)), []⟩) ∧
          (∀ before f after, filters = before ++ f :: after →
            (∀ g ∈ before, g.operatorName registry.defaultName ∈ registry.names) →
            f.operatorName registry.defaultName ∉ registry.names →
              e.evaluateParams clock Params.bracketed params = .error
                (.invalidParams ("unknown filter " ++ f.operatorName registry.defaultName)))) ∧
      (∀ (params : Params) before p after, params.items = before ++ p :: after →
        (∀ q ∈ before, ∃ name operator,
          Params.readKey registry.defaultName q.key = .ok (name, operator) ∧
            operator ∈ registry.names) →
        ∀ name operator, Params.readKey registry.defaultName p.key = .ok (name, operator) →
          operator ∉ registry.names →
            e.evaluateParams clock Params.bracketed params =
              .error (.invalidParams ("unknown filter " ++ operator))) ∧
      ∀ params fault, e.evaluateParams clock Params.bracketed params = .error fault →
        fault.isUpFront = false) ∧
    ∀ fault, e.config.registry = .error fault →
      (∀ params, e.evaluateParams clock Params.bracketed params = .error fault) ∧
      ∀ query, (e.evaluate clock query = .error fault ↔
          ∃ model session, e.model = .ok model ∧ e.session = .ok session) ∧
        ∀ reason, e.model = .error reason ∨ e.session = .error reason →
          e.evaluate clock query = .error reason := by
  refine ⟨fun registry hregistry => ⟨?_, ?_, ?_⟩, fun fault hregistry => ⟨?_, ?_⟩⟩
  · intro filters params hfilters hparams
    constructor
    · intro hnames
      have hleaves := Params.readLeaves_params hfilters hnames
      rw [← hparams] at hleaves
      rw [evaluateParams_of_readLeaves hregistry hleaves, Params.conjunction_eq_leftNested]
    · rintro before f after rfl hnames hname
      have hkey : ∀ g ∈ before ++ f :: after, Params.readKey registry.defaultName g.param.key =
          .ok (g.name, g.operatorName registry.defaultName) :=
        fun g hg => Params.readKey_key (hfilters g hg) registry.defaultName
      rw [List.map_append, List.map_cons] at hparams
      refine evaluateParams_unregistered hregistry hparams ?_ (hkey f (by simp)) hname
      intro q hq
      obtain ⟨g, hg, rfl⟩ := List.mem_map.mp hq
      exact ⟨_, _, hkey g (List.mem_append_left _ hg), hnames g hg⟩
  · intro params before p after hparams hbefore name operator hkey hoperator
    exact evaluateParams_unregistered hregistry hparams hbefore hkey hoperator
  · exact fun params fault => isUpFront_evaluateParams hregistry
  · intro params
    simp only [evaluateParams, hregistry, bind, Except.bind]
  · intro query
    refine ⟨evaluate_eq_registry_error_iff hregistry, ?_⟩
    rintro reason (hmodel | hsession)
    · exact evaluateFrom_of_model hmodel
    · exact evaluateFrom_of_session hsession

end Endpoint

/-! ### Parameters of the library -/

namespace Library

/-- Two filters; the bracket at the end of the second name belongs to it. -/
def filters (operator : String) : List FilterParam :=
  [⟨"author", none, "anonymous"⟩, ⟨"title]", some operator, "a%"⟩]

/-- The endpoint of the library, with titles under another name. -/
def bracketEndpoint : Endpoint where
  schema := scope.schema
  config := (endpoint .sqlite).config.bind "title]" (.simple "title")
  ownSession := none

/-- The endpoint of nothing whose default operator is not registered. -/
def bareEndpoint : Endpoint where
  schema := Directory.empty
  config := { Configuration.empty with defaultFilter := some "nope" }
  ownSession := none

/-- The parameters of both filters. -/
def params (operator : String) : Params :=
  Directory.ofList ((filters operator).map FilterParam.param)

/-- A registered operator, one that is not, and an endpoint without operators. -/
theorem evaluateParams_filters :
    bracketEndpoint.evaluateParams noon Params.bracketed (params "like") =
        bracketEndpoint.evaluate noon ⟨some (.and (.leaf ⟨"author", some "eq", .string "anonymous"⟩)
          (.leaf ⟨"title]", some "like", .string "a%"⟩)), []⟩ ∧
      bracketEndpoint.evaluateParams noon Params.bracketed (params "near") =
        .error (.invalidParams "unknown filter near") ∧
      (Fault.invalidParams "unknown filter near").isUpFront = false ∧
      bareEndpoint.evaluateParams noon Params.bracketed Directory.empty =
        .error (.unknownFilter "nope") := by
  have hregistry : bracketEndpoint.config.registry = .ok Registry.builtIn := rfl
  obtain ⟨hread, -, hfaults⟩ :=
    (bracketEndpoint.evaluateParams_bracketed noon).1 Registry.builtIn hregistry
  obtain ⟨hlike, -⟩ := hread (filters "like") (params "like") (by decide +kernel)
    (by decide +kernel)
  obtain ⟨-, hnear⟩ := hread (filters "near") (params "near") (by decide +kernel)
    (by decide +kernel)
  have hunknown := hnear [⟨"author", none, "anonymous"⟩] _ [] rfl (by decide +kernel)
    (by decide +kernel)
  obtain ⟨hbare, -⟩ :=
    (bareEndpoint.evaluateParams_bracketed noon).2 (.unknownFilter "nope") rfl
  exact ⟨hlike (by decide +kernel), hunknown, hfaults _ _ hunknown, hbare Directory.empty⟩

/-- Evaluating no parameters is not evaluating no filters: the operators are asked for first. -/
theorem evaluateParams_unknownDefault :
    bareEndpoint.evaluateParams noon Params.bracketed Directory.empty =
        .error (.unknownFilter "nope") ∧
      bareEndpoint.evaluate noon ⟨FilterTree.leftNested [], []⟩ = .error (.missingModel none) ∧
      bareEndpoint.evaluateParams noon Params.bracketed Directory.empty ≠
        bareEndpoint.evaluate noon ⟨FilterTree.leftNested [], []⟩ := by
  have hparams : bareEndpoint.evaluateParams noon Params.bracketed Directory.empty =
      .error (.unknownFilter "nope") := rfl
  have hquery : bareEndpoint.evaluate noon ⟨FilterTree.leftNested [], []⟩ =
      .error (.missingModel none) := rfl
  refine ⟨hparams, hquery, ?_⟩
  rw [hparams, hquery]
  simp

end Library

end FilterSelect
