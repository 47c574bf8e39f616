/-
What a registry comes to after any changes.

A registry lists operators, and changes rebuild the list: one operator is put in the place
of another, or the list is made anew from names in any order, some of them more than once.
None of that can be seen by looking operators up.  A look-up sees a map from names, and the
history of the changes alone says what that map is: a name stands for what was registered
under it last, unless a choice made afterwards left it out (`Current`).

What carries this is one lemma about a single change (`find?_change`), which says what
becomes of every look-up.  That the default stays among the operators is the other thing
that each change preserves, and choosing operators checks it for that reason.

A change that fails leaves the registry as it was, so the history has only those that
succeeded (`accomplished`).
-/
import FilterSelect.Proofs.Lists
import FilterSelect.Registry

namespace FilterSelect

namespace Registry

/-- A call that makes another registry of one. -/
inductive Change where
  | register (op : Operator)
  | withDefault (name : String)
  | subset (names : List String)
deriving DecidableEq, Repr

/-- The registry that a call makes, if it does not fail. -/
def change (r : Registry) : Change → Except Fault Registry
  | .register op => .ok (r.register op)
  | .withDefault name => r.withDefault name
  | .subset names => r.subset names

/-- The registry after a call: where the call fails, the one before. -/
def attempt (r : Registry) (c : Change) : Registry :=
  match r.change c with
  | .ok next => next
  | .error _ => r

/-- The registry after some calls, one after another. -/
def after (r : Registry) (calls : List Change) : Registry :=
  calls.foldl attempt r

/-- Those of some calls that do not fail where they are made one after another. -/
def accomplished (r : Registry) : List Change → List Change
  | [] => []
  | c :: rest =>
    match r.change c with
    | .ok next => c :: next.accomplished rest
    | .error _ => r.accomplished rest

/-! ### What a history says

Only the end of a history matters to a name: the registration that no later change has touched.
So a history is read from its last change backwards.
-/

/-- Whether a change leaves alone what is registered under a name. -/
def Change.Spares (name : String) : Change → Prop
  | .register op => op.name ≠ name
  | .withDefault _ => True
  | .subset names => name ∈ names

/--
A history leaves `op` under a name: it was registered under that name, and since then no
other operator was and every choice of operators has the name.
-/
def Current (history : List Change) (name : String) (op : Operator) : Prop :=
  ∃ before later, history = before ++ .register op :: later ∧ op.name = name ∧
    ∀ c ∈ later, c.Spares name

/-- The name that a change makes the default. -/
def Change.default? : Change → Option String
  | .withDefault name => some name
  | _ => none

/-- The name that a history leaves as the default: the last one that was chosen, if any was. -/
def defaultOf (history : List Change) : String :=
  (history.filterMap Change.default?).getLast?.getD usualDefault

private theorem not_current_nil (name : String) (op : Operator) : ¬ Current [] name op := by
  rintro ⟨before, later, h, -⟩
  simp at h

private theorem current_iff {history : List Change} {name : String} {op : Operator} :
    Current history name op ↔ op.name = name ∧
      ∃ before later, history = before ++ .register op :: later ∧ ∀ c ∈ later, c.Spares name := by
  constructor
  · rintro ⟨before, later, hsplit, hname, hspares⟩
    exact ⟨hname, before, later, hsplit, hspares⟩
  · rintro ⟨hname, before, later, hsplit, hspares⟩
    exact ⟨before, later, hsplit, hname, hspares⟩

/-- One change more registers the operator or spares it. -/
theorem current_concat {history : List Change} {c : Change} {name : String} {op : Operator} :
    Current (history ++ [c]) name op ↔
      (c = .register op ∧ op.name = name) ∨ (Current history name op ∧ c.Spares name) := by
  rw [current_iff, current_iff, exists_split_append_singleton_iff, and_or_left, and_assoc,
    and_comm (b := op.name = name)]

theorem defaultOf_concat (history : List Change) (c : Change) :
    defaultOf (history ++ [c]) = c.default?.getD (defaultOf history) := by
  rw [defaultOf, getLast?_filterMap_append_singleton, Option.getD_or]
  rfl

/-! ### Names that are looked up -/

variable {r next : Registry} {c : Change} {name : String} {op : Operator}

theorem name_of_find? (h : r.find? name = some op) : op.name = name := by
  simpa using List.find?_some h

theorem contains_iff : r.contains name = true ↔ ∃ op, r.find? name = some op := by
  rw [contains_eq_isSome_find?, Option.isSome_iff_exists]

theorem get_eq_ok_iff {ref : OperatorRef} :
    r.get ref = .ok op ↔ r.find? (r.nameOf ref) = some op := by
  unfold get
  split <;> simp_all

private theorem get_eq_error {ref : OperatorRef} (h : ∀ op, r.find? (r.nameOf ref) ≠ some op) :
    r.get ref = .error (.unknownFilter (r.nameOf ref)) := by
  rw [get, Option.eq_none_iff_forall_ne_some.mpr h]

theorem getAll_cons {first : String} {rest : List String} {operators : List Operator}
    (h : r.getAll (first :: rest) = .ok operators) :
    ∃ op others, r.find? first = some op ∧ r.getAll rest = .ok others ∧
      operators = op :: others := by
  rw [getAll] at h
  cases hfirst : r.get (.name first) with
  | error fault => simp [hfirst] at h
  | ok op =>
      cases hrest : r.getAll rest with
      | error fault => simp [hfirst, hrest, Except.map] at h
      | ok others =>
          simp only [hfirst, hrest, Except.map, Except.ok.injEq] at h
          exact ⟨op, others, get_eq_ok_iff.mp hfirst, rfl, h.symm⟩

/-- Of the operators of some names, each is found under its own. -/
theorem find?_getAll {names : List String} {operators : List Operator}
    (h : r.getAll names = .ok operators) (name : String) :
    (operators.find? fun op => op.name == name) = if name ∈ names then r.find? name else none := by
  induction names generalizing operators with
  | nil =>
      cases h
      simp
  | cons first rest ih =>
      obtain ⟨op, others, hfound, hrest, rfl⟩ := getAll_cons h
      have hname := name_of_find? hfound
      by_cases hsame : first = name
      · subst hsame
        simp [hname, hfound]
      · have hother : (op.name == name) = false := by simpa [hname] using hsame
        rw [List.find?_cons, hother, ih hrest]
        simp [Ne.symm hsame]

/-! ### One change

A change says of every name whether it registers an operator under it, and whether it spares
the one that is there.
-/

theorem subset_eq_ok {names : List String} (h : r.subset names = .ok next) :
    r.getAll names = .ok next.operators ∧ next.defaultName = r.defaultName ∧
      next.contains next.defaultName = true := by
  unfold subset at h
  cases hall : r.getAll names with
  | error fault =>
      rw [hall] at h
      cases h
  | ok operators =>
      simp only [hall] at h
      split at h
      · rename_i hdefault
        cases h
        exact ⟨rfl, rfl, hdefault⟩
      · cases h

theorem withDefault_eq_ok {name : String} (h : r.withDefault name = .ok next) :
    r.contains name = true ∧ next = { r with defaultName := name } := by
  unfold withDefault at h
  split at h
  · rename_i hcontains
    cases h
    exact ⟨hcontains, rfl⟩
  · cases h

/-- After a change, an operator is found if it was registered or if it was found and is spared. -/
theorem find?_change (h : r.change c = .ok next) : next.find? name = some op ↔
    (c = .register op ∧ op.name = name) ∨ (r.find? name = some op ∧ c.Spares name) := by
  cases c with
  | register new =>
      cases h
      rw [find?_register]
      by_cases hname : new.name = name
      · simp only [if_pos hname, Option.some.injEq, Change.register.injEq, Change.Spares]
        constructor
        · rintro rfl
          exact Or.inl ⟨rfl, hname⟩
        · rintro (⟨hnew, -⟩ | ⟨-, hne⟩)
          · exact hnew
          · exact absurd hname hne
      · simp only [if_neg hname, Change.register.injEq, Change.Spares]
        constructor
        · intro hfound
          exact Or.inr ⟨hfound, hname⟩
        · rintro (⟨rfl, hop⟩ | ⟨hfound, -⟩)
          · exact absurd hop hname
          · exact hfound
  | withDefault new =>
      obtain ⟨-, rfl⟩ := withDefault_eq_ok h
      simp [find?, Change.Spares]
  | subset names =>
      obtain ⟨hall, -, -⟩ := subset_eq_ok h
      rw [find?, find?_getAll hall]
      by_cases hname : name ∈ names <;> simp [hname, Change.Spares]

theorem defaultName_change (h : r.change c = .ok next) :
    next.defaultName = c.default?.getD r.defaultName := by
  cases c with
  | register new =>
      cases h
      rfl
  | withDefault new =>
      obtain ⟨-, rfl⟩ := withDefault_eq_ok h
      rfl
  | subset names => exact (subset_eq_ok h).2.1

theorem contains_default_change (hdefault : r.contains r.defaultName = true)
    (h : r.change c = .ok next) : next.contains next.defaultName = true := by
  cases c with
  | register new =>
      cases h
      rw [contains_iff] at hdefault ⊢
      obtain ⟨op, hop⟩ := hdefault
      show ∃ op, (r.register new).find? r.defaultName = some op
      rw [find?_register]
      split
      · exact ⟨new, rfl⟩
      · exact ⟨op, hop⟩
  | withDefault new =>
      obtain ⟨hnew, rfl⟩ := withDefault_eq_ok h
      exact hnew
  | subset names => exact (subset_eq_ok h).2.2

/-! ### Any number of changes

A call that fails is no part of the history, so the induction is on the calls and the history
grows with those that succeed.
-/

/-- A registry is what a history of changes says. -/
structure Records (history : List Change) (r : Registry) : Prop where
  find : ∀ name op, r.find? name = some op ↔ Current history name op
  default : r.defaultName = defaultOf history

private theorem records_empty : Records [] empty where
  find := by
    intro name op
    simp [find?, empty, not_current_nil]
  default := rfl

theorem Records.change {history : List Change} (hr : Records history r)
    (h : r.change c = .ok next) : Records (history ++ [c]) next where
  find := by
    intro name op
    rw [find?_change h, current_concat, hr.find]
  default := by rw [defaultName_change h, defaultOf_concat, hr.default]

/-- What any calls come to is what those of them that did not fail say. -/
theorem Records.after {history : List Change} (hr : Records history r) (calls : List Change) :
    Records (history ++ r.accomplished calls) (r.after calls) := by
  induction calls generalizing r history with
  | nil => simpa [accomplished, Registry.after] using hr
  | cons c rest ih =>
      rw [Registry.after, List.foldl_cons, ← Registry.after, accomplished, attempt]
      cases hc : r.change c with
      | error fault => exact ih hr
      | ok next =>
          have hrest := ih (hr.change hc)
          rwa [List.append_assoc, List.singleton_append] at hrest

theorem contains_default_after (hdefault : r.contains r.defaultName = true)
    (calls : List Change) : (r.after calls).contains (r.after calls).defaultName = true := by
  induction calls generalizing r with
  | nil => exact hdefault
  | cons c rest ih =>
      rw [Registry.after, List.foldl_cons, ← Registry.after, attempt]
      cases hc : r.change c with
      | error fault => exact ih hdefault
      | ok next => exact ih (contains_default_change hdefault hc)

/-! ### Starting from the comparisons -/

/-- The registrations that the built-in registry is made by. -/
def builtInHistory : List Change :=
  Comparison.all.map fun c => .register (.builtIn c)

theorem records_builtIn : Records builtInHistory builtIn :=
  records_empty.after builtInHistory

/--
**Operators are looked up as in a map from names, with a default that is always found.**

After any calls, failing ones included, a look-up by name yields the operator that was
registered under the name last if every choice of operators since then has the name, and
otherwise it fails over that name.  The default is the name that was chosen last, or the
usual one, and it is found.  A look-up by an operator is one by its name, and a reference
that is found stands for the operators with the name of what it is found as.
-/
theorem get_after (calls : List Change) :
    let r := builtIn.after calls
    let history := builtInHistory ++ builtIn.accomplished calls
    (∀ name op, r.get (.name name) = .ok op ↔ Current history name op) ∧
    (∀ name, (∀ op, ¬ Current history name op) →
      r.get (.name name) = .error (.unknownFilter name)) ∧
    (∀ name, r.contains name = true ↔ ∃ op, r.get (.name name) = .ok op) ∧
    (∃ op, r.get .default = .ok op ∧ op.name = r.defaultName) ∧
    r.defaultName = defaultOf history ∧
    (∀ op, r.get (.operator op) = r.get (.name op.name)) ∧
    ∀ ref op found, r.get ref = .ok found → (r.refersTo ref op = true ↔ op.name = found.name) := by
  intro r history
  have hrecords : Records history r := records_builtIn.after calls
  have hdefault : r.contains r.defaultName = true := contains_default_after rfl calls
  refine ⟨?_, ?_, ?_, ?_, hrecords.default, fun op => rfl, ?_⟩
  · intro name op
    rw [get_eq_ok_iff]
    exact hrecords.find name op
  · intro name hnone
    refine get_eq_error ?_
    intro op hop
    exact hnone op ((hrecords.find name op).mp hop)
  · intro name
    simp only [contains_iff, get_eq_ok_iff, nameOf]
  · obtain ⟨op, hop⟩ := contains_iff.mp hdefault
    exact ⟨op, get_eq_ok_iff.mpr hop, name_of_find? hop⟩
  · intro ref op found hfound
    rw [refersTo, beq_iff_eq, name_of_find? (get_eq_ok_iff.mp hfound)]

/-- An operator that is kept by a choice, made the default and then replaced. -/
theorem get_after_replaced :
    let near : Operator := .host "near" .like true
    let calls : List Change := [.register (.host "near" .eq true), .subset ["near", "eq", "near"],
      .withDefault "gt", .withDefault "near", .register near]
    let r := builtIn.after calls
    r.get .default = .ok near ∧ r.contains "gt" = false ∧
    (r.get (.name "near") = .ok near ↔
      Current (builtInHistory ++ builtIn.accomplished calls) "near" near) ∧
    (r.refersTo .default (.host "near" .gt false) = true ↔ "near" = near.name) ∧
    r.get (.name "gt") = .error (.unknownFilter "gt") := by
  intro near calls r
  have hdefault : r.get .default = .ok near := rfl
  have hgt : r.contains "gt" = false := rfl
  obtain ⟨hget, hunknown, hcontains, -, -, -, hrefers⟩ := get_after calls
  refine ⟨hdefault, hgt, hget "near" near, hrefers .default _ near hdefault, hunknown "gt" ?_⟩
  intro op hop
  have hyes := (hcontains "gt").mpr ⟨op, (hget "gt" op).mpr hop⟩
  exact absurd (hgt.symm.trans hyes) Bool.false_ne_true

end Registry

end FilterSelect
