/-
Attempts at names, one after another.

Applying a name yields a draft only where the name resolves, so a caller who goes on
after a failure goes on with the draft it had.  A resolver that changes its statement
in place has no draft to go back to: what it did before it failed would stay done.
`Scope.applying` is that resolver.  It adds its joins one at a time, in a state that
outlives failures, and it comes to the same (`Draft.attempt_eq`), because it resolves
first and nothing can fail afterwards.

A transcript is what attempts at any names have come to, failures included.  That it
follows a plan is what every step preserves (`follows_attempt`), and `Consistent` is
what can be read off a plan: one join for each path that the applied names use, numbered
by its place and based on the root or on a join before it, and fields that no later
attempt changes.
-/
import FilterSelect.Proofs.Joins.Alias
import FilterSelect.Proofs.Joins.Resolution

namespace FilterSelect

/-! ### A resolver that changes its statement in place

The state of the computation is the draft, and a failure does not undo what was written there
before it.
-/

/-- Computations on a draft, which stays as they leave it also where they fail. -/
abbrev Drafting := ExceptT NameFault (StateM Draft)

namespace Draft

/-- Adds one join to the statement and lists what it brings in. -/
def join (draft : Draft) (p : PendingJoin) : Draft where
  select := { draft.select with joins := draft.select.joins ++ [p.join] }
  joined := draft.joined ++ [p.joined]

private theorem foldl_join (pending : List PendingJoin) (draft : Draft) :
    pending.foldl join draft =
      { select := { draft.select with joins := draft.select.joins ++ pending.map PendingJoin.join }
        joined := draft.joined ++ pending.map PendingJoin.joined } := by
  induction pending generalizing draft with
  | nil => simp
  | cons p rest ih => simp [ih, join]

/-- Adds joins one at a time. -/
def joinAll (pending : List PendingJoin) : Drafting PUnit :=
  pending.forM fun p => modify (·.join p)

private theorem run_joinAll (pending : List PendingJoin) (draft : Draft) :
    (joinAll pending).run.run draft = (.ok ⟨⟩, pending.foldl join draft) := by
  induction pending generalizing draft with
  | nil => rfl
  | cons p rest ih => exact ih (draft.join p)

end Draft

/-- Resolves a name in the draft at hand, then adds the joins that it lacks one by one. -/
def Scope.applying (scope : Scope) (name : String) : Drafting Field := do
  let draft ← get
  let resolution ← liftExcept (scope.resolve draft.joined name)
  Draft.joinAll resolution.pending
  return resolution.field

namespace Draft

/-- What applying a name answers, and the draft that it leaves. -/
def attempt (scope : Scope) (draft : Draft) (name : String) : Except NameFault Field × Draft :=
  (scope.applying name).run.run draft

/-- An attempt that fails leaves the draft as it was, and any other comes to applying the name. -/
theorem attempt_eq (scope : Scope) (draft : Draft) (name : String) :
    draft.attempt scope name =
      match draft.apply scope name with
      | .error fault => (.error fault, draft)
      | .ok (field, next) => (.ok field, next) := by
  unfold attempt Draft.apply Scope.applying
  have hget : ∀ next : Draft → Drafting Field,
      (get >>= next).run.run draft = (next draft).run.run draft := fun _ => rfl
  rw [hget]
  cases scope.resolve draft.joined name with
  | error fault => rfl
  | ok resolution =>
      show (joinAll resolution.pending >>= fun _ => pure resolution.field).run.run draft = _
      rw [ExceptT.run_bind, StateT.run_bind, run_joinAll, foldl_join]
      rfl

end Draft

/-! ### Transcripts

A name that was applied keeps the field that was answered.  Whether that field is still right
after further attempts is a matter of the plan, which only grows.
-/

/-- What attempts at names, one after another, have come to. -/
structure Transcript where
  /-- The names that were applied, each with the field that it answered. -/
  applied : List (String × Field)
  draft : Draft
deriving DecidableEq

namespace Transcript

/-- One more attempt. -/
def attempt (scope : Scope) (t : Transcript) (name : String) : Transcript :=
  match t.draft.attempt scope name with
  | (.error _, draft) => { t with draft }
  | (.ok field, draft) => ⟨t.applied ++ [(name, field)], draft⟩

/-- Attempts at some names, starting from a base statement. -/
def ofNames (scope : Scope) (base : Select) (names : List String) : Transcript :=
  names.foldl (attempt scope) ⟨[], .start base⟩

/-- The names that were applied. -/
def names (t : Transcript) : List String :=
  t.applied.map Prod.fst

/-- The paths of the entities that have been joined. -/
def paths (t : Transcript) : List (List String) :=
  t.draft.joined.map JoinedEntity.path

/-- A transcript is the base statement with the joins of a plan, made for the names applied. -/
structure Follows (scope : Scope) (base : Select) (plan : List PendingJoin) (t : Transcript) :
    Prop where
  planned : scope.Planned plan
  joined : t.draft.joined = plan.map PendingJoin.joined
  select : t.draft.select = { base with joins := base.joins ++ plan.map PendingJoin.join }
  served : pathsOf plan = scope.usedPaths t.names
  /-- Each field is the one that the paths of the plan determine, and more paths change nothing. -/
  fields : ∀ name field, (name, field) ∈ t.applied →
    ∀ used, pathsOf plan <+: used → scope.field? used name = some field

variable {scope : Scope} {base : Select} {plan : List PendingJoin} {t : Transcript}

theorem attempt_of_error {name : String} {fault : NameFault} (h : t.Follows scope base plan)
    (hname : scope.destination name = .error fault) : t.attempt scope name = t := by
  have hresolve := h.planned.resolve_error hname
  rw [attempt, Draft.attempt_eq, Draft.apply, h.joined, hresolve]

theorem follows_attempt (h : t.Follows scope base plan) (name : String) :
    ∃ more, (t.attempt scope name).Follows scope base (plan ++ more) := by
  cases hname : scope.destination name with
  | error fault =>
      refine ⟨[], ?_⟩
      rw [attempt_of_error h hname, List.append_nil]
      exact h
  | ok target =>
      obtain ⟨path, column⟩ := target
      obtain ⟨resolution, hresolve, -, hplanned, hpaths, hfield⟩ := h.planned.resolve_ok hname
      have hattempt : t.attempt scope name =
          ⟨t.applied ++ [(name, resolution.field)], t.draft.commit resolution⟩ := by
        rw [attempt, Draft.attempt_eq, Draft.apply, h.joined, hresolve]
      rw [hattempt]
      refine ⟨resolution.pending, hplanned, ?_, ?_, ?_, ?_⟩
      · simp [Draft.commit, h.joined]
      · simp [Draft.commit, h.select]
      · have hnames : (⟨t.applied ++ [(name, resolution.field)], t.draft.commit resolution⟩ :
            Transcript).names = t.names ++ [name] := by simp [names]
        rw [hnames, hpaths, h.served, ← Scope.pathOf_of_destination hname, Scope.usedPaths,
          eraseDups_eraseDups_append, Scope.usedPaths, Scope.visits_append, Scope.visits_singleton]
      · intro other field hmem used hused
        rcases List.mem_append.mp hmem with hold | hnew
        · have hearlier : pathsOf plan <+: used :=
            List.IsPrefix.trans (by simp) hused
          exact h.fields other field hold used hearlier
        · cases List.mem_singleton.mp hnew
          exact hfield used hused

theorem follows_ofNames (scope : Scope) (base : Select) (names : List String) :
    ∃ plan, (ofNames scope base names).Follows scope base plan := by
  have hrun : ∀ t plan, t.Follows scope base plan →
      ∃ plan', (names.foldl (attempt scope) t).Follows scope base plan' := by
    induction names with
    | nil =>
        intro t plan h
        exact ⟨plan, h⟩
    | cons name rest ih =>
        intro t plan h
        obtain ⟨more, hnext⟩ := follows_attempt h name
        exact ih _ _ hnext
  refine hrun _ [] ⟨.nil, rfl, ?_, rfl, by simp⟩
  simp [Draft.start]

end Transcript

end FilterSelect
