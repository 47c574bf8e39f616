/-
Schemas without loose ends.

A schema file is accepted if every relationship leads to an entity of the schema.  That is
asked once of the schema as a whole, after entities of the same name have replaced each
other, so a relationship counts only if its entity survives, and only a survivor can be
its target (`toSchema_eq_ok_iff`).

Resolving a name asks for targets one at a time, along a path, and answers with the same
fault whether an entity has no such relationship or the relationship has no target.  In an
accepted schema the second cause cannot arise.  Every path stays among entities of the
schema (`Schema.Leads.mem`), whichever of them it starts from, and there the whole-schema
check has been made (`follow_eq_error_iff`).  What was joined before does not matter: a
name fails as its path fails (`resolve_eq_error_iff`).
-/
import FilterSelect.Proofs.Directory.Listing
import FilterSelect.Proofs.Joins.Attempts
import FilterSelect.Schema.File

namespace FilterSelect

/-! ### What names denote on an entity

Columns are asked for a name before relationships are, so a column hides every relationship of
its name.
-/

namespace Entity

variable {e : Entity} {name : String}

private theorem relationship?_eq (e : Entity) (name : String) :
    e.relationship? name =
      if ∃ c ∈ e.columns, c.name = name then none
      else e.relationships.find? fun r => r.name == name := by
  have hcolumn : (∃ c ∈ e.columns, c.name = name) ↔
      (e.columns.find? fun c => c.name == name).isSome = true := by
    simp
  rw [relationship?, attribute?, if_congr hcolumn rfl rfl]
  cases e.columns.find? fun c => c.name == name with
  | some c => rfl
  | none => cases e.relationships.find? fun r => r.name == name <;> rfl

theorem relationship?_eq_some_iff {r : Relationship} : e.relationship? name = some r ↔
    (∀ c ∈ e.columns, c.name ≠ name) ∧
      (e.relationships.find? fun r => r.name == name) = some r := by
  rw [relationship?_eq]
  split
  · rename_i hcolumn
    obtain ⟨c, hc, hname⟩ := hcolumn
    simp only [reduceCtorEq, false_iff, not_and]
    intro hvisible
    exact absurd hname (hvisible c hc)
  · rename_i hcolumn
    rw [and_iff_right]
    intro c hc hname
    exact hcolumn ⟨c, hc, hname⟩

theorem relationship?_eq_none_iff : e.relationship? name = none ↔
    (∀ r ∈ e.relationships, r.name ≠ name) ∨ ∃ c ∈ e.columns, c.name = name := by
  rw [relationship?_eq]
  split
  · rename_i hcolumn
    exact iff_of_true rfl (Or.inr hcolumn)
  · rename_i hcolumn
    rw [or_iff_left hcolumn, List.find?_eq_none]
    simp

end Entity

/-! ### Where paths lead

Being led along a path is a relation, and `reach` computes it.  The one way to fail is a
segment that cannot be followed, with all segments before it followed.
-/

namespace Schema

/-- A path leads from one entity to another along relationships that no column hides. -/
inductive Leads (schema : Schema) : Entity → List String → Entity → Prop
  | here (e : Entity) : Leads schema e [] e
  | along {near next far : Entity} {segment : String} {r : Relationship} {rest : List String}
      (visible : ∀ c ∈ near.columns, c.name ≠ segment)
      (first : (near.relationships.find? fun r => r.name == segment) = some r)
      (target : schema.find? r.target = some next)
      (onward : Leads schema next rest far) : Leads schema near (segment :: rest) far

/-- Every relationship of every entity has its target in the schema. -/
def Closed (schema : Schema) : Prop :=
  ∀ e ∈ schema.items, ∀ r ∈ e.relationships, ∃ target, schema.find? r.target = some target

variable {schema : Schema} {near far : Entity} {path : List String}

theorem Leads.mem (h : schema.Leads near path far) (hnear : near ∈ schema.items) :
    far ∈ schema.items := by
  induction h with
  | here e => exact hnear
  | along visible first target onward ih => exact ih (List.mem_of_find?_eq_some target)

end Schema

namespace Scope

variable {scope : Scope} {near far : Entity} {segment name : String} {path : List String}
  {fault : NameFault}

private theorem follow_eq_ok_iff {r : Relationship} :
    scope.follow near segment = .ok (r, far) ↔
      near.relationship? segment = some r ∧ scope.schema.find? r.target = some far := by
  rw [follow]
  cases hr : near.relationship? segment with
  | none => simp
  | some found =>
      dsimp only
      cases hfind : scope.schema.find? found.target with
      | none =>
          simp only [reduceCtorEq, Option.some.injEq, false_iff, not_and]
          rintro rfl
          simp [hfind]
      | some target =>
          simp only [Except.ok.injEq, Prod.mk.injEq, Option.some.injEq]
          constructor
          · rintro ⟨rfl, rfl⟩
            exact ⟨rfl, hfind⟩
          · rintro ⟨rfl, htarget⟩
            exact ⟨rfl, Option.some.inj (hfind.symm.trans htarget)⟩

theorem reach_eq_ok_iff : scope.reach near path = .ok far ↔ scope.schema.Leads near path far := by
  constructor
  · intro h
    induction path generalizing near with
    | nil =>
        cases h
        exact .here _
    | cons segment rest ih =>
        rw [reach] at h
        cases hfollow : scope.follow near segment with
        | error fault =>
            rw [hfollow] at h
            cases h
        | ok link =>
            obtain ⟨r, next⟩ := link
            rw [hfollow] at h
            obtain ⟨hr, htarget⟩ := follow_eq_ok_iff.mp hfollow
            obtain ⟨hvisible, hfirst⟩ := Entity.relationship?_eq_some_iff.mp hr
            exact .along hvisible hfirst htarget (ih h)
  · intro h
    induction h with
    | here e => rfl
    | along visible first target onward ih =>
        have hr := Entity.relationship?_eq_some_iff.mpr ⟨visible, first⟩
        rw [reach, follow_eq_ok_iff.mpr ⟨hr, target⟩]
        exact ih

/-- A path fails at the first segment that cannot be followed, with the fault there. -/
theorem reach_eq_error_iff : scope.reach near path = .error fault ↔
    ∃ before segment after there, path = before ++ segment :: after ∧
      scope.schema.Leads near before there ∧ scope.follow there segment = .error fault := by
  constructor
  · intro h
    induction path generalizing near with
    | nil => cases h
    | cons segment rest ih =>
        rw [reach] at h
        cases hfollow : scope.follow near segment with
        | error fault' =>
            rw [hfollow] at h
            cases h
            exact ⟨[], segment, rest, near, rfl, .here near, hfollow⟩
        | ok link =>
            obtain ⟨r, next⟩ := link
            rw [hfollow] at h
            obtain ⟨hr, htarget⟩ := follow_eq_ok_iff.mp hfollow
            obtain ⟨hvisible, hfirst⟩ := Entity.relationship?_eq_some_iff.mp hr
            obtain ⟨before, segment', after, there, rfl, hleads, hfails⟩ := ih h
            exact ⟨segment :: before, segment', after, there, rfl,
              .along hvisible hfirst htarget hleads, hfails⟩
  · rintro ⟨before, segment, after, there, rfl, hleads, hfails⟩
    rw [reach_append, reach_eq_ok_iff.mpr hleads]
    simp only [reach, hfails]

/-- From an entity of a closed schema, a segment fails only for want of a relationship. -/
theorem follow_eq_error_iff (hclosed : scope.schema.Closed) (hnear : near ∈ scope.schema.items) :
    scope.follow near segment = .error fault ↔
      fault = .notARelationship segment near.name ∧ near.relationship? segment = none := by
  rw [follow]
  cases hr : near.relationship? segment with
  | none => simp [eq_comm]
  | some r =>
      obtain ⟨-, hfirst⟩ := Entity.relationship?_eq_some_iff.mp hr
      obtain ⟨target, htarget⟩ := hclosed near hnear r (List.mem_of_find?_eq_some hfirst)
      simp [htarget]

/-- That a segment is no relationship is what a path comes to, not its entry or its column. -/
theorem destination_eq_notARelationship_iff {entity : String} :
    scope.destination name = .error (.notARelationship segment entity) ↔
      scope.reach scope.model (scope.pathOf name) = .error (.notARelationship segment entity) := by
  unfold destination pathOf
  cases hentry : scope.entry name with
  | error fault =>
      have hunknown : fault = .unknownField name := by
        unfold entry at hentry
        split at hentry
        · cases hentry
        · exact (Except.error.inj hentry).symm
      simp [hunknown, reach]
  | ok entry =>
      dsimp only
      cases scope.reach scope.model entry.path with
      | error fault => simp
      | ok last => cases hcolumn : last.column? entry.column <;> simp [hcolumn]

/-- Where the entities of a plan are joined, a name fails as its destination does. -/
theorem Planned.resolve_eq_error_iff {plan : List PendingJoin} (h : scope.Planned plan) :
    scope.resolve (plan.map PendingJoin.joined) name = .error fault ↔
      scope.destination name = .error fault := by
  cases hname : scope.destination name with
  | error fault' => rw [h.resolve_error hname, Except.error.injEq, Except.error.injEq]
  | ok target =>
      obtain ⟨resolution, hresolve, -⟩ := h.resolve_ok hname
      rw [hresolve]
      simp

end Scope

/-! ### Schema files

Of the entities of one name the last is filed, so whether a schema is closed is a matter of
those that no later one replaces.
-/

namespace SchemaFile

variable {file : SchemaFile} {schema : Schema}

/-- An entity of a file that no later one of its name replaces. -/
def Survives (file : SchemaFile) (e : Entity) : Prop :=
  ∃ before later, file.entities = before ++ e :: later ∧ ∀ other ∈ later, other.name ≠ e.name

/-- A file is accepted if and only if the schema of its entities is closed. -/
theorem toSchema_eq_ok_iff : file.toSchema = .ok schema ↔
    schema = Directory.ofList file.entities ∧ schema.Closed := by
  have hclosed : Schema.Closed (Directory.ofList file.entities) ↔
      (Directory.ofList file.entities : Schema).items.findSome?
        (danglingIn? (Directory.ofList file.entities)) = none := by
    simp [Schema.Closed, danglingIn?, Option.ne_none_iff_exists']
  rw [toSchema]
  constructor
  · intro h
    split at h
    · cases h
    · rename_i hnone
      cases h
      exact ⟨rfl, hclosed.mpr hnone⟩
  · rintro ⟨rfl, h⟩
    simp only [hclosed.mp h]

private theorem mem_items_iff {e : Entity} :
    e ∈ (Directory.ofList file.entities : Schema).items ↔ file.Survives e :=
  Directory.mem_ofList_iff

theorem find?_eq_some_iff {name : String} {e : Entity} :
    (Directory.ofList file.entities : Schema).find? name = some e ↔
      file.Survives e ∧ e.name = name := by
  rw [← mem_items_iff]
  constructor
  · intro h
    exact ⟨List.mem_of_find?_eq_some h, Schema.name_of_find? h⟩
  · rintro ⟨hmem, rfl⟩
    exact Directory.find?_of_mem hmem

/--
**An accepted schema has no loose ends, whichever way a name goes.**

A file is accepted if and only if every relationship of a surviving entity has the name of a
surviving entity for its target.  The entities of the schema are then the survivors, and a
path that starts at one of them only comes to entities whose relationships all have their
targets.  After any attempts at names, a name fails over a segment and an entity if and only
if the entity is the one that the segments before it lead to, and has no relationship of that
name or a column that hides it.
-/
theorem resolve_of_toSchema (file : SchemaFile) :
    ((∃ schema, file.toSchema = .ok schema) ↔
      ∀ e, file.Survives e → ∀ r ∈ e.relationships,
        ∃ target, file.Survives target ∧ target.name = r.target) ∧
    ∀ schema, file.toSchema = .ok schema →
      (∀ e, e ∈ schema.items ↔ file.Survives e) ∧
      ∀ model ∈ schema.items,
        (∀ path near, schema.Leads model path near →
          ∀ r ∈ near.relationships, ∃ target, schema.find? r.target = some target) ∧
        ∀ (bindings : Bindings) (base : Select) (names : List String)
            (name segment entity : String),
          let scope : Scope := ⟨schema, model, bindings⟩
          scope.resolve (Transcript.ofNames scope base names).draft.joined name =
              .error (.notARelationship segment entity) ↔
            ∃ before after near, scope.pathOf name = before ++ segment :: after ∧
              schema.Leads model before near ∧ near.name = entity ∧
              ((∀ r ∈ near.relationships, r.name ≠ segment) ∨
                ∃ c ∈ near.columns, c.name = segment) := by
  refine ⟨?_, ?_⟩
  · simp only [toSchema_eq_ok_iff, exists_eq_left, Schema.Closed, mem_items_iff, find?_eq_some_iff]
  · intro schema hschema
    obtain ⟨rfl, hclosed⟩ := toSchema_eq_ok_iff.mp hschema
    refine ⟨fun e => mem_items_iff, fun model hmodel => ⟨?_, ?_⟩⟩
    · intro path near hleads
      exact hclosed near (hleads.mem hmodel)
    · intro bindings base names name segment entity scope
      obtain ⟨plan, h⟩ := Transcript.follows_ofNames scope base names
      rw [h.joined, h.planned.resolve_eq_error_iff, Scope.destination_eq_notARelationship_iff,
        Scope.reach_eq_error_iff]
      constructor
      · rintro ⟨before, segment', after, near, hpath, hleads, hfollow⟩
        rw [Scope.follow_eq_error_iff hclosed (hleads.mem hmodel)] at hfollow
        obtain ⟨hfault, hnone⟩ := hfollow
        cases hfault
        exact ⟨before, after, near, hpath, hleads, rfl, Entity.relationship?_eq_none_iff.mp hnone⟩
      · rintro ⟨before, after, near, hpath, hleads, rfl, hnone⟩
        refine ⟨before, segment, after, near, hpath, hleads, ?_⟩
        rw [Scope.follow_eq_error_iff hclosed (hleads.mem hmodel)]
        exact ⟨rfl, Entity.relationship?_eq_none_iff.mpr hnone⟩

end SchemaFile

/-! ### Towns -/

namespace Towns

/-- A first version of people, which leads nowhere. -/
def sketch : Entity :=
  ⟨"Person", "people", [], [.manyToOne "home" "House" "house_id" "id"]⟩

/-- Towns, where the column of the mayor hides the relationship. -/
def town : Entity :=
  ⟨"Town", "towns", [⟨"id", .integer⟩, ⟨"mayor", .integer⟩],
    [.oneToMany "people" "Person" "id" "town_id", .manyToOne "mayor" "Person" "mayor" "id"]⟩

def person : Entity :=
  ⟨"Person", "people", [⟨"id", .integer⟩, ⟨"town_id", .integer⟩],
    [.manyToOne "town" "Town" "town_id" "id"]⟩

def file : SchemaFile :=
  ⟨[sketch, town, person]⟩

def scope : Scope where
  schema := Directory.ofList file.entities
  model := person
  bindings := Directory.ofList [⟨"neighbour", .joined "id" ["town", "people"]⟩,
    ⟨"mayor", .joined "id" ["town", "mayor", "town"]⟩]

/-- The town of a person is joined already, and the mayor of it is still a column. -/
theorem resolve_mayor :
    file.toSchema = .ok scope.schema ∧ person ∈ scope.schema.items ∧
      ¬ file.Survives sketch ∧
      scope.resolve (Transcript.ofNames scope (.allOf "people") ["mayor", "neighbour"]).draft.joined
        "mayor" = .error (.notARelationship "mayor" "Town") := by
  have hfile : file.toSchema = .ok scope.schema := rfl
  have hperson : person ∈ scope.schema.items := by decide +kernel
  obtain ⟨-, haccepted⟩ := SchemaFile.resolve_of_toSchema file
  obtain ⟨hsurvives, hresolve⟩ := haccepted scope.schema hfile
  have htown : scope.schema.Leads person ["town"] town := .along (by decide) rfl rfl (.here town)
  refine ⟨hfile, hperson, ?_, ?_⟩
  · rw [← hsurvives]
    decide +kernel
  · obtain ⟨-, hfails⟩ := hresolve person hperson
    have hcolumn : ∃ c ∈ town.columns, c.name = "mayor" := by decide
    refine (hfails scope.bindings _ ["mayor", "neighbour"] "mayor" "mayor" "Town").mpr ?_
    exact ⟨["town"], ["town"], town, rfl, htown, rfl, Or.inr hcolumn⟩

end Towns

end FilterSelect
