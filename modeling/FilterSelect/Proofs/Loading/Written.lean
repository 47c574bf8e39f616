/-
Schema files and binding files as they are written.

Both have a written form, a JSON value, and reading it gives back the file, whatever is in it:
entities with columns of any type, bindings with any paths.
-/
import FilterSelect.Loading
import FilterSelect.Proofs.Query.Written

namespace FilterSelect

open Json (Document Members)

/-! ### Schema files -/

theorem ColumnType.ofDocument?_toJson (t : ColumnType) :
    ofDocument? (.ofValue t.toJson) = some t := by
  cases t <;> rfl

theorem Column.ofDocument?_toJson (c : Column) : ofDocument? (.ofValue c.toJson) = some c := by
  have htype := c.type.ofDocument?_toJson
  rw [ofDocument?, toJson, Document.fields?_ofValue (by simp)]
  simp [Members.required, htype]

private theorem Relationship.ofDocument?_toJson (r : Relationship) :
    ofDocument? (.ofValue r.toJson) = some r := by
  obtain ⟨name, target, kind, localColumn, remoteColumn⟩ := r
  cases kind <;> rfl

theorem Entity.ofDocument?_toJson (e : Entity) : ofDocument? (.ofValue e.toJson) = some e := by
  have hcolumns := Document.list?_ofValue Column.ofDocument?_toJson e.columns
  have hrelationships := Document.list?_ofValue Relationship.ofDocument?_toJson e.relationships
  rw [ofDocument?, toJson, Document.fields?_ofValue (by simp)]
  simp [Members.required, Members.withDefault_eq_elim, hcolumns, hrelationships]

theorem SchemaFile.ofDocument?_toJson (file : SchemaFile) :
    ofDocument? (.ofValue file.toJson) = some file := by
  have hentities := Document.list?_ofValue Entity.ofDocument?_toJson file.entities
  rw [ofDocument?, toJson, Document.fields?_ofValue (by simp)]
  simp [Members.withDefault_eq_elim, hentities]

/-! ### Binding files -/

theorem BindingEntry.ofDocument?_toJson (entry : BindingEntry) :
    ofDocument? (.ofValue entry.toJson) = some entry := by
  cases entry with
  | simple column => rfl
  | joined column path =>
      have hmeaningful := Document.isMeaningful_ofValue (joined column path).toJson
      have hpath := Document.list?_ofValue Document.string?_ofValue path
      rw [Document.ofValue_array, List.map_map] at hpath
      rw [toJson, Document.ofValue_object] at hmeaningful ⊢
      rw [ofDocument?, if_pos hmeaningful]
      rw [Document.ofObject?_map Document.ofValue (by simp)]
      simp [Members.required, Members.withDefault_eq_elim, Document.ofValue_array, readPath,
        hpath]

/-- Written bindings are filed again as they were. -/
theorem Bindings.ofDocument?_toJson (b : Bindings) :
    ofDocument? (.ofValue (toJson b)) = some b := by
  have hmembers : (b.items.map fun binding => (binding.name, binding.entry.toJson)).map
      (fun member => (some member.1, Document.ofValue member.2)) =
        (b.items.map fun binding => (binding.name, binding.entry)).map
          fun entry => (some entry.1, Document.ofValue entry.2.toJson) := by
    rw [List.map_map, List.map_map]
    rfl
  have hentries : (Document.ofValue (toJson b)).entries? BindingEntry.ofDocument? =
      some (b.items.map fun binding => (binding.name, binding.entry)) := by
    rw [toJson, Document.ofValue_object, hmembers, Document.entries?]
    exact mapM_map_eq fun entry _ => by simp only [BindingEntry.ofDocument?_toJson]
  rw [ofDocument?, hentries, Option.map_some, List.map_map]
  show some (Directory.ofList (b.items.map id)) = some b
  rw [List.map_id, Directory.ofList_items]

private theorem Sql.Dialect.nullable?_name (dialect : Option Sql.Dialect) :
    (Document.ofValue (BindingFile.optionalString (dialect.map Sql.Dialect.name))).nullable?
      BindingFile.readDialect = some dialect := by
  rcases dialect with _ | _ | _ | _ <;> rfl

theorem BindingFile.ofDocument?_toJson (file : BindingFile) :
    ofDocument? (.ofValue file.toJson) = some file := by
  have hstring : ∀ s, (Document.ofValue (optionalString s)).nullable? Document.string? = some s :=
    Document.nullable?_string
  have hbindings := Bindings.ofDocument?_toJson file.bindings
  have hdialect := Sql.Dialect.nullable?_name file.dialect
  have hfilters : (Document.ofValue ((file.filters.map fun names =>
      .array (names.map Json.string)).getD .null)).nullable? (Document.list? Document.string?) =
        some file.filters := by
    cases file.filters with
    | none => rfl
    | some names =>
        have hlist := Document.list?_ofValue Document.string?_ofValue names
        exact congrArg (Option.map some) hlist
  rw [ofDocument?, toJson, Document.fields?_ofValue (by simp)]
  simp [Members.withDefault_eq_elim, hstring, hbindings, hdialect, hfilters]

end FilterSelect
