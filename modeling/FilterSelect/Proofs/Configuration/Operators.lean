/-
Operators that a configuration has, and when that is found out.

A configuration is asked for its operators when a request is evaluated.  It fails then over
one thing, a default that is not registered (`Configuration.registry_eq_error_iff`).  A
binding file names its operators and their default, and loading it looks at both, so one
would expect that what loads has its operators.

Loading looks only where the file lists operators, though.  The list is then chosen from the
built-in operators with the default in force, and a choice succeeds exactly if it knows all
names and has the default (`Registry.exists_subset_iff`).  Without a list there is no choice
to make, the default is not looked up, and a file with an unknown one loads.  This is the
only way in which a file that loads can fail later (`registry_of_toConfiguration`).
-/
import FilterSelect.Configuration.File
import FilterSelect.Proofs.Registry.Names

namespace FilterSelect

/-! ### Choices that succeed

A choice fails over the first name that it does not know, or over a default that it leaves out,
so it succeeds exactly where neither is the case.
-/

namespace Registry

variable {r : Registry} {chosen : List String}

private theorem withDefault_eq_ok_iff {next : Registry} {name : String} :
    r.withDefault name = .ok next ↔ name ∈ r.names ∧ next = { r with defaultName := name } := by
  rw [← contains_iff_mem_names]
  constructor
  · exact withDefault_eq_ok
  · rintro ⟨hname, rfl⟩
    rw [withDefault, if_pos hname]

theorem withDefault_eq_error_iff {name : String} {fault : Fault} :
    r.withDefault name = .error fault ↔ name ∉ r.names ∧ fault = .unknownFilter name := by
  rw [← contains_iff_mem_names, withDefault]
  split
  · rename_i hname
    simp [hname]
  · rename_i hname
    rw [and_iff_right hname, Except.error.injEq]
    exact eq_comm

private theorem exists_getAll_iff :
    (∃ operators, r.getAll chosen = .ok operators) ↔ chosen ⊆ r.names := by
  constructor
  · rintro ⟨operators, h⟩
    induction chosen generalizing operators with
    | nil => exact List.nil_subset _
    | cons first rest ih =>
        obtain ⟨op, others, hfound, hrest, -⟩ := getAll_cons h
        have hfirst : first ∈ r.names := contains_iff_mem_names.mp (contains_iff.mpr ⟨op, hfound⟩)
        exact List.cons_subset.mpr ⟨hfirst, ih others hrest⟩
  · intro h
    induction chosen with
    | nil => exact ⟨[], rfl⟩
    | cons first rest ih =>
        obtain ⟨hfirst, hrest⟩ := List.cons_subset.mp h
        obtain ⟨op, hfound⟩ := contains_iff.mp (contains_iff_mem_names.mpr hfirst)
        obtain ⟨others, hothers⟩ := ih hrest
        have hget : r.get (.name first) = .ok op := get_eq_ok_iff.mpr hfound
        exact ⟨op :: others, by rw [getAll, hget, hothers]; rfl⟩

/-- A choice succeeds if and only if it knows all names and has the default. -/
theorem exists_subset_iff : (∃ kept, r.subset chosen = .ok kept) ↔
    chosen ⊆ r.names ∧ r.defaultName ∈ chosen := by
  constructor
  · rintro ⟨kept, h⟩
    obtain ⟨hall, hname, hdefault⟩ := subset_eq_ok h
    refine ⟨exists_getAll_iff.mp ⟨_, hall⟩, ?_⟩
    rwa [hname, contains_iff_mem_names, names, names_getAll hall] at hdefault
  · rintro ⟨hchosen, hdefault⟩
    obtain ⟨operators, hall⟩ := exists_getAll_iff.mpr hchosen
    have hkept : (Registry.mk operators r.defaultName).contains r.defaultName = true := by
      rw [contains_iff_mem_names, names, names_getAll hall]
      exact hdefault
    exact ⟨⟨operators, r.defaultName⟩, by simp only [subset, hall, hkept, if_true]⟩

theorem mem_names_builtIn_iff {name : String} :
    name ∈ builtIn.names ↔ ∃ c : Comparison, c.name = name := by
  have hnames : builtIn.names = Comparison.all.map Comparison.name := rfl
  rw [hnames, List.mem_map]
  constructor
  · rintro ⟨c, -, hname⟩
    exact ⟨c, hname⟩
  · rintro ⟨c, hname⟩
    exact ⟨c, by cases c <;> decide, hname⟩

private theorem exists_get_default (h : r.defaultName ∈ r.names) :
    ∃ op, r.get .default = .ok op ∧ op.name = r.defaultName := by
  obtain ⟨op, hop⟩ := contains_iff.mp (contains_iff_mem_names.mpr h)
  exact ⟨op, get_eq_ok_iff.mpr hop, name_of_find? hop⟩

end Registry

/-! ### Configurations

A configuration has operators that are set, or else all built-in ones, and a default that is
set goes before their own.
-/

namespace Configuration

variable {c : Configuration}

theorem registry_eq_ok_iff {r : Registry} : c.registry = .ok r ↔
    r = { c.filters.getD Registry.builtIn with
      defaultName := c.defaultFilter.getD (c.filters.getD Registry.builtIn).defaultName } ∧
    ∀ name, c.defaultFilter = some name → name ∈ (c.filters.getD Registry.builtIn).names := by
  rw [registry]
  cases c.defaultFilter with
  | none =>
      simp only [reduceCtorEq, false_implies, implies_true, and_true, Option.getD_none,
        Except.ok.injEq]
      exact eq_comm
  | some name =>
      simp only [Registry.withDefault_eq_ok_iff, Option.getD_some, Option.some.injEq,
        forall_eq']
      exact and_comm

theorem registry_eq_error_iff {fault : Fault} : c.registry = .error fault ↔
    ∃ name, c.defaultFilter = some name ∧ name ∉ (c.filters.getD Registry.builtIn).names ∧
      fault = .unknownFilter name := by
  rw [registry]
  cases c.defaultFilter with
  | none => simp
  | some name => simp [Registry.withDefault_eq_error_iff]

end Configuration

/-! ### Binding files

A list of operators is looked at together with the default that the file asks for, or the usual
one.  Without a list nothing is looked at.
-/

namespace BindingFile

variable {file : BindingFile} {config : Configuration}

/-- The names of the operators that a file asks for. -/
def operatorNames (file : BindingFile) : List String :=
  file.filters.getD Registry.builtIn.names

/-- The name of the default operator that a file asks for. -/
def defaultName (file : BindingFile) : String :=
  file.defaultFilter.getD Registry.usualDefault

private theorem exists_registry_iff {chosen : List String} :
    (∃ kept, file.registry chosen = .ok kept) ↔
    chosen ⊆ Registry.builtIn.names ∧ file.defaultName ∈ chosen := by
  cases hdefault : file.defaultFilter with
  | none =>
      simp only [registry, defaultName, hdefault, bind, Except.bind, Option.getD_none]
      exact Registry.exists_subset_iff
  | some name =>
      simp only [registry, defaultName, hdefault, bind, Except.bind, Option.getD_some]
      by_cases hname : name ∈ Registry.builtIn.names
      · rw [Registry.withDefault_eq_ok_iff.mpr ⟨hname, rfl⟩]
        exact Registry.exists_subset_iff
      · rw [Registry.withDefault_eq_error_iff.mpr ⟨hname, rfl⟩]
        simp only [reduceCtorEq, exists_false, false_iff, not_and]
        intro hchosen hmem
        exact hname (hchosen hmem)

private theorem registry_eq_ok {chosen : List String} {kept : Registry}
    (h : file.registry chosen = .ok kept) :
    kept.names = chosen ∧ kept.defaultName = file.defaultName ∧ kept.defaultName ∈ kept.names := by
  have hsubset : ∀ {all : Registry}, all.subset chosen = .ok kept →
      kept.names = chosen ∧ kept.defaultName = all.defaultName ∧
        kept.defaultName ∈ kept.names := by
    intro all h
    obtain ⟨hall, hname, hdefault⟩ := Registry.subset_eq_ok h
    exact ⟨Registry.names_getAll hall, hname, Registry.contains_iff_mem_names.mp hdefault⟩
  cases hdefault : file.defaultFilter with
  | none =>
      simp only [registry, defaultName, hdefault, bind, Except.bind] at h ⊢
      exact hsubset h
  | some name =>
      simp only [registry, defaultName, hdefault, bind, Except.bind] at h ⊢
      split at h
      · cases h
      · rename_i all hall
        obtain ⟨-, rfl⟩ := Registry.withDefault_eq_ok_iff.mp hall
        exact hsubset h

theorem exists_toConfiguration_iff : (∃ config, file.toConfiguration = .ok config) ↔
    ∀ chosen, file.filters = some chosen → ∃ kept, file.registry chosen = .ok kept := by
  cases hfilters : file.filters with
  | none => simp [toConfiguration, hfilters, bind, Except.bind, pure, Except.pure]
  | some chosen =>
      cases hkept : file.registry chosen <;>
        simp [toConfiguration, hfilters, hkept, Except.map, bind, Except.bind, pure, Except.pure]

/-- A file that loads keeps its default, and has no operators set or those of its list. -/
theorem toConfiguration_eq_ok (h : file.toConfiguration = .ok config) :
    config.defaultFilter = file.defaultFilter ∧
      ((file.filters = none ∧ config.filters = none) ∨
        ∃ chosen kept, file.filters = some chosen ∧ file.registry chosen = .ok kept ∧
          config.filters = some kept) := by
  cases hfilters : file.filters with
  | none =>
      simp only [toConfiguration, hfilters, bind, Except.bind, pure, Except.pure] at h
      cases h
      exact ⟨rfl, Or.inl ⟨rfl, rfl⟩⟩
  | some chosen =>
      cases hkept : file.registry chosen with
      | error fault =>
          simp [toConfiguration, hfilters, hkept, Except.map, bind, Except.bind] at h
      | ok kept =>
          simp only [toConfiguration, hfilters, hkept, Except.map, bind, Except.bind, pure,
            Except.pure] at h
          cases h
          exact ⟨rfl, Or.inr ⟨chosen, kept, rfl, hkept, rfl⟩⟩

/-- A file that loads has its operators if it lists some, or if its default is built in. -/
theorem exists_registry_of_toConfiguration (h : file.toConfiguration = .ok config)
    (hbuiltIn : file.filters = none → file.defaultName ∈ Registry.builtIn.names) :
    ∃ r, config.registry = .ok r ∧ r.names = file.operatorNames ∧
      r.defaultName = file.defaultName ∧ file.defaultName ∈ r.names := by
  obtain ⟨hdefault, ⟨hnone, hfilters⟩ | ⟨chosen, kept, hsome, hkept, hfilters⟩⟩ :=
    toConfiguration_eq_ok h
  · have hnames : Registry.builtIn.names = file.operatorNames := by
      rw [operatorNames, hnone, Option.getD_none]
    refine ⟨{ Registry.builtIn with defaultName := file.defaultName }, ?_, hnames, rfl,
      hbuiltIn hnone⟩
    rw [Configuration.registry_eq_ok_iff, hdefault, hfilters]
    refine ⟨rfl, ?_⟩
    intro name hname
    have hmem := hbuiltIn hnone
    rwa [defaultName, hname] at hmem
  · obtain ⟨hnames, hkeptName, hmem⟩ := registry_eq_ok hkept
    have hchosen : kept.names = file.operatorNames := by
      rw [hnames, operatorNames, hsome, Option.getD_some]
    refine ⟨kept, ?_, hchosen, hkeptName, hkeptName ▸ hmem⟩
    rw [Configuration.registry_eq_ok_iff, hdefault, hfilters]
    -- the default of the file is the one that was in force when the operators were chosen
    cases hname : file.defaultFilter with
    | none => exact ⟨rfl, by simp⟩
    | some name =>
        rw [defaultName, hname, Option.getD_some] at hkeptName
        subst hkeptName
        refine ⟨rfl, ?_⟩
        rintro _ ⟨⟩
        exact hmem

/-- A file without a list loads, and lacks its operators if its default is not built in. -/
theorem registry_eq_error_of_toConfiguration (h : file.toConfiguration = .ok config)
    (hnone : file.filters = none) (hunknown : file.defaultName ∉ Registry.builtIn.names) :
    config.registry = .error (.unknownFilter file.defaultName) := by
  obtain ⟨hdefault, ⟨-, hfilters⟩ | ⟨chosen, kept, hsome, -, -⟩⟩ := toConfiguration_eq_ok h
  · rw [Configuration.registry_eq_error_iff, hdefault, hfilters]
    cases hname : file.defaultFilter with
    | none =>
        rw [defaultName, hname] at hunknown
        exact absurd (by decide) hunknown
    | some name =>
        rw [defaultName, hname] at hunknown ⊢
        exact ⟨name, rfl, hunknown, rfl⟩
  · rw [hnone] at hsome
    cases hsome

/--
**What a binding file asks for is looked at when it is loaded, but for a default without a
list.**

A file loads if and only if, where it lists operators, all of them are built in and the
default that it asks for is one of them.  The configuration then has operators if and only
if, where the file lists none, the default is built in.  Those operators are the ones that
the file lists, or all built-in ones, with the default of the file, and the default is found.
Otherwise the configuration fails over the default, at the first request.
-/
theorem registry_of_toConfiguration (file : BindingFile) :
    ((∃ config, file.toConfiguration = .ok config) ↔
      ∀ chosen, file.filters = some chosen →
        (∀ name ∈ chosen, ∃ c : Comparison, c.name = name) ∧ file.defaultName ∈ chosen) ∧
    ∀ config, file.toConfiguration = .ok config →
      ((∃ r, config.registry = .ok r) ↔
        (file.filters = none → ∃ c : Comparison, c.name = file.defaultName)) ∧
      (∀ r, config.registry = .ok r →
        r.names = file.operatorNames ∧ r.defaultName = file.defaultName ∧
          ∃ op, r.get .default = .ok op ∧ op.name = file.defaultName) ∧
      ∀ fault, config.registry = .error fault → fault = .unknownFilter file.defaultName := by
  simp only [← Registry.mem_names_builtIn_iff]
  refine ⟨?_, ?_⟩
  · simp only [exists_toConfiguration_iff, exists_registry_iff]
    rfl
  · intro config hconfig
    by_cases hbuiltIn : file.filters = none → file.defaultName ∈ Registry.builtIn.names
    · obtain ⟨r, hr, hnames, hname, hmem⟩ := exists_registry_of_toConfiguration hconfig hbuiltIn
      refine ⟨iff_of_true ⟨r, hr⟩ hbuiltIn, ?_, ?_⟩
      · intro r' hr'
        cases hr.symm.trans hr'
        obtain ⟨op, hop, hopName⟩ := Registry.exists_get_default (hname.symm ▸ hmem)
        exact ⟨hnames, hname, op, hop, hopName.trans hname⟩
      · intro fault hfault
        cases hr.symm.trans hfault
    · obtain ⟨hnone, hunknown⟩ := Classical.not_imp.mp hbuiltIn
      have herror := registry_eq_error_of_toConfiguration hconfig hnone hunknown
      rw [herror]
      refine ⟨iff_of_false ?_ hbuiltIn, ?_, ?_⟩
      · rintro ⟨r, hr⟩
        cases hr
      · intro r hr
        cases hr
      · intro fault hfault
        exact (Except.error.inj hfault).symm

/-! ### Files that ask for operators -/

/-- A file that asks for these operators and this default, and for nothing else. -/
def asking (filters : Option (List String)) (defaultFilter : Option String) : BindingFile :=
  ⟨none, Directory.empty, filters, defaultFilter, none⟩

/-- A repeated and reordered list with its default, and a list that leaves out the usual one. -/
theorem registry_of_listed :
    (∃ config r, (asking (some ["like", "gt", "like"]) (some "gt")).toConfiguration = .ok config ∧
      config.registry = .ok r ∧ r.names = ["like", "gt", "like"] ∧ r.defaultName = "gt") ∧
    ¬ ∃ config, (asking (some ["like", "gt"]) none).toConfiguration = .ok config := by
  obtain ⟨hloads, hregistry⟩ :=
    registry_of_toConfiguration (asking (some ["like", "gt", "like"]) (some "gt"))
  obtain ⟨hloads', -⟩ := registry_of_toConfiguration (asking (some ["like", "gt"]) none)
  constructor
  · obtain ⟨config, hconfig⟩ := hloads.mpr (by
      rintro _ ⟨⟩
      simp only [← Registry.mem_names_builtIn_iff]
      decide)
    obtain ⟨hexists, hok, -⟩ := hregistry config hconfig
    obtain ⟨r, hr⟩ := hexists.mpr (by rintro ⟨⟩)
    obtain ⟨hnames, hdefault, -⟩ := hok r hr
    exact ⟨config, r, hconfig, hr, hnames, hdefault⟩
  · rw [hloads']
    intro h
    obtain ⟨-, hmem⟩ := h _ rfl
    revert hmem
    decide

/--
An unknown default loads where no operators are listed, and only a request reports it.  With
all built-in operators listed, which is what no list stands for, it is reported at once.
-/
theorem not_reported_of_unlisted :
    (∃ config, (asking none (some "nope")).toConfiguration = .ok config ∧
      config.registry = .error (.unknownFilter "nope")) ∧
    (asking (some Registry.builtIn.names) (some "nope")).toConfiguration =
      .error (.unknownFilter "nope") :=
  ⟨⟨_, rfl, rfl⟩, rfl⟩

end BindingFile

end FilterSelect
