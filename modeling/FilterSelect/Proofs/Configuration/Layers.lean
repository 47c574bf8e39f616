/-
Operators of layered configurations.

A layer may set the operators, the default, or both, and what the upper one of two layers
sets wins, each for itself.  So the operators and the default of a pile of layers can come
from different layers, and nothing has looked at the two together: a default that is
registered in its own layer need not be among the operators of another.

This is also all that can go wrong.  Where one layer is the last to set both, or where no
layer sets the operators, that layer has been asked for its operators with this default, and
the pile has them because the layer has (`mem_names_of_same_layer`).  What the pile takes its
operators and its default from is a matter of the layers from the top down (`lastSet?`), and
the induction is on the layers, with the configuration below them for its start.
-/
import FilterSelect.Proofs.Configuration.Operators
import FilterSelect.Proofs.Directory.Listing

namespace FilterSelect

namespace Configuration

variable {α : Type} {part : Configuration → Option α} {layers : List Configuration}
  {c : Configuration}

/-! ### What layers set

Of each part, the layers from the top down decide: the first that sets it is the one that
counts.
-/

/-- The last layer that sets a part, by its place from the bottom, and what it sets it to. -/
def lastSet? (part : Configuration → Option α) : List Configuration → Option (Nat × α)
  | [] => none
  | layer :: above =>
    match lastSet? part above with
    | some (place, a) => some (place + 1, a)
    | none => (part layer).map (0, ·)

/-- A part of which the upper one of two layers wins where it sets it. -/
def Overrides (part : Configuration → Option α) : Prop :=
  ∀ lower upper : Configuration, part (lower.overlay upper) = (part upper <|> part lower)

theorem overrides_filters : Overrides filters := fun _ _ => rfl

theorem overrides_defaultFilter : Overrides defaultFilter := fun _ _ => rfl

theorem Overrides.foldl_overlay (h : Overrides part) (layers : List Configuration)
    (c : Configuration) :
    part (layers.foldl overlay c) = (((lastSet? part layers).map Prod.snd) <|> part c) := by
  induction layers generalizing c with
  | nil => rfl
  | cons layer above ih =>
      rw [List.foldl_cons, ih, h, lastSet?]
      cases lastSet? part above with
      | some found => rfl
      | none => cases part layer <;> rfl

/-- A pile of layers has of each part what the last layer that sets the part sets it to. -/
theorem Overrides.ofLayers_eq (h : Overrides part) (hempty : part empty = none)
    (layers : List Configuration) :
    part (ofLayers layers) = (lastSet? part layers).map Prod.snd := by
  rw [ofLayers, h.foldl_overlay, hempty]
  cases lastSet? part layers <;> rfl

theorem getElem?_of_lastSet? {place : Nat} {a : α} (h : lastSet? part layers = some (place, a)) :
    ∃ layer, layers[place]? = some layer ∧ part layer = some a := by
  induction layers generalizing place with
  | nil => cases h
  | cons layer above ih =>
      rw [lastSet?] at h
      cases habove : lastSet? part above with
      | some found =>
          simp only [habove, Option.some.injEq, Prod.mk.injEq] at h
          obtain ⟨rfl, rfl⟩ := h
          exact ih habove
      | none =>
          simp only [habove, Option.map_eq_some_iff, Prod.mk.injEq] at h
          obtain ⟨b, hb, rfl, rfl⟩ := h
          exact ⟨layer, rfl, hb⟩

theorem eq_none_of_lastSet? (h : lastSet? part layers = none) :
    ∀ layer ∈ layers, part layer = none := by
  induction layers with
  | nil => simp
  | cons layer above ih =>
      rw [lastSet?] at h
      cases habove : lastSet? part above with
      | some found => simp [habove] at h
      | none =>
          simp only [habove, Option.map_eq_none_iff] at h
          exact List.forall_mem_cons.mpr ⟨h, ih habove⟩

/-! ### Operators of layers

A layer with operators was asked for them under its own default.  If the default and the
operators of the pile both come from that layer, there is nothing left to go wrong.
-/

private theorem mem_names_of_registry {r : Registry} {name : String} (h : c.registry = .ok r)
    (hname : c.defaultFilter = some name) : name ∈ (c.filters.getD Registry.builtIn).names :=
  (registry_eq_ok_iff.mp h).2 name hname

/--
The default is one of the operators where one layer with operators is the last to set both,
or where no layer sets the operators.
-/
private theorem mem_names_of_same_layer (h : ∀ layer ∈ layers, ∃ r, layer.registry = .ok r)
    {place : Nat} {name : String} (hname : lastSet? defaultFilter layers = some (place, name))
    (hsame : ∀ place' chosen, lastSet? filters layers = some (place', chosen) → place' = place) :
    name ∈ ((ofLayers layers).filters.getD Registry.builtIn).names := by
  obtain ⟨layer, hlayer, hdefault⟩ := getElem?_of_lastSet? hname
  have hmem : layer ∈ layers := List.mem_of_getElem? hlayer
  obtain ⟨r, hr⟩ := h layer hmem
  have hfilters : (ofLayers layers).filters = layer.filters := by
    rw [overrides_filters.ofLayers_eq rfl]
    cases hset : lastSet? filters layers with
    | none => exact (eq_none_of_lastSet? hset layer hmem).symm
    | some found =>
        obtain ⟨place', chosen⟩ := found
        obtain ⟨layer', hlayer', hchosen⟩ := getElem?_of_lastSet? hset
        rw [hsame place' chosen hset, hlayer] at hlayer'
        cases hlayer'
        exact hchosen.symm
  rw [hfilters]
  exact mem_names_of_registry hr hdefault

theorem empty_overlay (c : Configuration) : empty.overlay c = c := by
  have hsome : ∀ {β : Type} (a : Option β), (a <|> none) = a := by
    intro β a
    cases a <;> rfl
  cases c
  simp only [overlay, empty, hsome, Directory.empty_merge]

private theorem ofLayers_pair (lower upper : Configuration) :
    ofLayers [lower, upper] = lower.overlay upper := by
  rw [ofLayers, List.foldl_cons, List.foldl_cons, List.foldl_nil, empty_overlay]

/-- A pile of layers with operators lacks them over a default from another layer only. -/
theorem registry_ofLayers_eq_error_iff (h : ∀ layer ∈ layers, ∃ r, layer.registry = .ok r)
    {fault : Fault} : (ofLayers layers).registry = .error fault ↔
      ∃ place place' chosen name, lastSet? filters layers = some (place, chosen) ∧
        lastSet? defaultFilter layers = some (place', name) ∧ place ≠ place' ∧
        name ∉ chosen.names ∧ fault = .unknownFilter name := by
  rw [registry_eq_error_iff]
  constructor
  · rintro ⟨name, hname, hunknown, hfault⟩
    rw [overrides_defaultFilter.ofLayers_eq rfl, Option.map_eq_some_iff] at hname
    obtain ⟨⟨place', _⟩, hset', rfl⟩ := hname
    -- the operators are set by another layer, or the default would be one of them
    have hother : ∃ place chosen, lastSet? filters layers = some (place, chosen) ∧
        place ≠ place' := by
      by_contra hnone
      refine hunknown (mem_names_of_same_layer h hset' ?_)
      intro place chosen hset
      by_contra hne
      exact hnone ⟨place, chosen, hset, hne⟩
    obtain ⟨place, chosen, hset, hne⟩ := hother
    rw [overrides_filters.ofLayers_eq rfl, hset] at hunknown
    exact ⟨place, place', chosen, _, hset, hset', hne, hunknown, hfault⟩
  · rintro ⟨place, place', chosen, name, hset, hset', -, hunknown, hfault⟩
    refine ⟨name, ?_, ?_, hfault⟩
    · rw [overrides_defaultFilter.ofLayers_eq rfl, hset']
      rfl
    · rw [overrides_filters.ofLayers_eq rfl, hset]
      exact hunknown

private theorem defaultName_mem_names_iff {r chosen : Registry}
    (h : (ofLayers layers).registry = .ok r)
    (hchosen : chosen = ((lastSet? filters layers).map Prod.snd).getD Registry.builtIn) :
    r.defaultName ∈ r.names ↔
      lastSet? defaultFilter layers ≠ none ∨ chosen.defaultName ∈ chosen.names := by
  obtain ⟨hr, hmem⟩ := registry_eq_ok_iff.mp h
  rw [overrides_filters.ofLayers_eq rfl, overrides_defaultFilter.ofLayers_eq rfl, ← hchosen]
    at hr hmem
  cases hset : lastSet? defaultFilter layers with
  | none =>
      rw [hset] at hr
      rw [hr, or_iff_right (not_not_intro rfl)]
      rfl
  | some found =>
      rw [hset] at hr hmem
      refine iff_of_true ?_ (Or.inl (Option.some_ne_none found))
      rw [hr]
      exact hmem found.2 rfl

/--
**Layers with operators can lack them together only over a default from another layer.**

Two layers are the case of a pile of two.  A pile of layers that all have operators lacks them
if and only if the last layer to set operators and the last layer to set a default are two,
and the default is none of those operators.  Otherwise the pile has the operators of the last
layer to set them, or all built-in ones, with the default of the last layer to set one, or
else their own.  The default is one of them, unless no layer sets one and those operators
lack their own.
-/
theorem registry_ofLayers :
    (∀ lower upper : Configuration, ofLayers [lower, upper] = lower.overlay upper) ∧
    ∀ layers : List Configuration, (∀ layer ∈ layers, ∃ r, layer.registry = .ok r) →
      (∀ fault, (ofLayers layers).registry = .error fault ↔
        ∃ place place' chosen name, lastSet? filters layers = some (place, chosen) ∧
          lastSet? defaultFilter layers = some (place', name) ∧ place ≠ place' ∧
          name ∉ chosen.names ∧ fault = .unknownFilter name) ∧
      ∀ r, (ofLayers layers).registry = .ok r →
        let chosen := ((lastSet? filters layers).map Prod.snd).getD Registry.builtIn
        r.operators = chosen.operators ∧
        r.defaultName = ((lastSet? defaultFilter layers).map Prod.snd).getD chosen.defaultName ∧
        (r.defaultName ∈ r.names ↔
          lastSet? defaultFilter layers ≠ none ∨ chosen.defaultName ∈ chosen.names) := by
  refine ⟨ofLayers_pair, fun layers h => ⟨?_, ?_⟩⟩
  · intro fault
    exact registry_ofLayers_eq_error_iff h
  · intro r hr chosen
    obtain ⟨hr', -⟩ := registry_eq_ok_iff.mp hr
    rw [overrides_filters.ofLayers_eq rfl, overrides_defaultFilter.ofLayers_eq rfl] at hr'
    refine ⟨?_, ?_, defaultName_mem_names_iff hr rfl⟩
    · rw [hr']
    · rw [hr']

/-! ### Layers that do and do not fit -/

/-- The configuration that sets some comparisons as its operators. -/
def ofComparisons (chosen : List Comparison) : Configuration :=
  { empty with filters := some ⟨chosen.map Operator.builtIn, Registry.usualDefault⟩ }

/-- Equality and patterns, with patterns as the default. -/
def patterns : Configuration :=
  { ofComparisons [.eq, .like] with defaultFilter := some "like" }

/-- Equality and order, without a default. -/
def ordering : Configuration :=
  ofComparisons [.eq, .gt]

/-- Order as the default, whatever the operators are. -/
def greater : Configuration :=
  { empty with defaultFilter := some "gt" }

/-- A default that does not fit the operators, and a layer more with one that does. -/
theorem registry_ofLayers_mended :
    (∀ layer ∈ [patterns, ordering, greater], ∃ r, layer.registry = .ok r) ∧
      (ofLayers [patterns, ordering]).registry = .error (.unknownFilter "like") ∧
      ∃ r, (ofLayers [patterns, ordering, greater]).registry = .ok r ∧
        r.defaultName = "gt" ∧ r.defaultName ∈ r.names := by
  have hlayers : ∀ layer ∈ [patterns, ordering, greater], ∃ r, layer.registry = .ok r := by
    simp only [List.forall_mem_cons]
    exact ⟨⟨_, rfl⟩, ⟨_, rfl⟩, ⟨_, rfl⟩, by simp⟩
  obtain ⟨-, hpiles⟩ := registry_ofLayers
  obtain ⟨hlacks, -⟩ := hpiles [patterns, ordering] fun layer hlayer =>
    hlayers layer (List.subset_append_left [patterns, ordering] [greater] hlayer)
  obtain ⟨-, hhas⟩ := hpiles _ hlayers
  refine ⟨hlayers, (hlacks _).mpr ?_, _, rfl, ?_⟩
  · exact ⟨1, 0, _, "like", rfl, rfl, by decide, by decide, rfl⟩
  · obtain ⟨-, hdefault, hmem⟩ := hhas _ rfl
    exact ⟨hdefault, hmem.mpr (Or.inl (by decide))⟩

/--
Two layers that have operators, and together do not: the upper one sets operators without the
default of the lower one, or a default that is none of the operators of the lower one.  And a
layer without operators has a default that no layer lists.
-/
theorem registry_overlay_unfit :
    (∃ r r' r'', patterns.registry = .ok r ∧ ordering.registry = .ok r' ∧
      greater.registry = .ok r'') ∧
    (patterns.overlay ordering).registry = .error (.unknownFilter "like") ∧
    (patterns.overlay greater).registry = .error (.unknownFilter "gt") ∧
    (ofComparisons []).registry = .ok Registry.empty ∧
    (empty.overlay (ofComparisons [])).registry = .ok Registry.empty ∧
    Registry.empty.defaultName ∉ Registry.empty.names :=
  ⟨⟨_, _, _, rfl, rfl, rfl⟩, rfl, rfl, rfl, rfl, by decide⟩

end Configuration

end FilterSelect
