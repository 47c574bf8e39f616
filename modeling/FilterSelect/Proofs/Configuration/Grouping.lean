/-
Layers of configurations can be grouped at will.

A pile of layers is put together from the bottom, one layer at a time.  It could as well be
put together in pieces: some layers are laid over each other first, and what comes of them is
then one layer of the pile.  Both come to the same because laying over is associative and the
empty configuration adds nothing on either side.

So a pile is a matter of its layers in order, and of every part it has what the last layer
that sets the part sets it to (`Overrides.ofLayers_eq_some_iff`).  What is said of a part here
holds of the entry of any one logical name as well: a binding is a part that the upper one of
two layers wins like any other (`overrides_entryOf?`).
-/
import FilterSelect.Endpoint
import FilterSelect.Proofs.Configuration.Layers

namespace FilterSelect

namespace Configuration

/-! ### Laying over

Each part of a configuration is an option of which the upper layer goes first, or a directory
that is merged name by name.  Both are associative, with a neutral element that the empty
configuration has.
-/

theorem overlay_empty (c : Configuration) : c.overlay empty = c := by
  have hsome : ∀ {β : Type} (a : Option β), (none <|> a) = a := fun _ => rfl
  cases c
  simp only [overlay, empty, hsome, Directory.merge_empty]

theorem overlay_assoc (a b c : Configuration) :
    (a.overlay b).overlay c = a.overlay (b.overlay c) := by
  have hassoc : ∀ {β : Type} (x y z : Option β), (x <|> (y <|> z)) = ((x <|> y) <|> z) := by
    intro β x y z
    cases x <;> rfl
  simp only [overlay, hassoc, Directory.merge_assoc]

instance : Std.Associative overlay := ⟨overlay_assoc⟩

theorem ofLayers_append (layers above : List Configuration) :
    ofLayers (layers ++ above) = (ofLayers layers).overlay (ofLayers above) := by
  calc ofLayers (layers ++ above)
      = above.foldl overlay ((ofLayers layers).overlay empty) := by
        rw [ofLayers, List.foldl_append, overlay_empty]
        rfl
    _ = (ofLayers layers).overlay (ofLayers above) := List.foldl_assoc

private theorem ofLayers_singleton (c : Configuration) : ofLayers [c] = c :=
  empty_overlay c

theorem ofLayers_concat (layers : List Configuration) (last : Configuration) :
    ofLayers (layers ++ [last]) = (ofLayers layers).overlay last := by
  rw [ofLayers_append, ofLayers_singleton]

/-! ### Ways to group layers -/

/-- A way to put layers together, in pieces of any size. -/
inductive Grouping where
  /-- No layer at all. -/
  | none
  | layer (c : Configuration)
  /-- Two pieces, each put together before one is laid over the other. -/
  | both (lower upper : Grouping)

namespace Grouping

/-- The layers from the bottom. -/
def layers : Grouping → List Configuration
  | .none => []
  | .layer c => [c]
  | .both lower upper => lower.layers ++ upper.layers

/-- What comes of the layers when they are put together in this way. -/
def merged : Grouping → Configuration
  | .none => Configuration.empty
  | .layer c => c
  | .both lower upper => lower.merged.overlay upper.merged

/-- However layers are grouped, they come to what they come to one at a time. -/
theorem merged_eq (g : Grouping) : g.merged = ofLayers g.layers := by
  induction g with
  | none => rfl
  | layer c => exact (ofLayers_singleton c).symm
  | both lower upper ihlower ihupper =>
      rw [merged, layers, ofLayers_append, ihlower, ihupper]

end Grouping

/-! ### The last layer wins

A pile grows at the top, and there the new layer either sets a part or leaves it as it was.
-/

section LastWins

variable {α : Type} {part : Configuration → Option α} {layers : List Configuration}

/-- What the last one of some layers that sets a part sets it to. -/
def LastSets (part : Configuration → Option α) (layers : List Configuration) (a : α) : Prop :=
  ∃ layer, part layer = some a ∧
    ∃ below above, layers = below ++ layer :: above ∧ ∀ other ∈ above, part other = none

/-- The entry that a logical name is bound to. -/
def entryOf? (c : Configuration) (name : String) : Option BindingEntry :=
  (c.bindings.find? name).map Binding.entry

theorem overrides_model : Overrides model := fun _ _ => rfl

theorem overrides_converters : Overrides converters := fun _ _ => rfl

theorem overrides_session : Overrides session := fun _ _ => rfl

theorem overrides_entryOf? (name : String) : Overrides (entryOf? · name) := by
  intro lower upper
  show ((lower.bindings.merge upper.bindings).find? name).map Binding.entry =
    ((upper.bindings.find? name).map Binding.entry <|>
      (lower.bindings.find? name).map Binding.entry)
  rw [Directory.find?_merge]
  cases upper.bindings.find? name <;> rfl

theorem Overrides.ofLayers_concat (h : Overrides part) (layers : List Configuration)
    (last : Configuration) :
    part (ofLayers (layers ++ [last])) = (part last).or (part (ofLayers layers)) := by
  rw [Configuration.ofLayers_concat, h]
  cases part last <;> rfl

/-- The last one of several layers that sets a part is the top one, or the last one below it. -/
theorem lastSets_concat {last : Configuration} {a : α} :
    LastSets part (layers ++ [last]) a ↔
      part last = some a ∨ (part last = none ∧ LastSets part layers a) := by
  simp only [LastSets, exists_split_append_singleton_iff]
  constructor
  · rintro ⟨layer, hlayer, rfl | ⟨hbelow, hlast⟩⟩
    · exact Or.inl hlayer
    · exact Or.inr ⟨hlast, layer, hlayer, hbelow⟩
  · rintro (hlast | ⟨hlast, layer, hlayer, hbelow⟩)
    · exact ⟨last, hlast, Or.inl rfl⟩
    · exact ⟨layer, hlayer, Or.inr ⟨hbelow, hlast⟩⟩

/-- A pile has of each part what the last layer that sets the part sets it to. -/
theorem Overrides.ofLayers_eq_some_iff (h : Overrides part) (hempty : part empty = none) (a : α) :
    part (ofLayers layers) = some a ↔ LastSets part layers a := by
  induction layers using List.reverseRecOn with
  | nil =>
      have hpart : part (ofLayers []) = none := hempty
      simp [hpart, LastSets]
  | append_singleton layers last ih =>
      rw [h.ofLayers_concat, lastSets_concat, Option.or_eq_some_iff, ih]

theorem Overrides.ofLayers_eq_none_iff (h : Overrides part) (hempty : part empty = none) :
    part (ofLayers layers) = none ↔ ∀ layer ∈ layers, part layer = none := by
  induction layers using List.reverseRecOn with
  | nil => exact iff_of_true hempty (List.forall_mem_nil _)
  | append_singleton layers last ih =>
      rw [h.ofLayers_concat, Option.or_eq_none_iff, ih, List.forall_mem_append,
        List.forall_mem_singleton, and_comm]

private theorem mem_names_iff_entryOf? {c : Configuration} {name : String} :
    name ∈ c.bindings.names ↔ c.entryOf? name ≠ none := by
  rw [Directory.mem_names_iff, ne_eq, entryOf?, Option.map_eq_none_iff, ← ne_eq,
    Option.ne_none_iff_exists']

theorem mem_names_ofLayers {name : String} :
    name ∈ (ofLayers layers).bindings.names ↔ ∃ layer ∈ layers, name ∈ layer.bindings.names := by
  simp only [mem_names_iff_entryOf?, ne_eq]
  rw [(overrides_entryOf? name).ofLayers_eq_none_iff rfl]
  simp only [not_forall, exists_prop]

/-- Of each part, what the last layer that sets the part sets it to, and the names of all layers. -/
structure LastWins (layers : List Configuration) (c : Configuration) : Prop where
  model : ∀ name, c.model = some name ↔ LastSets Configuration.model layers name
  converters : ∀ table, c.converters = some table ↔ LastSets Configuration.converters layers table
  filters : ∀ r, c.filters = some r ↔ LastSets Configuration.filters layers r
  defaultFilter : ∀ name,
    c.defaultFilter = some name ↔ LastSets Configuration.defaultFilter layers name
  session : ∀ s, c.session = some s ↔ LastSets Configuration.session layers s
  entry : ∀ name entry, c.entryOf? name = some entry ↔ LastSets (entryOf? · name) layers entry
  names : ∀ name, name ∈ c.bindings.names ↔ ∃ layer ∈ layers, name ∈ layer.bindings.names

theorem lastWins_ofLayers (layers : List Configuration) : LastWins layers (ofLayers layers) where
  model := overrides_model.ofLayers_eq_some_iff rfl
  converters := overrides_converters.ofLayers_eq_some_iff rfl
  filters := overrides_filters.ofLayers_eq_some_iff rfl
  defaultFilter := overrides_defaultFilter.ofLayers_eq_some_iff rfl
  session := overrides_session.ofLayers_eq_some_iff rfl
  entry name := (overrides_entryOf? name).ofLayers_eq_some_iff rfl
  names _ := mem_names_ofLayers

end LastWins

/--
**Configurations are a monoid, and the last layer wins.**

Laying over is associative, and the empty configuration is neutral below and above.  So layers
can be grouped in any way: what comes of them depends on nothing but the layers in order, and
so does every evaluation with it.  Each part is the one of the last layer that sets it, each
logical name has the entry of the last layer that binds it, and exactly the names that some
layer binds are bound.
-/
theorem merged_lastWins :
    (∀ a b c : Configuration, (a.overlay b).overlay c = a.overlay (b.overlay c)) ∧
    (∀ c : Configuration, empty.overlay c = c ∧ c.overlay empty = c) ∧
    (∀ layers : List Configuration, LastWins layers (ofLayers layers)) ∧
    ∀ g : Grouping, g.merged = ofLayers g.layers ∧
      ∀ schema ownSession clock query,
        Endpoint.evaluate ⟨schema, g.merged, ownSession⟩ clock query =
          Endpoint.evaluate ⟨schema, ofLayers g.layers, ownSession⟩ clock query := by
  refine ⟨overlay_assoc, fun c => ⟨empty_overlay c, overlay_empty c⟩, lastWins_ofLayers, ?_⟩
  intro g
  have hmerged := g.merged_eq
  refine ⟨hmerged, fun schema ownSession clock query => ?_⟩
  rw [hmerged]

/-- Of two layers that bind a name the upper one wins, and all other names are kept. -/
example : (((empty.bind "name" (.simple "name")).bind "age" (.simple "age")).overlay
    (empty.bind "name" (.joined "full" ["person"]))).bindings.items =
      [⟨"age", .simple "age"⟩, ⟨"name", .joined "full" ["person"]⟩] := by
  decide

end Configuration

end FilterSelect
