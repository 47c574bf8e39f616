/-
Other ways to write the same.

What is read from a document does not depend on all that is written there.  The members of an
object can come in any order, and one that is no field of the structure is passed over.  A node
can be an object or an array, and the path of a binding a list, a single name, or nothing.  All
of this holds at any depth, wherever a document has a part that is read as such a structure.

What may be restated depends on where it stands: an object that is a constant of a filter has
no unknown members, and neither have the bindings of a file, each of whose keys is a name.  So
documents are compared at a `Place`, and `Restated` lists the steps by which a document may
change there.  No step changes what is read (`read_eq`).
-/
import FilterSelect.Proofs.Loading.Places

namespace FilterSelect

open Json (Document Members)

/-- Documents that say the same where they are read as what the place says. -/
inductive Restated : Place → Document → Document → Prop
  | refl (p : Place) (d : Document) : Restated p d d
  | symm {p : Place} {d d' : Document} (h : Restated p d d') : Restated p d' d
  | trans {p : Place} {d d' d'' : Document} (h : Restated p d d') (h' : Restated p d' d'') :
      Restated p d d''
  /-- The members of an object come in another order. -/
  | reorder {p : Place} {members members' : List (Option String × Document)}
      (hp : p.isObject = true) (h : members.Perm members')
      (hkeys : (members.map Prod.fst).Nodup) : Restated p (.object members) (.object members')
  /-- An object has one more member, which is no field. -/
  | unknown {p : Place} {members : List (Option String × Document)} {key : String} {d : Document}
      (hkey : p.PassesOver members key) (hd : d.isMeaningful = true) :
      Restated p (.object members) (.object ((some key, d) :: members))
  /-- One member is restated. -/
  | member {p q : Place} {key : String} {d d' : Document} (hq : p.member? key = some q)
      (h : Restated q d d') (before after : List (Option String × Document)) :
      Restated p (.object (before ++ (some key, d) :: after))
        (.object (before ++ (some key, d') :: after))
  /-- One item is restated. -/
  | item {p q : Place} {d d' : Document} {before : List Document}
      (hq : p.item? before.length = some q) (h : Restated q d d') (after : List Document) :
      Restated p (.array (before ++ d :: after)) (.array (before ++ d' :: after))
  /-- A node is the array of its kind and its fields in order. -/
  | nodeArray {head : Document} {kind : FilterTree.Kind} {items : List Document}
      (hkind : FilterTree.Kind.ofDocument? true head = some kind)
      (hlength : items.length ≤ kind.fields.length) :
      Restated .node (.array (head :: items))
        (.ofFields (("type", head) :: kind.fields.zip items))
  /-- No path is the empty one. -/
  | noPath : Restated .path .null (.array [])
  /-- A path of one segment is that segment. -/
  | segment (s : String) : Restated .path (.string s) (.array [.string s])
  /-- The path of a binding is left out. -/
  | absentPath {members : List (Option String × Document)}
      (h : some "join" ∉ members.map Prod.fst) :
      Restated .entry (.object members) (.object ((some "join", .null) :: members))

/-! ### What denotes something still does -/

theorem Restated.isMeaningful_eq {p : Place} {d d' : Document} (h : Restated p d d') :
    d.isMeaningful = d'.isMeaningful := by
  induction h with
  | refl p d => rfl
  | symm _ ih => exact ih.symm
  | trans _ _ ih ih' => exact ih.trans ih'
  | reorder _ h _ => rw [Document.isMeaningful_object, Document.isMeaningful_object, h.all_eq]
  | unknown _ hd => simp [Document.isMeaningful_object, hd]
  | member _ _ before after ih => simp [Document.isMeaningful_object, ih]
  | item _ _ after ih => simp [Document.isMeaningful_array, ih]
  | nodeArray _ hlength =>
      rw [Document.isMeaningful_array, Document.isMeaningful_ofFields, List.map_cons,
        List.map_snd_zip hlength]
  | noPath => rfl
  | segment s => rfl
  | absentPath _ =>
      rw [Document.isMeaningful_object, Document.isMeaningful_object, List.all_cons]
      rfl

namespace Place

variable {p : Place} {members members' : List (Option String × Document)}

/-! ### Each step

One lemma for each step says that the part is read the same.  The steps at greater depth are
carried up through the place of the part.
-/

theorem read_reorder (hp : p.isObject = true) (h : members.Perm members')
    (hkeys : (members.map Prod.fst).Nodup) :
    p.read (.object members) = p.read (.object members') := by
  by_cases hfields : p.fields = []
  · rcases value_or_bindings hp hfields with rfl | rfl
    · show Document.value? _ = Document.value? _
      rw [Document.value?_object, Document.value?_object]
      exact Document.map_mapM_perm Json.ofMembers_perm h hkeys
    · refine Document.map_mapM_perm (fun {entries entries'} hentries hnames => ?_) h hkeys
      refine Directory.ofList_perm (hentries.map _) ?_
      rwa [List.map_map]
  · refine read_object hfields (fun names => ?_) ?_
    · exact Members.alike_perm p.fieldAlike_refl names h hkeys
    · rw [Document.isMeaningful_object, Document.isMeaningful_object, h.all_eq]

theorem read_unknown {key : String} {d : Document} (hkey : p.PassesOver members key)
    (hd : d.isMeaningful = true) :
    p.read (.object members) = p.read (.object ((some key, d) :: members)) := by
  have hmeaningful : (Document.object members).isMeaningful =
      (Document.object ((some key, d) :: members)).isMeaningful := by
    simp [Document.isMeaningful_object, hd]
  have halike : ∀ names, key ∉ names →
      Members.Alike p.FieldAlike names (Members.ofObject? names members)
        (Members.ofObject? names ((some key, d) :: members)) :=
    fun names hnames => Members.alike_cons p.fieldAlike_refl hnames d members
  by_cases hp : p = .node
  · subst hp
    obtain ⟨htype, hkind⟩ := hkey
    refine read_node (halike _ (by simpa using htype)) ?_ hmeaningful
    intro d hd isInner kind hk
    exact halike _ (by simpa using ⟨htype, hkind d hd isInner kind hk⟩)
  · have hboth : p.fields ≠ [] ∧ key ∉ p.fields.map Prod.fst := by
      cases p with
      | node => exact absurd rfl hp
      | _ => exact hkey
    by_cases hentry : p = .entry
    · subst hentry
      exact read_entry (halike _ hboth.2) hmeaningful
    · exact read_structure hp hentry hboth.1 (halike _ hboth.2)

theorem read_member {q : Place} {key : String} {d d' : Document} (hq : p.member? key = some q)
    (h : q.read d = q.read d') (hmeaningful : d.isMeaningful = d'.isMeaningful)
    (before after : List (Option String × Document)) :
    p.read (.object (before ++ (some key, d) :: after)) =
      p.read (.object (before ++ (some key, d') :: after)) := by
  by_cases hfields : p.fields = []
  · rcases value_or_bindings (isObject_of_member? hq) hfields with rfl | rfl
    · cases hq
      have hentry : Document.pair? Document.value? (some key, d) =
          Document.pair? Document.value? (some key, d') := by
        rw [Document.pair?, Document.pair?, show d.value? = d'.value? from h]
      show Document.value? _ = Document.value? _
      rw [Document.value?_object, Document.value?_object, Document.mapM_congr hentry]
    · cases hq
      have hentry : Document.pair? BindingEntry.ofDocument? (some key, d) =
          Document.pair? BindingEntry.ofDocument? (some key, d') := by
        rw [Document.pair?, Document.pair?,
          show BindingEntry.ofDocument? d = BindingEntry.ofDocument? d' from h]
      show Bindings.ofDocument? _ = Bindings.ofDocument? _
      rw [Bindings.ofDocument?, Bindings.ofDocument?, Document.entries?_object,
        Document.entries?_object, Document.mapM_congr hentry]
  · rw [member?_of_fields hfields] at hq
    refine read_object hfields (fun names => ?_) ?_
    · refine Members.alike_member p.fieldAlike_refl names (fun r hr => ?_) before after
      rw [hq] at hr
      cases hr
      exact h
    · simp [Document.isMeaningful_object, hmeaningful]

private theorem read_item_of_field {q : Place} {d d' : Document} {before : List Document}
    (hnode : p ≠ .node) (hentry : p ≠ .entry)
    (hq : p.fields[before.length]?.map Prod.snd = some q)
    (h : q.read d = q.read d') (after : List Document) :
    p.read (.array (before ++ d :: after)) = p.read (.array (before ++ d' :: after)) := by
  obtain ⟨⟨name, place⟩, hfield, rfl⟩ := Option.map_eq_some_iff.mp hq
  have hmem := List.mem_of_getElem? hfield
  have hkey : (p.fields.map Prod.fst)[before.length]? = some name := by
    rw [List.getElem?_map, hfield]
    rfl
  refine read_structure hnode hentry (List.ne_nil_of_mem hmem)
    (Members.alike_item p.fieldAlike_refl hkey ?_ after)
  intro r hr
  rw [(lookup_eq_some_iff_mem p.nodup_fields).mpr hmem] at hr
  cases hr
  exact h

theorem read_item {q : Place} {d d' : Document} {before : List Document}
    (hq : p.item? before.length = some q) (h : q.read d = q.read d') (after : List Document) :
    p.read (.array (before ++ d :: after)) = p.read (.array (before ++ d' :: after)) := by
  by_cases hfields : p.fields = []
  · cases p with
    | value =>
        cases hq
        have hvalue : d.value? = d'.value? := h
        show Document.value? _ = Document.value? _
        rw [Document.value?_array, Document.value?_array, Document.mapM_congr hvalue]
    | orders | columns | relationships | entities =>
        cases hq
        exact Document.mapM_congr h before after
    | scalar | path | bindings => cases hq
    | _ => cases hfields
  · have hnode : p ≠ .node := by
      rintro rfl
      cases hq
    have hentry : p ≠ .entry := by
      rintro rfl
      cases hq
    rw [item?_of_structure hnode hentry hfields] at hq
    exact read_item_of_field hnode hentry hq h after

private theorem zip_keys_sublist (names : List String) (items : List Document) :
    ((names.zip items).map Prod.fst).Sublist names := by
  induction items generalizing names with
  | nil => simp
  | cons item items ih =>
      cases names with
      | nil => simp
      | cons name names => exact (ih names).cons_cons name

theorem read_nodeArray {head : Document} {kind : FilterTree.Kind} {items : List Document}
    (hkind : FilterTree.Kind.ofDocument? true head = some kind)
    (hlength : items.length ≤ kind.fields.length) :
    Place.node.read (.array (head :: items)) =
      Place.node.read (.ofFields (("type", head) :: kind.fields.zip items)) := by
  have hmeaningful := (Restated.nodeArray hkind hlength).isMeaningful_eq
  have htype : "type" ∉ kind.fields := by cases kind <;> decide
  have hkeys : ((("type", head) :: kind.fields.zip items).map Prod.fst).Nodup := by
    have hfields : kind.fields.Nodup := by cases kind <;> decide
    have hsub := zip_keys_sublist kind.fields items
    exact List.nodup_cons.mpr ⟨fun hmem => htype (hsub.subset hmem), hfields.sublist hsub⟩
  have hread : ∀ isInner, FilterTree.ofDocument? isInner (.array (head :: items)) =
      FilterTree.ofDocument? isInner (.ofFields (("type", head) :: kind.fields.zip items)) := by
    intro isInner
    have hobject := Document.fields?_ofFields hkeys
    simp only [Document.ofFields, Document.fields?] at hobject
    rw [Document.ofFields, FilterTree.ofDocument?_object, FilterTree.ofDocument?_array]
    simp only [hobject, Option.bind_some, Members.required, List.lookup_cons_self]
    cases hroot : FilterTree.Kind.ofDocument? isInner head with
    | none => rfl
    | some kind' =>
        cases hkind.symm.trans (FilterTree.Kind.ofDocument?_inner hroot)
        simp only [Option.bind_some, Members.ofArray?, if_pos hlength]
        refine ofFields?_congr fun name hname => ?_
        have hne : name ≠ "type" := fun heq => htype (heq ▸ hname)
        rw [List.lookup_cons, beq_eq_false_iff_ne.mpr hne]
        exact Members.rel_refl (Place.node.fieldAlike_refl name) _
  exact read_node_of_tree (by simp) (by simp [Document.ofFields]) hmeaningful hread

theorem read_absentPath (h : some "join" ∉ members.map Prod.fst) :
    Place.entry.read (.object members) =
      Place.entry.read (.object ((some "join", .null) :: members)) := by
  have hmeaningful := (Restated.absentPath h).isMeaningful_eq
  have hnone : members.lookup (some "join") = none := by
    rw [List.lookup_eq_none_iff]
    intro member hmember
    exact bne_iff_ne.mpr fun heq => h (List.mem_map.mpr ⟨member, hmember, heq.symm⟩)
  have hboth : Members.OneOfEach ["param", "join"] (members.map Prod.fst) ↔
      Members.OneOfEach ["param", "join"]
        (((some "join", Document.null) :: members).map Prod.fst) := by
    simp [Members.OneOfEach, List.count_cons, List.count_eq_zero_of_not_mem h]
  show BindingEntry.ofDocument? _ = BindingEntry.ofDocument? _
  rw [BindingEntry.ofDocument?, BindingEntry.ofDocument?, hmeaningful]
  by_cases hkeys : Members.OneOfEach ["param", "join"] (members.map Prod.fst)
  · rw [Members.ofObject?_of_oneOfEach hkeys, Members.ofObject?_of_oneOfEach (hboth.mp hkeys)]
    simp [Members.required, Members.withDefault, List.lookup_cons, hnone, BindingEntry.readPath]
  · rw [Members.ofObject?_eq_none hkeys, Members.ofObject?_eq_none (mt hboth.mpr hkeys)]

end Place

/-- No step changes what is read. -/
theorem Restated.read_eq {p : Place} {d d' : Document} (h : Restated p d d') :
    p.read d = p.read d' := by
  induction h with
  | refl p d => rfl
  | symm _ ih => exact ih.symm
  | trans _ _ ih ih' => exact ih.trans ih'
  | reorder hp h hkeys => exact Place.read_reorder hp h hkeys
  | unknown hkey hd => exact Place.read_unknown hkey hd
  | member hq h before after ih => exact Place.read_member hq ih h.isMeaningful_eq before after
  | item hq _ after ih => exact Place.read_item hq ih after
  | nodeArray hkind hlength => exact Place.read_nodeArray hkind hlength
  | noPath => rfl
  | segment s => rfl
  | absentPath h => exact Place.read_absentPath h

end FilterSelect
