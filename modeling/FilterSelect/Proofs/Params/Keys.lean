/-
Reading keys in brackets back.

A key is made of a name and perhaps an operator, and read by stripping it at both ends and
splitting what is left.  Stripping takes as much as it can and splitting splits wherever it
can, so a name that begins like a key, or has `][` inside, is not read back.  Neither is a
name alone that ends with a bracket; with an operator behind it, it is.

`FilterParam.Legible` is what a name and an operator must avoid.  Where all parameters of a
request do, the parser reads the filters that they were made of (`readLeaves_params`).  The
first operator that is not registered is reported, whatever the keys around it are made of
(`readLeaves_unregistered`).
-/
import FilterSelect.Params
import Mathlib.Data.List.Infix

namespace FilterSelect

/-! ### Filters as parameters -/

/-- A filter as a request brings it. -/
structure FilterParam where
  name : String
  /-- The operator; the default one if absent. -/
  operator : Option String
  value : String
deriving DecidableEq, Repr

namespace FilterParam

/-- The key of a filter. -/
def key (f : FilterParam) : String :=
  match f.operator with
  | none => "filter[" ++ f.name ++ "]"
  | some operator => "filter[" ++ f.name ++ "][" ++ operator ++ "]"

/-- The parameter that stands for a filter. -/
def param (f : FilterParam) : Param :=
  ⟨f.key, f.value⟩

/-- The operator of a filter, where this one is the default. -/
def operatorName (f : FilterParam) (defaultFilter : String) : String :=
  f.operator.getD defaultFilter

/-- The leaf that a filter is in a tree. -/
def leaf (f : FilterParam) (defaultFilter : String) : Leaf :=
  ⟨f.name, some (f.operatorName defaultFilter), .string f.value⟩

/-- What keeps the parts of a key apart. -/
structure Legible (f : FilterParam) : Prop where
  /-- The name does not begin like a key. -/
  opening : ¬"filter[".toList <+: f.name.toList
  /-- The name cannot be split. -/
  whole : ¬"][".toList <:+: f.name.toList
  /-- A name alone does not end with a bracket. -/
  closing : f.operator = none → ¬"]".toList <:+ f.name.toList
  /-- The operator can neither be split nor does it end with a bracket. -/
  operator : ∀ operator ∈ f.operator,
    ¬"][".toList <:+: operator.toList ∧ ¬"]".toList <:+ operator.toList

instance (f : FilterParam) : Decidable f.Legible :=
  decidable_of_iff
    (¬"filter[".toList <+: f.name.toList ∧ ¬"][".toList <:+: f.name.toList ∧
      (f.operator = none → ¬"]".toList <:+ f.name.toList) ∧
      ∀ operator ∈ f.operator,
        ¬"][".toList <:+: operator.toList ∧ ¬"]".toList <:+ operator.toList)
    ⟨fun ⟨opening, whole, closing, operator⟩ => ⟨opening, whole, closing, operator⟩,
      fun h => ⟨h.opening, h.whole, h.closing, h.operator⟩⟩

end FilterParam

/-- Leaves one after another, each combined with all before it. -/
def FilterTree.leftNested (leaves : List Leaf) : Option FilterTree :=
  leaves.foldl (fun tree? l => some (tree?.elim (.leaf l) fun tree => .and tree (.leaf l))) none

namespace Params

/-! ### Stripping and splitting

Stripping goes on as long as there is something to strip, so it is undone only by what does not
begin or end with it.
-/

private theorem dropOpening_append (s : List Char) :
    dropOpening ("filter[".toList ++ s) = dropOpening s := by
  rfl

private theorem dropOpening_of_not_prefix {s : List Char} (h : ¬"filter[".toList <+: s) :
    dropOpening s = s := by
  unfold dropOpening
  split
  · rename_i rest
    exact absurd ⟨rest, rfl⟩ h
  · rfl

private theorem not_prefix_append {s : List Char} (rest : List Char) (h : ¬"filter[".toList <+: s) :
    ¬"filter[".toList <+: s ++ ']' :: rest := by
  intro hopening
  have hbracket : ']' ∉ "filter[".toList := by decide
  have hclosed : s ++ [']'] <+: s ++ ']' :: rest := ⟨rest, by simp⟩
  rcases List.prefix_or_prefix_of_prefix hopening hclosed with hshort | hlong
  · rcases List.prefix_concat_iff.mp hshort with heq | hs
    · exact hbracket (heq ▸ List.mem_append_right s (List.mem_singleton_self _))
    · exact h hs
  · exact hbracket (hlong.mem (List.mem_append_right s (List.mem_singleton_self _)))

private theorem dropClosing_append (s : List Char) : dropClosing (s ++ [']']) = dropClosing s := by
  simp [dropClosing]

private theorem dropClosing_of_not_suffix {s : List Char} (h : ¬"]".toList <:+ s) :
    dropClosing s = s := by
  rcases List.eq_nil_or_concat s with rfl | ⟨before, c, rfl⟩
  · rfl
  · rw [List.concat_eq_append] at h ⊢
    have hc : c ≠ ']' := by
      rintro rfl
      exact h ⟨before, rfl⟩
    simp [dropClosing, hc]

private theorem not_suffix_append {s : List Char} (front : List Char) (h : ¬"]".toList <:+ s) :
    ¬"]".toList <:+ front ++ '[' :: s := by
  intro hclosing
  rcases List.suffix_or_suffix_of_suffix hclosing (List.suffix_append front ('[' :: s))
    with hshort | hlong
  · rcases List.suffix_cons_iff.mp hshort with heq | hs
    · cases heq
    · exact h hs
  · have hbracket : '[' ∉ "]".toList := by decide
    exact hbracket (hlong.mem List.mem_cons_self)

private theorem splitParts_cons {c : Char} {s part : List Char} {parts : List (List Char)}
    (h : ¬"][".toList <+: c :: s) (hs : splitParts s = part :: parts) :
    splitParts (c :: s) = (c :: part) :: parts := by
  unfold splitParts
  split
  · rename_i heq
    cases heq
  · rename_i rest heq
    exact absurd ⟨rest, heq.symm⟩ h
  · rename_i heq
    cases heq
    rw [hs]

private theorem splitParts_whole {s : List Char} (h : ¬"][".toList <:+: s) :
    splitParts s = [s] ∧
      ∀ rest, splitParts (s ++ "][".toList ++ rest) = s :: splitParts rest := by
  induction s with
  | nil => exact ⟨rfl, fun _ => rfl⟩
  | cons c s ih =>
      have hhead : ¬"][".toList <+: c :: s := fun hbegin => h hbegin.isInfix
      obtain ⟨halone, hbefore⟩ := ih fun hpart => h (hpart.trans (List.suffix_cons c s).isInfix)
      refine ⟨splitParts_cons hhead halone, fun rest => splitParts_cons ?_ (hbefore rest)⟩
      -- the separator does not begin with the last character of what is before it
      cases s with
      | nil => simp
      | cons d s => simpa using hhead

/-! ### Keys -/

variable {f : FilterParam}

/-- The parts of a key are those of what is left between the brackets at its ends. -/
theorem keyParts_eq (hf : f.Legible) {inner : List Char}
    (hkey : f.key.toList = "filter[".toList ++ (f.name.toList ++ ']' :: inner)) :
    keyParts f.key =
      (splitParts (dropClosing (f.name.toList ++ ']' :: inner))).map String.ofList := by
  rw [keyParts, hkey, dropOpening_append,
    dropOpening_of_not_prefix (not_prefix_append _ hf.opening)]

private theorem keyParts_of_name (hf : f.Legible) (hoperator : f.operator = none) :
    keyParts f.key = [f.name] := by
  have hkey : f.key.toList = "filter[".toList ++ (f.name.toList ++ [']']) := by
    simp [FilterParam.key, hoperator]
  obtain ⟨halone, -⟩ := splitParts_whole hf.whole
  rw [keyParts_eq hf hkey, dropClosing_append, dropClosing_of_not_suffix (hf.closing hoperator),
    halone, List.map_singleton, String.ofList_toList]

private theorem keyParts_of_operator (hf : f.Legible) {operator : String}
    (hoperator : f.operator = some operator) : keyParts f.key = [f.name, operator] := by
  have hkey : f.key.toList =
      "filter[".toList ++ (f.name.toList ++ ']' :: ('[' :: operator.toList ++ [']'])) := by
    simp [FilterParam.key, hoperator]
  have hfront : f.name.toList ++ ']' :: ('[' :: operator.toList ++ [']']) =
      f.name.toList ++ "][".toList ++ operator.toList ++ [']'] := by
    simp
  obtain ⟨hwhole, hclosing⟩ := hf.operator operator hoperator
  have hclosed : ¬"]".toList <:+ f.name.toList ++ "][".toList ++ operator.toList := by
    have hbracket := not_suffix_append (f.name.toList ++ [']']) hclosing
    simpa using hbracket
  obtain ⟨-, hbefore⟩ := splitParts_whole hf.whole
  obtain ⟨halone, -⟩ := splitParts_whole hwhole
  rw [keyParts_eq hf hkey, hfront, dropClosing_append, dropClosing_of_not_suffix hclosed, hbefore,
    halone]
  simp

theorem readKey_key (hf : f.Legible) (defaultFilter : String) :
    readKey defaultFilter f.key = .ok (f.name, f.operatorName defaultFilter) := by
  cases hoperator : f.operator with
  | none => simp [readKey, keyParts_of_name hf hoperator, FilterParam.operatorName, hoperator]
  | some operator =>
      simp [readKey, keyParts_of_operator hf hoperator, FilterParam.operatorName, hoperator]

/-! ### Parameters

Parameters are read in their order, and the first one that is no filter is reported.
-/

theorem readLeaf_of_readKey {names : List String} {defaultFilter : String} {p : Param}
    {name operator : String} (h : readKey defaultFilter p.key = .ok (name, operator)) :
    readLeaf names defaultFilter p =
      if operator ∈ names then .ok ⟨name, some operator, .string p.value⟩
      else .error (.unknownFilter operator) := by
  rw [readLeaf, h]

/-- A parameter is read as the filter that it was made of, if its operator is registered. -/
theorem readLeaf_param (hf : f.Legible) (names : List String) (defaultFilter : String) :
    readLeaf names defaultFilter f.param =
      if f.operatorName defaultFilter ∈ names then .ok (f.leaf defaultFilter)
      else .error (.unknownFilter (f.operatorName defaultFilter)) := by
  exact readLeaf_of_readKey (readKey_key hf defaultFilter)

variable {filters : List FilterParam} {names : List String} {defaultFilter : String}

theorem readLeaves_params (hfilters : ∀ f ∈ filters, f.Legible)
    (hnames : ∀ f ∈ filters, f.operatorName defaultFilter ∈ names) :
    readLeaves names defaultFilter (filters.map FilterParam.param) =
      .ok (filters.map (FilterParam.leaf · defaultFilter)) := by
  induction filters with
  | nil => rfl
  | cons f filters ih =>
      obtain ⟨hf, hfilters⟩ := List.forall_mem_cons.mp hfilters
      obtain ⟨hname, hnames⟩ := List.forall_mem_cons.mp hnames
      rw [List.map_cons, readLeaves, readLeaf_param hf, if_pos hname, ih hfilters hnames]
      rfl

/-- Whatever the keys are made of, the first parameter that is no filter is reported. -/
theorem readLeaves_error {before after : List Param} {p : Param} {fault : Fault}
    (hbefore : ∀ q ∈ before, ∃ l, readLeaf names defaultFilter q = .ok l)
    (h : readLeaf names defaultFilter p = .error fault) :
    readLeaves names defaultFilter (before ++ p :: after) = .error fault := by
  induction before with
  | nil => rw [List.nil_append, readLeaves, h]
  | cons q before ih =>
      obtain ⟨⟨l, hl⟩, hbefore⟩ := List.forall_mem_cons.mp hbefore
      rw [List.cons_append, readLeaves, hl, ih hbefore]
      rfl

/-- The first operator that is not registered is reported. -/
theorem readLeaves_unregistered {before after : List Param} {p : Param} {name operator : String}
    (hbefore : ∀ q ∈ before, ∃ name operator,
      readKey defaultFilter q.key = .ok (name, operator) ∧ operator ∈ names)
    (hkey : readKey defaultFilter p.key = .ok (name, operator)) (hoperator : operator ∉ names) :
    readLeaves names defaultFilter (before ++ p :: after) = .error (.unknownFilter operator) := by
  apply readLeaves_error
  · intro q hq
    obtain ⟨name, operator, hread, hregistered⟩ := hbefore q hq
    rw [readLeaf_of_readKey hread, if_pos hregistered]
    exact ⟨_, rfl⟩
  · rw [readLeaf_of_readKey hkey, if_neg hoperator]

/-- Whatever its key, the filter of a parameter has a registered operator. -/
theorem exists_operator_of_readLeaf {param : Param} {l : Leaf}
    (h : readLeaf names defaultFilter param = .ok l) :
    ∃ operator ∈ names, l.filter = some operator := by
  unfold readLeaf at h
  split at h
  · cases h
  · rename_i operator _
    split at h
    · rename_i hoperator
      cases h
      exact ⟨operator, hoperator, rfl⟩
    · cases h

theorem exists_operator_of_readLeaves {params : List Param} {leaves : List Leaf}
    (h : readLeaves names defaultFilter params = .ok leaves) :
    ∀ l ∈ leaves, ∃ operator ∈ names, l.filter = some operator := by
  induction params generalizing leaves with
  | nil =>
      cases h
      simp
  | cons param params ih =>
      unfold readLeaves at h
      split at h
      · cases h
      · rename_i l hl
        cases hrest : readLeaves names defaultFilter params with
        | error fault =>
            rw [hrest] at h
            cases h
        | ok rest =>
            rw [hrest] at h
            cases h
            exact List.forall_mem_cons.mpr ⟨exists_operator_of_readLeaf hl, ih hrest⟩

/-- Combining leaves from the left adds them one after another. -/
theorem conjunction_eq_leftNested (leaves : List Leaf) :
    conjunction leaves = FilterTree.leftNested leaves := by
  cases leaves with
  | nil => rfl
  | cons first rest =>
      rw [conjunction, FilterTree.leftNested, List.foldl_cons, Option.elim_none]
      generalize FilterTree.leaf first = tree
      induction rest generalizing tree with
      | nil => rfl
      | cons l rest ih => exact ih (.and tree (.leaf l))

end Params

end FilterSelect
