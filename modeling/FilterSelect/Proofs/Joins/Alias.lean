/-
Aliases are distinct.

An alias is a table, an underscore and a number.  A table may itself end in an
underscore and a number, but digits are no underscores: whatever stands before it,
the last underscore of an alias is the one in front of its number, so aliases with
different numbers are different.  The joins of a plan are numbered by their places.

The name of the root table is outside of this: it can be any text, also one that
looks like an alias.
-/
import FilterSelect.Proofs.Joins.Plan

namespace FilterSelect

/-- Where the last underscore of a text is, there is only one way to split it. -/
theorem eq_of_append_underscore {front front' back back' : List Char} (hback : '_' ∉ back)
    (hback' : '_' ∉ back') (h : front ++ '_' :: back = front' ++ '_' :: back') : back = back' := by
  rcases List.append_eq_append_iff.mp h with ⟨more, -, hmore⟩ | ⟨more, -, hmore⟩
  · cases more with
    | nil => exact (List.cons.inj hmore).2
    | cons c rest =>
        have hin : '_' ∈ back := by
          rw [(List.cons.inj hmore).2]
          simp
        exact absurd hin hback
  · cases more with
    | nil => exact ((List.cons.inj hmore).2).symm
    | cons c rest =>
        have hin : '_' ∈ back' := by
          rw [(List.cons.inj hmore).2]
          simp
        exact absurd hin hback'

private theorem number_of_aliasOf {table table' : String} {number number' : Nat}
    (h : aliasOf table number = aliasOf table' number') : number = number' := by
  have hchars : table.toList ++ '_' :: Nat.toDigits 10 number =
      table'.toList ++ '_' :: Nat.toDigits 10 number' := by
    simpa [aliasOf, Nat.toString_eq_repr] using congrArg String.toList h
  have hdigits : Nat.toDigits 10 number = Nat.toDigits 10 number' :=
    eq_of_append_underscore Nat.underscore_not_in_toDigits Nat.underscore_not_in_toDigits hchars
  simpa using congrArg (fun digits => Nat.ofDigitChars 10 digits 0) hdigits

namespace Scope

variable {scope : Scope} {plan : List PendingJoin}

/-- An alias is the table with a number that is at most the number of joins so far. -/
theorem Planned.numbered (h : scope.Planned plan) :
    ∀ p ∈ plan, ∃ number, p.join.aliasName = aliasOf p.join.table number ∧
      number ≤ plan.length := by
  induction h with
  | nil => simp
  | @snoc plan before segment qualifier near target relationship _ _ _ _ ih =>
      intro p hp
      rcases List.mem_append.mp hp with hp | hp
      · obtain ⟨number, hname, hle⟩ := ih p hp
        refine ⟨number, hname, ?_⟩
        rw [List.length_append]
        omega
      · rw [List.mem_singleton.mp hp]
        exact ⟨plan.length + 1, rfl, by simp⟩

/-- The numbers in use are those from 1 to the number of joins. -/
theorem Planned.mem_numbers (h : scope.Planned plan) (number : Nat) :
    (∃ p ∈ plan, ∃ table, p.join.aliasName = aliasOf table number) ↔
      1 ≤ number ∧ number ≤ plan.length := by
  induction h with
  | nil =>
      have hnone : ¬(1 ≤ number ∧ number ≤ 0) := by omega
      simpa using hnone
  | @snoc plan before segment qualifier near target relationship _ _ _ _ ih =>
      have hnew : (∃ table, aliasOf target.table (plan.length + 1) = aliasOf table number) ↔
          number = plan.length + 1 := by
        constructor
        · rintro ⟨table, heq⟩
          exact (number_of_aliasOf heq).symm
        · rintro rfl
          exact ⟨target.table, rfl⟩
      simp only [List.mem_append, List.mem_singleton, or_and_right, exists_or, ih, exists_eq_left,
        hnew, List.length_append, List.length_singleton]
      omega

theorem Planned.nodup_aliases (h : scope.Planned plan) :
    (plan.map fun p => p.join.aliasName).Nodup := by
  induction h with
  | nil => simp
  | @snoc plan before segment qualifier near target relationship earlier _ _ _ ih =>
      rw [List.map_append, List.nodup_append]
      refine ⟨ih, by simp, ?_⟩
      intro a ha b hb hab
      obtain ⟨p, hp, rfl⟩ := List.mem_map.mp ha
      obtain ⟨number, hname, hle⟩ := earlier.numbered p hp
      rw [List.map_singleton, List.mem_singleton] at hb
      rw [hname, hb] at hab
      have hnumber := number_of_aliasOf hab
      omega

end Scope

end FilterSelect
