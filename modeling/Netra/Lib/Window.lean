import Netra.Lib.Dict
import Mathlib.Algebra.BigOperators.Group.List.Basic
/-!
# Votes in a window

The last `n` votes of a list, where every voter adds a block of votes: one
against, or one or more in favour.
-/
namespace PyLib

variable {α : Type}

/-- What fell out of the window before falls out of it after, too. -/
theorem rtake_append_of_rtake (n : Nat) (l m : List α) : (l.rtake n ++ m).rtake n = (l ++ m).rtake n := by
  induction m using List.reverseRecOn with
  | nil => simpa using rtake_rtake (le_refl n) l
  | append_singleton m x ih =>
    cases n with
    | zero => simp [List.rtake_zero]
    | succ n =>
      have hshort := congrArg (List.rtake · n) ih
      simp only [rtake_rtake (Nat.le_succ n)] at hshort
      rw [← List.append_assoc, ← List.append_assoc, List.rtake_concat_succ, List.rtake_concat_succ, hshort]

theorem rtake_succ_cases (n : Nat) (l : List α) :
    l.rtake (n + 1) = l.rtake n ∨ ∃ x, l.rtake (n + 1) = x :: l.rtake n := by
  simp only [List.rtake]
  rcases Nat.lt_or_ge n l.length with h | h
  · right
    refine ⟨l[l.length - (n + 1)], ?_⟩
    rw [List.drop_eq_getElem_cons (by omega)]
    congr 2
    omega
  · left
    rw [Nat.sub_eq_zero_of_le h, Nat.sub_eq_zero_of_le (Nat.le_succ_of_le h)]

theorem count_rtake_succ_le (n : Nat) (l : List Bool) : (l.rtake (n + 1)).count true ≤ (l.rtake n).count true + 1 := by
  rcases rtake_succ_cases n l with h | ⟨x, h⟩
  · rw [h]
    exact Nat.le_succ _
  · rw [h, List.count_cons]
    split <;> omega

/-- A further vote in favour never lowers the votes in favour. -/
theorem count_rtake_le_concat (n : Nat) (l : List Bool) :
    (l.rtake n).count true ≤ ((l ++ [true]).rtake n).count true := by
  cases n with
  | zero => simp [List.rtake_zero]
  | succ n =>
    rw [List.rtake_concat_succ, List.count_append, List.count_singleton_self]
    exact count_rtake_succ_le n l

theorem count_rtake_mono (n : Nat) (l : List Bool) {i j : Nat} (h : i ≤ j) :
    ((l ++ List.replicate i true).rtake n).count true ≤ ((l ++ List.replicate j true).rtake n).count true := by
  induction j, h using Nat.le_induction with
  | base => exact le_refl _
  | succ j _ ih =>
    rw [List.replicate_succ', ← List.append_assoc]
    exact ih.trans (count_rtake_le_concat n _)

/-- What a voter with `m` votes in favour adds. -/
def ballot (m : Nat) : List Bool := if m = 0 then [false] else List.replicate m true

/-- In a window of `n` votes there are at least as many in favour as there are
voters in favour among the last `n`. -/
theorem countP_rtake_le_count {voters : List α} (votes : α → Nat) (n : Nat) :
    (voters.rtake n).countP (0 < votes ·) ≤ ((voters.flatMap (ballot ∘ votes)).rtake n).count true := by
  induction voters using List.reverseRecOn generalizing n with
  | nil => simp
  | append_singleton voters v ih =>
    cases n with
    | zero => simp [List.rtake_zero]
    | succ n =>
      rw [List.rtake_concat_succ, List.countP_append, List.flatMap_append, List.flatMap_singleton]
      by_cases hv : votes v = 0
      · simpa [ballot, hv, List.rtake_concat_succ] using ih n
      · have hone : ((voters.flatMap (ballot ∘ votes)).rtake n).count true + 1 ≤
            ((voters.flatMap (ballot ∘ votes) ++ List.replicate (votes v) true).rtake (n + 1)).count true := by
          refine le_trans ?_ (count_rtake_mono (n + 1) _ (Nat.one_le_iff_ne_zero.2 hv))
          rw [List.replicate_one, List.rtake_concat_succ, List.count_append, List.count_singleton_self]
        have hself : [v].countP (0 < votes ·) = 1 := by simp [Nat.pos_of_ne_zero hv]
        rw [hself, Function.comp_apply, ballot, if_neg hv]
        exact (Nat.add_le_add_right (ih n) 1).trans hone

end PyLib
