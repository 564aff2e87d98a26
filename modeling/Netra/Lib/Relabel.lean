import Mathlib.Algebra.BigOperators.Group.Finset.Basic
import Mathlib.GroupTheory.Perm.Basic
import Mathlib.Logic.Equiv.Fintype
import Mathlib.Tactic.Abel
/-!
# Sums over a relabelled selection

Things have weights and labels, and the labels select which things count. The
total is the same however the labels are handed out exactly when the labels
select nothing or everything, or all weights are equal.
-/
namespace Relabel

variable {ι : Type}

/-- Two places can be given any two labels. -/
theorem exists_perm [DecidableEq ι] {i j a b : ι} (hij : i ≠ j) (hab : a ≠ b) :
    ∃ σ : Equiv.Perm ι, σ i = a ∧ σ j = b := by
  let τ := Equiv.swap i a
  have hτ : τ i = a := Equiv.swap_apply_left i a
  have hne : τ j ≠ a := by
    intro h
    exact hij (τ.injective (hτ.trans h.symm))
  refine ⟨τ.trans (Equiv.swap (τ j) b), ?_, ?_⟩
  · rw [Equiv.trans_apply, hτ]
    exact Equiv.swap_apply_of_ne_of_ne hne.symm hab
  · rw [Equiv.trans_apply]
    exact Equiv.swap_apply_left _ _

variable [Fintype ι]

/-- The total weight of the places whose label is selected. -/
def total (sel : ι → Prop) [DecidablePred sel] (f : ι → ℕ) (σ : Equiv.Perm ι) : ℕ :=
  ∑ i, if sel (σ i) then f i else 0

variable {sel : ι → Prop} [DecidablePred sel] {f : ι → ℕ}

theorem total_const {c : ℕ} (hf : ∀ i, f i = c) (σ : Equiv.Perm ι) : total sel f σ = total sel f 1 := by
  simp only [total, hf, Equiv.Perm.one_apply]
  exact Equiv.sum_comp σ fun i => if sel i then c else 0

variable [DecidableEq ι]

/-- Swapping the labels of a place that counts and one that does not moves the
total by the difference of their weights. -/
theorem total_swap {σ : Equiv.Perm ι} {i j : ι} (hi : sel (σ i)) (hj : ¬ sel (σ j)) :
    total sel f ((Equiv.swap i j).trans σ) + f i = total sel f σ + f j := by
  have hij : i ≠ j := by
    rintro rfl
    exact hj hi
  have hsum : total sel f ((Equiv.swap i j).trans σ) = ∑ m, if sel (σ m) then f (Equiv.swap i j m) else 0 := by
    rw [total, ← Equiv.sum_comp (Equiv.swap i j)]
    simp
  have hrest : ∑ m ∈ (Finset.univ.erase i).erase j, (if sel (σ m) then f (Equiv.swap i j m) else 0) =
      ∑ m ∈ (Finset.univ.erase i).erase j, if sel (σ m) then f m else 0 := by
    refine Finset.sum_congr rfl fun m hm => ?_
    rw [Finset.mem_erase, Finset.mem_erase] at hm
    rw [Equiv.swap_apply_of_ne_of_ne hm.2.1 hm.1]
  have hj' : j ∈ Finset.univ.erase i := Finset.mem_erase.2 ⟨hij.symm, Finset.mem_univ j⟩
  rw [hsum, total, ← Finset.add_sum_erase _ _ (Finset.mem_univ i), ← Finset.add_sum_erase _ _ hj', hrest,
    ← Finset.add_sum_erase _ (fun m => if sel (σ m) then f m else 0) (Finset.mem_univ i),
    ← Finset.add_sum_erase _ (fun m => if sel (σ m) then f m else 0) hj', if_pos hi, if_pos hi, if_neg hj,
    if_neg hj, Equiv.swap_apply_left]
  abel

/-- The total does not depend on the labelling iff nothing or everything is
selected, or all weights are equal. -/
theorem total_invariant_iff : (∀ σ, total sel f σ = total sel f 1) ↔
    (∀ i, ¬ sel i) ∨ (∀ i, sel i) ∨ ∀ i j, f i = f j := by
  constructor
  · intro hinv
    by_contra hno
    rw [not_or, not_or] at hno
    obtain ⟨h1, h2, h3⟩ := hno
    obtain ⟨a, ha⟩ := not_forall_not.1 h1
    obtain ⟨b, hb⟩ := not_forall.1 h2
    obtain ⟨i, hi⟩ := not_forall.1 h3
    obtain ⟨j, hij⟩ := not_forall.1 hi
    have hab : a ≠ b := by
      rintro rfl
      exact hb ha
    have hne : i ≠ j := by
      rintro rfl
      exact hij rfl
    obtain ⟨σ, hσi, hσj⟩ := exists_perm hne hab
    have hswap := total_swap (f := f) (σ := σ) (i := i) (j := j) (hσi ▸ ha) (hσj ▸ hb)
    rw [hinv, hinv σ] at hswap
    exact hij (Nat.add_left_cancel hswap)
  · rintro (hnone | hall | hconst) σ
    · simp [total, hnone]
    · simp [total, hall]
    · rcases isEmpty_or_nonempty ι with hι | ⟨⟨i⟩⟩
      · simp [total]
      · exact total_const (fun j => hconst j i) σ

end Relabel
