import Mathlib.Data.List.Induction
import Mathlib.Data.List.Pairwise
import Mathlib.Order.Lattice
/-!
# The first best of a list

A loop over `xs` that keeps a candidate and its score, and takes the next one
only when it scores strictly more. It ends with the first maximum of `xs`, or
with what it started from when nothing scores more than that.
-/
namespace Argmax

variable {α β : Type} [LinearOrder β]

/-- The loop, from the candidate and score `best` on. -/
def keepBest (score : α → β) (best : α × β) (xs : List α) : α × β :=
  xs.foldl (fun best x => if best.2 < score x then (x, score x) else best) best

/-- No candidate before `x` scores as much, and none after it scores more. -/
def FirstMax (score : α → β) (xs : List α) (x : α) : Prop :=
  ∃ pre post, xs = pre ++ x :: post ∧ (∀ y ∈ pre, score y < score x) ∧ ∀ y ∈ post, score y ≤ score x

variable {score : α → β} {xs : List α} {x : α}

theorem FirstMax.mem (h : FirstMax score xs x) : x ∈ xs := by
  obtain ⟨pre, post, rfl, -, -⟩ := h
  exact List.mem_append_right _ List.mem_cons_self

theorem FirstMax.le (h : FirstMax score xs x) {y : α} (hy : y ∈ xs) : score y ≤ score x := by
  obtain ⟨pre, post, rfl, hpre, hpost⟩ := h
  rcases List.mem_append.1 hy with hy | hy
  · exact (hpre y hy).le
  · rcases List.mem_cons.1 hy with rfl | hy
    · exact le_rfl
    · exact hpost y hy

theorem FirstMax.unique (h : FirstMax score xs x) {y : α} (h' : FirstMax score xs y) : x = y := by
  obtain ⟨pre, post, rfl, hpre, hpost⟩ := h
  obtain ⟨pre', post', he, hpre', hpost'⟩ := h'
  rcases List.append_eq_append_iff.1 he with ⟨as, rfl, ha⟩ | ⟨as, rfl, ha⟩
  · cases as with
    | nil => exact (List.cons.inj ha).1
    | cons a as =>
      -- `x` comes before `y`, which is among those after it
      obtain ⟨rfl, rfl⟩ := List.cons.inj ha
      exact absurd (hpost y (by simp)) (not_le.2 (hpre' x (by simp)))
  · cases as with
    | nil => exact (List.cons.inj ha).1.symm
    | cons a as =>
      obtain ⟨rfl, rfl⟩ := List.cons.inj ha
      exact absurd (hpost' x (by simp)) (not_le.2 (hpre y (by simp)))

/-- In an increasing list, smaller candidates are the ones before. -/
theorem FirstMax.lt_of_lt [Preorder α] (h : FirstMax score xs x) (hsorted : xs.Pairwise (· < ·)) {y : α} (hy : y ∈ xs)
    (hlt : y < x) : score y < score x := by
  obtain ⟨pre, post, rfl, hpre, -⟩ := h
  rcases List.mem_append.1 hy with hy | hy
  · exact hpre y hy
  · obtain ⟨hafter, -⟩ := List.pairwise_cons.1 (List.pairwise_append.1 hsorted).2.1
    rcases List.mem_cons.1 hy with rfl | hy
    · exact absurd hlt (lt_irrefl y)
    · exact absurd (hlt.trans (hafter y hy)) (lt_irrefl y)

/-- What the loop ends with. -/
theorem keepBest_spec (score : α → β) (best : α × β) (xs : List α) :
    (keepBest score best xs = best ∧ ∀ x ∈ xs, score x ≤ best.2) ∨
      ∃ x, keepBest score best xs = (x, score x) ∧ best.2 < score x ∧ FirstMax score xs x := by
  induction xs using List.reverseRecOn with
  | nil => exact .inl ⟨rfl, fun x hx => by cases hx⟩
  | append_singleton xs y ih =>
    have hstep : keepBest score best (xs ++ [y]) =
        if (keepBest score best xs).2 < score y then (y, score y) else keepBest score best xs := by
      rw [keepBest, List.foldl_append]
      rfl
    rw [hstep]
    by_cases hlt : (keepBest score best xs).2 < score y
    · rw [if_pos hlt]
      -- `y` beats all that came before it
      have hbefore : best.2 < score y ∧ ∀ x ∈ xs, score x < score y := by
        rcases ih with ⟨hkept, hle⟩ | ⟨x, hkept, hbest, hfirst⟩ <;> rw [hkept] at hlt
        · exact ⟨hlt, fun x hx => (hle x hx).trans_lt hlt⟩
        · exact ⟨hbest.trans hlt, fun x' hx' => (hfirst.le hx').trans_lt hlt⟩
      exact .inr ⟨y, rfl, hbefore.1, xs, [], rfl, hbefore.2, fun x hx => by cases hx⟩
    · rw [if_neg hlt]
      rw [not_lt] at hlt
      rcases ih with ⟨hkept, hle⟩ | ⟨x, hkept, hbest, pre, post, rfl, hpre, hpost⟩ <;> rw [hkept] at hlt ⊢
      · refine .inl ⟨rfl, fun x hx => ?_⟩
        rcases List.mem_append.1 hx with hx | hx
        · exact hle x hx
        · exact List.mem_singleton.1 hx ▸ hlt
      · refine .inr ⟨x, rfl, hbest, pre, post ++ [y], by simp, hpre, fun x' hx' => ?_⟩
        rcases List.mem_append.1 hx' with hx' | hx'
        · exact hpost x' hx'
        · exact List.mem_singleton.1 hx' ▸ hlt

/-- The loop without a candidate to start from, only a score to beat. -/
theorem keepBest_some_spec (score : α → β) (least : β) (xs : List α) :
    ((keepBest (fun o : Option α => o.elim least score) (none, least) (xs.map some)).1 = none ∧
        ∀ x ∈ xs, score x ≤ least) ∨
      ∃ x, (keepBest (fun o : Option α => o.elim least score) (none, least) (xs.map some)).1 = some x ∧
        least < score x ∧ FirstMax score xs x := by
  rcases keepBest_spec (fun o : Option α => o.elim least score) (none, least) (xs.map some) with
    ⟨hkept, hle⟩ | ⟨o, hkept, hbest, pre, post, he, hpre, hpost⟩
  · exact .inl ⟨by rw [hkept], fun x hx => hle (some x) (List.mem_map_of_mem hx)⟩
  · obtain ⟨pre', rest, rfl, rfl, hrest⟩ := List.map_eq_append_iff.1 he
    obtain ⟨x, post', rfl, rfl, rfl⟩ := List.map_eq_cons_iff.1 hrest
    exact .inr ⟨x, by rw [hkept], hbest, pre', post', rfl, fun y hy => hpre (some y) (List.mem_map_of_mem hy),
      fun y hy => hpost (some y) (List.mem_map_of_mem hy)⟩

end Argmax
