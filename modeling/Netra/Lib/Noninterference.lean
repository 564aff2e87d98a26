import Netra.Lib.Keyed
/-!
# Noninterference of machines

An observer sees `low i` of a call `i` and `obs e` of an output `e`; `none` is
hidden from it. `Unwinding` has the conditions on single calls: a hidden call
changes and outputs nothing the observer can tell, and calls that look the
same keep states that look the same so. `Unwinding.run` lifts them to runs.
-/
namespace Mealy

variable {σ ι ε α β : Type}

structure Unwinding (f : σ → ι → σ × List ε) (low : ι → Option α) (obs : ε → Option β)
    (R : σ → σ → Prop) : Prop where
  equiv : Equivalence R
  hidden : ∀ s i, low i = none → R s (f s i).1 ∧ (f s i).2.filterMap obs = []
  seen : ∀ s t i j a, R s t → low i = some a → low j = some a →
    R (f s i).1 (f t j).1 ∧ (f s i).2.filterMap obs = (f t j).2.filterMap obs

namespace Unwinding

variable {f : σ → ι → σ × List ε} {low : ι → Option α} {obs : ε → Option β} {R : σ → σ → Prop}

/-- A run of hidden calls. -/
theorem run_hidden (hu : Unwinding f low obs R) (s : σ) {is : List ι} (hl : ∀ i ∈ is, low i = none) :
    R s (after f s is) ∧ (outs f s is).flatten.filterMap obs = [] := by
  induction is generalizing s with
  | nil => exact ⟨hu.equiv.refl s, rfl⟩
  | cons i is ih =>
    obtain ⟨hr, ho⟩ := hu.hidden s i (hl i List.mem_cons_self)
    obtain ⟨hr', ho'⟩ := ih (f s i).1 fun j hj => hl j (List.mem_cons_of_mem _ hj)
    refine ⟨hu.equiv.trans hr hr', ?_⟩
    rw [outs_cons, List.flatten_cons, List.filterMap_append, ho, ho']
    rfl

/-- Runs that look the same end in states, and give outputs, that look the same. -/
theorem run (hu : Unwinding f low obs R) {s t : σ} (hst : R s t) {is js : List ι}
    (hl : is.filterMap low = js.filterMap low) :
    R (after f s is) (after f t js) ∧
      (outs f s is).flatten.filterMap obs = (outs f t js).flatten.filterMap obs := by
  induction is generalizing s t js with
  | nil =>
    obtain ⟨hr, ho⟩ := hu.run_hidden t (List.filterMap_eq_nil_iff.1 hl.symm)
    exact ⟨hu.equiv.trans hst hr, ho.symm⟩
  | cons i is ih =>
    cases hi : low i with
    | none =>
      obtain ⟨hr, ho⟩ := hu.hidden s i hi
      rw [List.filterMap_cons_none hi] at hl
      obtain ⟨hr', ho'⟩ := ih (hu.equiv.trans (hu.equiv.symm hr) hst) hl
      refine ⟨hr', ?_⟩
      rw [outs_cons, List.flatten_cons, List.filterMap_append, ho, List.nil_append, ho']
    | some a =>
      rw [List.filterMap_cons_some hi] at hl
      obtain ⟨hid, j, js', rfl, hhid, hj, htail⟩ := List.filterMap_eq_cons_iff.1 hl.symm
      obtain ⟨hr, ho⟩ := hu.run_hidden t hhid
      obtain ⟨hr', ho'⟩ := hu.seen s (after f t hid) i j a (hu.equiv.trans hst hr) hi hj
      obtain ⟨hr'', ho''⟩ := ih hr' htail.symm
      refine ⟨by rwa [after_append, after_cons, after_cons], ?_⟩
      rw [outs_append, outs_cons, outs_cons, List.flatten_append, List.flatten_cons, List.flatten_cons,
        List.filterMap_append, List.filterMap_append, List.filterMap_append, ho, ho', ho'', List.nil_append]

end Unwinding

/-! ## Keyed machines -/

section
variable {κ : Type} [DecidableEq κ]

/-- The observer of the elements under key `k`. -/
def only (tag : ι → κ) (k : κ) (x : ι) : Option ι := if tag x = k then some x else none

theorem filterMap_only (tag : ι → κ) (k : κ) (l : List ι) :
    l.filterMap (only tag k) = l.filter (tag · = k) := by
  induction l with
  | nil => rfl
  | cons x l ih =>
    by_cases hx : tag x = k
    · have hsome : only tag k x = some x := if_pos hx
      rw [List.filterMap_cons_some hsome, ih, List.filter_cons_of_pos (by simpa using hx)]
    · have hnone : only tag k x = none := if_neg hx
      rw [List.filterMap_cons_none hnone, ih, List.filter_cons_of_neg (by simpa using hx)]

theorem only_eq_none {tag : ι → κ} {k : κ} {x : ι} : only tag k x = none ↔ tag x ≠ k := by
  unfold only
  split <;> simp_all

theorem only_eq_some {tag : ι → κ} {k : κ} {x y : ι} : only tag k x = some y ↔ tag x = k ∧ x = y := by
  unfold only
  split <;> simp_all

/-- An observer of key `k` who sees all that the machine under `k` depends on. -/
theorem unwinding_keyed (key : ι → κ) (g : Option σ → ι → σ × List ε) (k : κ) (low : ι → Option α)
    (obs : ε → Option β) (hlow : ∀ i, low i = none ↔ key i ≠ k)
    (hg : ∀ s i j, low i = low j → key i = k → key j = k →
      (g s i).1 = (g s j).1 ∧ (g s i).2.filterMap obs = (g s j).2.filterMap obs)
    (ho : ∀ s i, key i ≠ k → (g s i).2.filterMap obs = []) :
    Unwinding (keyed key g) low obs (fun d d' => d.get? k = d'.get? k) where
  equiv := ⟨fun _ => rfl, Eq.symm, Eq.trans⟩
  hidden d i hi := by
    have hk := (hlow i).1 hi
    exact ⟨by rw [get?_keyed, if_neg hk], ho _ _ hk⟩
  seen d d' i j a hd hi hj := by
    have hik : key i = k := by
      by_contra hk
      simp [(hlow i).2 hk] at hi
    have hjk : key j = k := by
      by_contra hk
      simp [(hlow j).2 hk] at hj
    obtain ⟨h1, h2⟩ := hg (d.get? k) i j (hi.trans hj.symm) hik hjk
    refine ⟨?_, ?_⟩
    · rw [get?_keyed, get?_keyed, if_pos hik, if_pos hjk, ← hd]
      simp only [single, h1]
    · simp only [keyed, hik, hjk, ← hd]
      exact h2

/-- The observer who sees the whole calls and outputs of key `k`. -/
theorem unwinding_only (key : ι → κ) (g : Option σ → ι → σ × List ε) (k : κ) (tag : ε → κ)
    (ht : ∀ o i, ∀ e ∈ (g o i).2, tag e = key i) :
    Unwinding (keyed key g) (only key k) (only tag k) (fun d d' => d.get? k = d'.get? k) := by
  refine unwinding_keyed key g k _ _ (fun _ => only_eq_none) ?_ ?_
  · intro s i j hij hi hj
    have := (only_eq_some.1 (hij.trans (if_pos hj))).2
    rw [this]
    exact ⟨rfl, rfl⟩
  · intro s i hi
    refine List.filterMap_eq_nil_iff.2 fun e he => only_eq_none.2 ?_
    rw [ht s i e he]
    exact hi

end

end Mealy
