import Netra.Lib.Machine
import Mathlib.Data.List.Chain
/-!
# Reported changes of a flag that is forgotten

Something is sighted now and then; each sighting says whether it is inside. A
machine remembers the last answer and reports every change, and forgets it when
there was no sighting for longer than `timeout`. Reports alternate exactly when
it never forgets that the thing was inside and sees it inside again
(`alternates_iff`).
-/
namespace Alternation

/-- The values in `vs` that differ from the one before, which is `v` for the first. -/
def changes (v : Bool) : List Bool → List Bool
  | [] => []
  | x :: xs => if x = v then changes v xs else x :: changes x xs

theorem isChain_changes (v : Bool) (xs rest : List Bool) :
    List.IsChain (· ≠ ·) (v :: (changes v xs ++ rest)) ↔ List.IsChain (· ≠ ·) (xs.getLastD v :: rest) := by
  induction xs generalizing v with
  | nil => rfl
  | cons x xs ih =>
    rw [changes, List.getLastD_cons, ← ih]
    split
    · rename_i hx
      rw [hx]
    · rename_i hx
      rw [List.cons_append, List.isChain_cons_cons]
      exact and_iff_right (Ne.symm hx)

/-- From outside, the first report is an entry, if there is one. -/
theorem changes_false (xs : List Bool) :
    (true ∈ xs ∧ ∃ ys, changes false xs = true :: ys) ∨
      (true ∉ xs ∧ changes false xs = [] ∧ xs.getLastD false = false) := by
  induction xs with
  | nil => exact .inr ⟨by simp, rfl, rfl⟩
  | cons x xs ih =>
    cases x with
    | true => exact .inl ⟨by simp, _, rfl⟩
    | false =>
      rw [List.getLastD_cons]
      simpa [changes] using ih

/-- `true` and `false` take turns, and `true` begins. -/
def Alternates (l : List Bool) : Prop := List.IsChain (· ≠ ·) (false :: l)

instance (l : List Bool) : Decidable (Alternates l) := inferInstanceAs (Decidable (List.IsChain _ _))

/-- The sightings of a frame, in order, and its time. -/
structure Frame (τ : Type) where
  inside : List Bool
  time : τ

section
variable {τ : Type} [Sub τ] [LT τ] (timeout : τ)

/-- One frame: what is remembered afterwards, with the time of the last sighting,
and what is reported. -/
def step [DecidableLT τ] (o : Option (Bool × τ)) (f : Frame τ) : Option (Bool × τ) × List Bool :=
  let v := (o.map Prod.fst).getD false
  let seen := if f.inside = [] then o else some (f.inside.getLastD v, f.time)
  (seen.filter fun s => !(f.inside = [] && timeout < f.time - s.2), changes v f.inside)

/-- The answer at time `t` is forgotten in one of the first frames of `fs`, before
the next sighting; some later sighting is inside. -/
def Lost (t : τ) (fs : List (Frame τ)) : Prop :=
  ∃ gap rest, fs = gap ++ rest ∧ (∀ m ∈ gap, m.inside = []) ∧ (∃ m ∈ gap, timeout < m.time - t) ∧
    ∃ g ∈ rest, true ∈ g.inside

/-- It is inside at its last sighting in some frame, and that is lost. -/
def Reenters (fs : List (Frame τ)) : Prop :=
  ∃ pre d rest, fs = pre ++ d :: rest ∧ d.inside.getLast? = some true ∧ Lost timeout d.time rest

variable {timeout}

theorem lost_inside {t : τ} {fs : List (Frame τ)} (h : Lost timeout t fs) : ∃ g ∈ fs, true ∈ g.inside := by
  obtain ⟨gap, rest, rfl, -, -, g, hg, hin⟩ := h
  exact ⟨g, List.mem_append_right _ hg, hin⟩

theorem not_lost_nil (t : τ) : ¬ Lost timeout t ([] : List (Frame τ)) := fun h => by
  obtain ⟨g, hg, -⟩ := lost_inside h
  cases hg

theorem lost_cons (t : τ) (f : Frame τ) (fs : List (Frame τ)) :
    Lost timeout t (f :: fs) ↔ f.inside = [] ∧
      ((timeout < f.time - t ∧ ∃ g ∈ fs, true ∈ g.inside) ∨ Lost timeout t fs) := by
  constructor
  · rintro ⟨gap, rest, heq, habsent, ⟨m, hm, hlate⟩, g, hg, hin⟩
    cases gap with
    | nil => cases hm
    | cons f' gap =>
      obtain ⟨rfl, rfl⟩ := List.cons.inj heq
      refine ⟨habsent f (List.mem_cons_self ..), ?_⟩
      rcases List.mem_cons.1 hm with rfl | hm
      · exact .inl ⟨hlate, g, List.mem_append_right _ hg, hin⟩
      · exact .inr ⟨gap, rest, rfl, fun m' hm' => habsent m' (List.mem_cons_of_mem _ hm'), ⟨m, hm, hlate⟩, g, hg, hin⟩
  · rintro ⟨hf, ⟨hlate, hlater⟩ | ⟨gap, rest, rfl, habsent, ⟨m, hm, hlate⟩, hlater⟩⟩
    · exact ⟨[f], fs, rfl, by simpa using hf, ⟨f, List.mem_singleton_self f, hlate⟩, hlater⟩
    · refine ⟨f :: gap, rest, rfl, ?_, ⟨m, List.mem_cons_of_mem _ hm, hlate⟩, hlater⟩
      simpa [hf] using habsent

theorem not_reenters_nil : ¬ Reenters timeout ([] : List (Frame τ)) := by
  rintro ⟨pre, d, rest, heq, -⟩
  simp at heq

theorem reenters_cons (f : Frame τ) (fs : List (Frame τ)) :
    Reenters timeout (f :: fs) ↔
      (f.inside.getLast? = some true ∧ Lost timeout f.time fs) ∨ Reenters timeout fs := by
  constructor
  · rintro ⟨pre, d, rest, heq, hin, hlost⟩
    cases pre with
    | nil =>
      obtain ⟨rfl, rfl⟩ := List.cons.inj heq
      exact .inl ⟨hin, hlost⟩
    | cons f' pre =>
      obtain ⟨rfl, rfl⟩ := List.cons.inj heq
      exact .inr ⟨pre, d, rest, rfl, hin, hlost⟩
  · rintro (⟨hin, hlost⟩ | ⟨pre, d, rest, rfl, hin, hlost⟩)
    · exact ⟨[], f, fs, rfl, hin, hlost⟩
    · exact ⟨f :: pre, d, rest, rfl, hin, hlost⟩

theorem reenters_inside {fs : List (Frame τ)} (h : Reenters timeout fs) : ∃ g ∈ fs, true ∈ g.inside := by
  obtain ⟨pre, d, rest, rfl, -, hlost⟩ := h
  obtain ⟨g, hg, hin⟩ := lost_inside hlost
  exact ⟨g, List.mem_append_right _ (List.mem_cons_of_mem _ hg), hin⟩

/-- What goes wrong after the state `o`: the answer it remembers is lost, or a
later one. -/
def Breaks (timeout : τ) (o : Option (Bool × τ)) (fs : List (Frame τ)) : Prop :=
  (∃ s ∈ o, s.1 = true ∧ Lost timeout s.2 fs) ∨ Reenters timeout fs

theorem breaks_none (fs : List (Frame τ)) : Breaks timeout none fs ↔ Reenters timeout fs := by
  simp [Breaks]

theorem breaks_some (s : Bool × τ) (fs : List (Frame τ)) :
    Breaks timeout (some s) fs ↔ (s.1 = true ∧ Lost timeout s.2 fs) ∨ Reenters timeout fs := by
  simp [Breaks]

theorem breaks_present (o : Option (Bool × τ)) (v : Bool) {f : Frame τ} (hf : f.inside ≠ []) (fs : List (Frame τ)) :
    Breaks timeout o (f :: fs) ↔ Breaks timeout (some (f.inside.getLastD v, f.time)) fs := by
  have hlast : f.inside.getLastD v = true ↔ f.inside.getLast? = some true := by
    rw [List.getLastD_eq_getLast?]
    cases hl : f.inside.getLast? with
    | none => exact absurd (List.getLast?_eq_none_iff.1 hl) hf
    | some x => simp
  rw [breaks_some, hlast, Breaks, reenters_cons]
  simp [lost_cons, hf]

theorem reenters_absent {f : Frame τ} (hf : f.inside = []) (fs : List (Frame τ)) :
    Reenters timeout (f :: fs) ↔ Reenters timeout fs := by
  simp [reenters_cons, hf]

/-- A frame without a sighting in which the answer is forgotten. -/
theorem breaks_forgotten {s : Bool × τ} {f : Frame τ} (hf : f.inside = []) (hlate : timeout < f.time - s.2)
    (fs : List (Frame τ)) :
    Breaks timeout (some s) (f :: fs) ↔
      (s.1 = true ∧ ∃ g ∈ fs, true ∈ g.inside) ∨ (s.1 = false ∧ Reenters timeout fs) := by
  rw [breaks_some, reenters_absent hf, lost_cons]
  have hlost : Lost timeout s.2 fs → ∃ g ∈ fs, true ∈ g.inside := lost_inside
  have hre : Reenters timeout fs → ∃ g ∈ fs, true ∈ g.inside := reenters_inside
  cases s.1 <;> simp [hf, hlate]
  exact ⟨fun h => h.elim (fun h => h.elim id hlost) hre, fun h => .inl (.inl h)⟩

theorem breaks_kept {s : Bool × τ} {f : Frame τ} (hf : f.inside = []) (hlate : ¬ timeout < f.time - s.2)
    (fs : List (Frame τ)) : Breaks timeout (some s) (f :: fs) ↔ Breaks timeout (some s) fs := by
  rw [breaks_some, breaks_some, reenters_absent hf, lost_cons]
  simp [hf, hlate]

/-! ## The machine -/

variable [DecidableLT τ]

theorem step_present {o : Option (Bool × τ)} {f : Frame τ} (h : f.inside ≠ []) :
    step timeout o f = (some (f.inside.getLastD ((o.map Prod.fst).getD false), f.time),
      changes ((o.map Prod.fst).getD false) f.inside) := by
  simp [step, h]

theorem step_absent {o : Option (Bool × τ)} {f : Frame τ} (h : f.inside = []) :
    step timeout o f = (o.filter fun s => !decide (timeout < f.time - s.2), []) := by
  simp [step, h, changes]

/-- After being forgotten inside, the next report is an entry again. -/
theorem alternates_forgotten {o : Option (Bool × τ)} (ho : (o.map Prod.fst).getD false = false)
    (fs : List (Frame τ)) :
    List.IsChain (· ≠ ·) (true :: (Mealy.outs (step timeout) o fs).flatten) ↔ ¬ ∃ g ∈ fs, true ∈ g.inside := by
  induction fs generalizing o with
  | nil => simp
  | cons f fs ih =>
    rw [Mealy.outs_cons, List.flatten_cons]
    by_cases hf : f.inside = []
    · have hkeep : ((o.filter fun s => !decide (timeout < f.time - s.2)).map Prod.fst).getD false = false := by
        cases o with
        | none => rfl
        | some s =>
          rw [Option.filter_some]
          split
          · exact ho
          · rfl
      rw [step_absent hf, List.nil_append, ih hkeep]
      simp [hf]
    · rw [step_present hf, ho]
      dsimp only
      rcases changes_false f.inside with ⟨hin, ys, hys⟩ | ⟨hout, hnone, hlast⟩
      · have hsome : ∃ g ∈ f :: fs, true ∈ g.inside := ⟨f, List.mem_cons_self .., hin⟩
        rw [hys]
        exact iff_of_false (fun h => (List.isChain_cons_cons.1 h).1 rfl) (not_not.2 hsome)
      · rw [hnone, hlast, List.nil_append, ih rfl]
        simp [hout]

theorem alternates_from (o : Option (Bool × τ)) (fs : List (Frame τ)) :
    List.IsChain (· ≠ ·) ((o.map Prod.fst).getD false :: (Mealy.outs (step timeout) o fs).flatten) ↔
      ¬ Breaks timeout o fs := by
  induction fs generalizing o with
  | nil => simp [Breaks, not_lost_nil, not_reenters_nil]
  | cons f fs ih =>
    rw [Mealy.outs_cons, List.flatten_cons]
    by_cases hf : f.inside = []
    · rw [step_absent hf, List.nil_append]
      cases o with
      | none => rw [Option.filter_none, ih, breaks_none, breaks_none, reenters_absent hf]
      | some s =>
        by_cases hlate : timeout < f.time - s.2
        · have hpruned : (some s).filter (fun s => !decide (timeout < f.time - s.2)) = none := by simp [hlate]
          rw [hpruned, breaks_forgotten hf hlate]
          cases hs : s.1 with
          | true => simpa [hs] using alternates_forgotten (o := none) rfl fs
          | false => simpa [hs, breaks_none] using ih none
        · have hkept : (some s).filter (fun s => !decide (timeout < f.time - s.2)) = some s := by simp [hlate]
          rw [hkept, ih, breaks_kept hf hlate]
    · rw [step_present hf, isChain_changes, breaks_present o _ hf]
      exact ih (some (_, f.time))

/-- From the start, reports alternate unless the thing is lost inside and seen inside again. -/
theorem alternates_iff (fs : List (Frame τ)) :
    Alternates (Mealy.outs (step timeout) none fs).flatten ↔ ¬ Reenters timeout fs := by
  rw [← breaks_none]
  exact alternates_from none fs

end

end Alternation
