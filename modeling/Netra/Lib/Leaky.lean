import Netra.Lib.Machine
import Mathlib.Algebra.BigOperators.Group.List.Basic
import Mathlib.Algebra.Order.Group.Defs
import Mathlib.Order.Bounds.Basic
import Mathlib.Tactic.Abel
/-!
# Leaky accumulators

A level that never sinks below zero: each turn drains some of it and then
pours something in. `isGreatest_level` is its closed form, a maximum over the
turns the level may have started afresh at, and `leaked_le_iff` the bound on
what has drained away that follows from it.
-/
namespace Leaky

/-- What a turn drains, and what it then pours in. -/
structure Turn (K : Type) where
  drain : K
  inflow : K

variable {K : Type} [AddCommGroup K]

/-! ## Sums over turns -/

def inflow (es : List (Turn K)) : K := (es.map (·.inflow)).sum

def drained (es : List (Turn K)) : K := (es.map (·.drain)).sum

@[simp] theorem inflow_nil : inflow ([] : List (Turn K)) = 0 := rfl

@[simp] theorem drained_nil : drained ([] : List (Turn K)) = 0 := rfl

@[simp] theorem inflow_cons (e : Turn K) (es : List (Turn K)) : inflow (e :: es) = e.inflow + inflow es :=
  List.sum_cons

@[simp] theorem drained_cons (e : Turn K) (es : List (Turn K)) : drained (e :: es) = e.drain + drained es :=
  List.sum_cons

theorem inflow_append (es es' : List (Turn K)) : inflow (es ++ es') = inflow es + inflow es' := by
  simp [inflow]

theorem drained_append (es es' : List (Turn K)) : drained (es ++ es') = drained es + drained es' := by
  simp [drained]

/-- What some turn of `es` leaves at the end, had the level started afresh at it. -/
def Afresh (es : List (Turn K)) (x : K) : Prop :=
  ∃ pre e post, es = pre ++ e :: post ∧ x = e.inflow + inflow post - drained post

theorem afresh_concat {es : List (Turn K)} {e : Turn K} {x : K} :
    Afresh (es ++ [e]) x ↔ x = e.inflow ∨ ∃ y, Afresh es y ∧ x = y - e.drain + e.inflow := by
  have hval (y : K) (f : Turn K) (post : List (Turn K)) (hy : y = f.inflow + inflow post - drained post) :
      f.inflow + inflow (post ++ [e]) - drained (post ++ [e]) = y - e.drain + e.inflow := by
    rw [hy, inflow_append, drained_append, inflow_cons, drained_cons, inflow_nil, drained_nil]
    abel
  constructor
  · rintro ⟨pre, f, post, hsplit, rfl⟩
    rcases Mealy.split_concat.1 hsplit with ⟨-, rfl, rfl⟩ | ⟨post', rfl, rfl⟩
    · exact .inl (by simp)
    · exact .inr ⟨_, ⟨pre, f, post', rfl, rfl⟩, hval _ f post' rfl⟩
  · rintro (rfl | ⟨y, ⟨pre, f, post, rfl, hy⟩, rfl⟩)
    · exact ⟨es, e, [], rfl, by simp⟩
    · exact ⟨pre, f, post ++ [e], by simp, (hval y f post hy).symm⟩

/-! ## The level -/

variable [LinearOrder K]

/-- What a drain leaves. -/
def sink (s d : K) : K := max 0 (s - d)

def pour (s : K) (e : Turn K) : K := sink s e.drain + e.inflow

/-- The level the turns leave behind. -/
def level (s : K) (es : List (Turn K)) : K := es.foldl pour s

/-- What the turns take away in all. -/
def leaked (s : K) : List (Turn K) → K
  | [] => 0
  | e :: es => s - sink s e.drain + leaked (pour s e) es

@[simp] theorem level_nil (s : K) : level s [] = s := rfl

@[simp] theorem level_cons (s : K) (e : Turn K) (es : List (Turn K)) : level s (e :: es) = level (pour s e) es := rfl

@[simp] theorem level_concat (s : K) (es : List (Turn K)) (e : Turn K) :
    level s (es ++ [e]) = pour (level s es) e := by
  simp [level]

/-- What came in has drained away, or is there still. -/
theorem level_add_leaked (s : K) (es : List (Turn K)) : level s es + leaked s es = s + inflow es := by
  induction es generalizing s with
  | nil => simp [leaked]
  | cons e es ih =>
    have hrest := ih (pour s e)
    rw [level_cons, leaked, inflow_cons, add_left_comm, hrest, pour]
    abel

theorem sink_nonneg (s d : K) : 0 ≤ sink s d := le_max_left _ _

variable [IsOrderedAddMonoid K]

/-- Draining twice in a row is draining both at once. -/
theorem sink_sink (s : K) {d d' : K} (hd : 0 ≤ d') : sink (sink s d) d' = sink s (d + d') := by
  simp only [sink]
  rcases le_total 0 (s - d) with h | h
  · rw [max_eq_right h, sub_sub]
  · have h0 : (0 : K) - d' ≤ 0 := by simpa using hd
    have hboth : s - (d + d') ≤ 0 := by
      rw [← sub_sub]
      exact (sub_le_self _ hd).trans h
    rw [max_eq_left h, max_eq_left h0, max_eq_left hboth]

/-- After a first turn from zero, the level is the most that any turn leaves, had
it started afresh there. -/
theorem isGreatest_level (w : K) (es : List (Turn K)) :
    IsGreatest {x | Afresh (⟨0, w⟩ :: es) x} (level w es) := by
  induction es using List.reverseRecOn with
  | nil =>
    have hone (x : K) : Afresh [⟨0, w⟩] x ↔ x = w := by
      rw [← List.nil_append [_], afresh_concat]
      simp [Afresh]
    constructor
    · exact (hone w).2 rfl
    · exact fun x hx => ((hone x).1 hx).le
  | append_singleton es e ih =>
    obtain ⟨hmem, hub⟩ := ih
    have hlevel : level w (es ++ [e]) = max e.inflow (level w es - e.drain + e.inflow) := by
      rw [level_concat, pour, sink, max_add, zero_add]
    rw [hlevel, ← List.cons_append]
    constructor
    · refine afresh_concat.2 ?_
      rcases max_choice e.inflow (level w es - e.drain + e.inflow) with h | h <;> rw [h]
      · exact .inl rfl
      · exact .inr ⟨_, hmem, rfl⟩
    · intro x hx
      rcases afresh_concat.1 hx with rfl | ⟨y, hy, rfl⟩
      · exact le_max_left _ _
      · exact le_max_of_le_right (add_le_add_left (sub_le_sub_right (hub hy) _) _)

/-- What has drained away is within a budget when, for some turn, all that came in
before it and all that was to drain after it are. -/
theorem leaked_le_iff (w : K) (es : List (Turn K)) (budget : K) :
    leaked w es ≤ budget ↔
      ∃ pre e post, ⟨0, w⟩ :: es = pre ++ e :: post ∧ inflow pre + drained post ≤ budget := by
  obtain ⟨hmem, hub⟩ := isGreatest_level w es
  have hsum := level_add_leaked w es
  -- what came in is split at the turn
  have hall {pre post : List (Turn K)} {e : Turn K} (hsplit : ⟨0, w⟩ :: es = pre ++ e :: post) :
      leaked w es = inflow pre + drained post + (e.inflow + inflow post - drained post - level w es) := by
    have h := congrArg inflow hsplit
    rw [inflow_append, inflow_cons, inflow_cons, ← hsum] at h
    rw [eq_sub_of_add_eq' h]
    abel
  constructor
  · obtain ⟨pre, e, post, hsplit, hlevel⟩ := hmem
    intro hle
    rw [hall hsplit, ← hlevel, sub_self, add_zero] at hle
    exact ⟨pre, e, post, hsplit, hle⟩
  · rintro ⟨pre, e, post, hsplit, hle⟩
    have hmax : e.inflow + inflow post - drained post ≤ level w es := hub ⟨pre, e, post, hsplit, rfl⟩
    rw [hall hsplit]
    exact (add_le_of_nonpos_right (sub_nonpos.2 hmax)).trans hle

end Leaky
