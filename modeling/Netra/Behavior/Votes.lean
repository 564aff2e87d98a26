import Netra.Behavior.Confirmation
import Mathlib.Algebra.Order.Ring.Rat
import Mathlib.Tactic.Linarith
/-!
# What the majority vote lets through

A round is what one call of `filter` gets. With `N = 3`, an event passes when
there is another one of its track and type earlier in the round, or in one of
the last two rounds and not older than the age threshold (`mem_filter_iff`).
`VotesOk` says how far a buffer and its `last_ts` still tell which of the last
rounds had the signal.
-/
namespace Netra.Behavior.SignalConfirmationBuffer

open PyLib

/-- The events of a frame and its `event_time`. -/
structure Round where
  events : List AssociationEvent
  time : ℚ

/-- The round has the signal `key`. -/
def Hit (cam : String) (key : SignalKey) (r : Round) : Prop := ∃ ev ∈ r.events, sig cam ev = key

/-- The votes `filter` counts at time `now`: none when they have expired. -/
def live (b : SignalConfirmationBuffer) (key : SignalKey) (now : ℚ) : List Bool :=
  if 0 < b.lastTs key ∧ b.ageThreshSec < now - b.lastTs key then [] else b.bufs key

/-- The window is three frames, two of which must agree. -/
structure TwoOfThree (b : SignalConfirmationBuffer) : Prop where
  required : b.required = 3
  majority : b.majority = 2
  age : 0 ≤ b.ageThreshSec

/-- `b` remembers the rounds `hist` as far as signal `key` of camera `cam` goes. -/
structure VotesOk (cam : String) (hist : List Round) (key : SignalKey) (b : SignalConfirmationBuffer) :
    Prop where
  last : ∀ r ∈ hist, Hit cam key r → r.time ≤ b.lastTs key
  empty : b.lastTs key ≤ 0 → b.bufs key = []
  recent : ∀ n ≤ 2, ∀ now, (∀ r ∈ hist, r.time ≤ now) →
    (true ∈ (b.live key now).rtake n ↔ ∃ r ∈ hist.rtake n, Hit cam key r ∧ now - r.time ≤ b.ageThreshSec)

variable {cam : String} {b : SignalConfirmationBuffer} {key : SignalKey} {t : ℚ}

/-! ## One turn of the event loop -/

theorem TwoOfThree.not_open (hb : TwoOfThree b) : ¬ b.required ≤ 1 := by
  rw [hb.required]
  omega

theorem eventTurn_const (cam : String) (t : ℚ) (ev : AssociationEvent) (hb : TwoOfThree b) :
    TwoOfThree (eventTurn cam t b ev).1 ∧ (eventTurn cam t b ev).1.ageThreshSec = b.ageThreshSec :=
  ⟨⟨hb.1, hb.2, hb.3⟩, rfl⟩

theorem eventTurn_other {ev : AssociationEvent} (hk : sig cam ev ≠ key) :
    (eventTurn cam t b ev).1.bufs key = b.bufs key ∧ (eventTurn cam t b ev).1.lastTs key = b.lastTs key := by
  simp only [eventTurn]
  exact ⟨Function.update_of_ne hk.symm _ _, Function.update_of_ne hk.symm _ _⟩

theorem eventTurn_self (b : SignalConfirmationBuffer) (cam : String) (t : ℚ) (ev : AssociationEvent) :
    (eventTurn cam t b ev).1.bufs (sig cam ev) = push b.required (b.live (sig cam ev) t) true ∧
      (eventTurn cam t b ev).1.lastTs (sig cam ev) = t := by
  simp only [eventTurn]
  exact ⟨Function.update_self _ _ _, Function.update_self _ _ _⟩

/-- An event passes exactly when one of the two votes before it is for the signal. -/
theorem eventTurn_out (hb : TwoOfThree b) (ev : AssociationEvent) :
    (eventTurn cam t b ev).2 = if true ∈ (b.live (sig cam ev) t).rtake 2 then [ev] else [] := by
  have hpush : push 3 (b.live (sig cam ev) t) true = (b.live (sig cam ev) t).rtake 2 ++ [true] :=
    List.rtake_concat_succ _ _ _
  have hvote : (2 ≤ (push 3 (b.live (sig cam ev) t) true).length ∧
      2 ≤ (push 3 (b.live (sig cam ev) t) true).count true) ↔ true ∈ (b.live (sig cam ev) t).rtake 2 := by
    rw [hpush, List.count_append, List.length_append, ← List.count_pos_iff]
    have hle : ((b.live (sig cam ev) t).rtake 2).count true ≤ ((b.live (sig cam ev) t).rtake 2).length :=
      List.count_le_length
    simp only [List.length_singleton, List.count_singleton_self]
    omega
  simp only [eventTurn, hb.required, hb.majority]
  exact if_congr hvote rfl rfl

/-! ## The event loop -/

theorem after_const (cam : String) (t : ℚ) (hb : TwoOfThree b) (evs : List AssociationEvent) :
    TwoOfThree (Mealy.after (eventTurn cam t) b evs) ∧
      (Mealy.after (eventTurn cam t) b evs).ageThreshSec = b.ageThreshSec := by
  refine Mealy.after_inv (eventTurn cam t) (fun b' => TwoOfThree b' ∧ b'.ageThreshSec = b.ageThreshSec) b
    ⟨hb, rfl⟩ ?_ evs
  rintro b' ev ⟨hb', ha⟩
  obtain ⟨h1, h2⟩ := eventTurn_const cam t ev hb'
  exact ⟨h1, h2.trans ha⟩

theorem after_miss {evs : List AssociationEvent} (hm : ∀ ev ∈ evs, sig cam ev ≠ key) :
    (Mealy.after (eventTurn cam t) b evs).bufs key = b.bufs key ∧
      (Mealy.after (eventTurn cam t) b evs).lastTs key = b.lastTs key := by
  induction evs using List.reverseRecOn with
  | nil => exact ⟨rfl, rfl⟩
  | append_singleton evs ev ih =>
    obtain ⟨h1, h2⟩ := ih fun e he => hm e (List.mem_append_left _ he)
    obtain ⟨h3, h4⟩ := eventTurn_other (t := t) (b := Mealy.after (eventTurn cam t) b evs) (hm ev (by simp))
    rw [Mealy.after_concat]
    exact ⟨h3.trans h1, h4.trans h2⟩

/-- After a hit, the last vote is for the signal, and it is as young as the round. -/
theorem after_hit (hb : TwoOfThree b) {evs : List AssociationEvent} (hh : ∃ ev ∈ evs, sig cam ev = key) :
    (Mealy.after (eventTurn cam t) b evs).lastTs key = t ∧
      ∃ votes, (Mealy.after (eventTurn cam t) b evs).bufs key = votes ++ [true] := by
  induction evs using List.reverseRecOn with
  | nil => simp at hh
  | append_singleton evs ev ih =>
    rw [Mealy.after_concat]
    by_cases hev : sig cam ev = key
    · subst hev
      obtain ⟨h1, h2⟩ := eventTurn_self (Mealy.after (eventTurn cam t) b evs) cam t ev
      rw [(after_const cam t hb evs).1.required, push, List.rtake_concat_succ] at h1
      exact ⟨h2, _, h1⟩
    · obtain ⟨h1, h2⟩ := eventTurn_other (t := t) (b := Mealy.after (eventTurn cam t) b evs) hev
      have hevs : ∃ e ∈ evs, sig cam e = key := by
        obtain ⟨e, he, hk⟩ := hh
        rcases List.mem_append.1 he with he | he
        · exact ⟨e, he, hk⟩
        · exact absurd (List.mem_singleton.1 he ▸ hk) hev
      obtain ⟨h3, votes, h4⟩ := ih hevs
      exact ⟨h2.trans h3, votes, h1.trans h4⟩

/-- The vote on an event, given the events before it in the round. -/
theorem live_after (hb : TwoOfThree b) (evs : List AssociationEvent) :
    true ∈ ((Mealy.after (eventTurn cam t) b evs).live key t).rtake 2 ↔
      (∃ ev ∈ evs, sig cam ev = key) ∨ true ∈ (b.live key t).rtake 2 := by
  obtain ⟨hconst, hage⟩ := after_const cam t hb evs
  by_cases hh : ∃ ev ∈ evs, sig cam ev = key
  · obtain ⟨hlast, votes, hbuf⟩ := after_hit (t := t) hb hh
    have hfresh : ¬ (0 < t ∧ b.ageThreshSec < t - t) := by
      have := hb.age
      rintro ⟨-, h⟩
      linarith
    rw [live, hlast, hage, if_neg hfresh, hbuf, List.rtake_concat_succ]
    simp [hh]
  · have hm : ∀ ev ∈ evs, sig cam ev ≠ key := fun ev hev hk => hh ⟨ev, hev, hk⟩
    obtain ⟨hbuf, hlast⟩ := after_miss (t := t) (b := b) hm
    rw [live, hlast, hage, hbuf, ← live]
    simp [hh]

/-! ## One round -/

/-- Which events of a round pass. -/
theorem mem_filter_iff {hist : List Round} (hb : TwoOfThree b) (hmono : ∀ r ∈ hist, r.time ≤ t)
    {ev : AssociationEvent} (hv : VotesOk cam hist (sig cam ev) b) (evs : List AssociationEvent) :
    ev ∈ (b.filter evs cam t).2 ↔ ∃ before rest, evs = before ++ ev :: rest ∧
      ((∃ e ∈ before, sig cam e = sig cam ev) ∨
        ∃ r ∈ hist.rtake 2, Hit cam (sig cam ev) r ∧ t - r.time ≤ b.ageThreshSec) := by
  rw [filter, if_neg hb.not_open]
  simp only [List.mem_flatten, Mealy.mem_outs]
  constructor
  · rintro ⟨o, ⟨before, e, rest, rfl, rfl⟩, hev⟩
    rw [eventTurn_out (after_const cam t hb before).1] at hev
    split at hev
    · rename_i hlive
      obtain rfl := List.mem_singleton.1 hev
      rw [live_after hb, hv.recent 2 (le_refl 2) t hmono] at hlive
      exact ⟨before, rest, rfl, hlive⟩
    · simp at hev
  · rintro ⟨before, rest, rfl, hsupp⟩
    refine ⟨_, ⟨before, ev, rest, rfl, rfl⟩, ?_⟩
    rw [← hv.recent 2 (le_refl 2) t hmono, ← live_after hb] at hsupp
    rw [eventTurn_out (after_const cam t hb before).1, if_pos hsupp]
    exact List.mem_singleton_self ev

theorem filter_const (cam : String) (t : ℚ) (hb : TwoOfThree b) (evs : List AssociationEvent) :
    TwoOfThree (b.filter evs cam t).1 ∧ (b.filter evs cam t).1.ageThreshSec = b.ageThreshSec := by
  unfold filter
  split
  · exact ⟨hb, rfl⟩
  · obtain ⟨⟨h1, h2, h3⟩, h4⟩ := after_const cam t hb evs
    exact ⟨⟨h1, h2, h3⟩, h4⟩

/-- The votes of signal `key` after a round that lacks it. -/
theorem filter_miss (hb : TwoOfThree b) {evs : List AssociationEvent} (hm : ∀ ev ∈ evs, sig cam ev ≠ key)
    (hcam : key.1 = cam) : (b.filter evs cam t).1.lastTs key = b.lastTs key ∧
      (b.filter evs cam t).1.bufs key =
        if 0 < b.lastTs key ∧ t - b.lastTs key ≤ b.ageThreshSec then push 3 (b.bufs key) false
        else b.bufs key := by
  obtain ⟨hbuf, hlast⟩ := after_miss (t := t) (b := b) hm
  obtain ⟨⟨hr, -, -⟩, hage⟩ := after_const cam t hb evs
  have hseen : key ∉ evs.map (sig cam) := by
    intro h
    obtain ⟨ev, hev, hk⟩ := List.mem_map.1 h
    exact hm ev hev hk
  rw [filter, if_neg hb.not_open]
  refine ⟨hlast, ?_⟩
  simp only [pushUnseen, hcam, hseen, hlast, hbuf, hage, hr, not_false_eq_true, true_and]

theorem filter_hit (hb : TwoOfThree b) {evs : List AssociationEvent} (hh : ∃ ev ∈ evs, sig cam ev = key) :
    (b.filter evs cam t).1.lastTs key = t ∧
      ∃ votes, (b.filter evs cam t).1.bufs key = votes ++ [true] := by
  obtain ⟨hlast, votes, hbuf⟩ := after_hit (t := t) hb hh
  have hseen : key ∈ evs.map (sig cam) := List.mem_map.2 hh
  rw [filter, if_neg hb.not_open]
  refine ⟨hlast, votes, ?_⟩
  simp only [pushUnseen, hseen, hbuf, not_true_eq_false, false_and, and_false, if_false]

theorem votesOk_new (cam : String) (key : SignalKey) (n : Nat) (ms : ℚ) : VotesOk cam [] key (new n ms) where
  last r hr := by simp at hr
  empty _ := rfl
  recent n _ now _ := by simp [new, live, List.rtake]

section
variable {hist : List Round} {evs : List AssociationEvent}

theorem votesOk_hit (hb : TwoOfThree b) (ht : 0 < t) (hmono : ∀ r ∈ hist, r.time ≤ t)
    (hh : ∃ ev ∈ evs, sig cam ev = key) : VotesOk cam (hist ++ [⟨evs, t⟩]) key (b.filter evs cam t).1 := by
  obtain ⟨hlast, votes, hbuf⟩ := filter_hit (t := t) hb hh
  have hle : ∀ r ∈ hist ++ [⟨evs, t⟩], r.time ≤ t := by
    intro r hr
    rcases List.mem_append.1 hr with hr | hr
    · exact hmono r hr
    · rw [List.mem_singleton.1 hr]
  refine ⟨fun r hr _ => (hle r hr).trans_eq hlast.symm, fun h => absurd (hlast ▸ h) (not_le.2 ht),
    fun n hn now hnow => ?_⟩
  rw [live, hlast, (filter_const cam t hb evs).2]
  split
  · -- this round has expired, and with it every older one
    rename_i hexp
    constructor
    · intro h
      simp [List.rtake] at h
    · rintro ⟨r, hr, -, hage⟩
      have := hle r (mem_of_mem_rtake hr)
      linarith [hexp.2]
  · rename_i hexp
    rw [hbuf]
    cases n with
    | zero => simp [List.rtake_zero]
    | succ n =>
      rw [List.rtake_concat_succ, List.rtake_concat_succ]
      have hage : now - t ≤ b.ageThreshSec := by
        by_contra h
        exact hexp ⟨ht, not_le.1 h⟩
      constructor
      · intro _
        exact ⟨⟨evs, t⟩, by simp, hh, hage⟩
      · intro _
        simp

theorem votesOk_miss (hb : TwoOfThree b) (hv : VotesOk cam hist key b) (hcam : key.1 = cam)
    (hm : ∀ ev ∈ evs, sig cam ev ≠ key) :
    VotesOk cam (hist ++ [⟨evs, t⟩]) key (b.filter evs cam t).1 := by
  obtain ⟨hlast, hbuf⟩ := filter_miss (t := t) hb hm hcam
  have hage := (filter_const cam t hb evs).2
  have hnew : ¬ Hit cam key ⟨evs, t⟩ := by
    rintro ⟨ev, hev, hk⟩
    exact hm ev hev hk
  refine ⟨fun r hr hhit => ?_, fun h => ?_, fun n hn now hnow => ?_⟩
  · rcases List.mem_append.1 hr with hr | hr
    · exact hlast ▸ hv.last r hr hhit
    · exact absurd (List.mem_singleton.1 hr ▸ hhit) hnew
  · rw [hlast] at h
    rw [hbuf, if_neg fun hp => not_lt.2 h hp.1, hv.empty h]
  · have hnow' : ∀ r ∈ hist, r.time ≤ now := fun r hr => hnow r (List.mem_append_left _ hr)
    have htn : t ≤ now := hnow ⟨evs, t⟩ (by simp)
    cases n with
    | zero => simp [List.rtake_zero]
    | succ n =>
      -- the new round is no hit, so one round fewer of `hist` counts
      have hrounds : (∃ r ∈ (hist ++ [(⟨evs, t⟩ : Round)]).rtake (n + 1),
          Hit cam key r ∧ now - r.time ≤ b.ageThreshSec) ↔ true ∈ (b.live key now).rtake n := by
        rw [hv.recent n (by omega) now hnow', List.rtake_concat_succ]
        constructor
        · rintro ⟨r, hr, hhit, hyoung⟩
          rcases List.mem_append.1 hr with hr | hr
          · exact ⟨r, hr, hhit, hyoung⟩
          · exact absurd (List.mem_singleton.1 hr ▸ hhit) hnew
        · rintro ⟨r, hr, hrest⟩
          exact ⟨r, List.mem_append_left _ hr, hrest⟩
      rw [hage, hrounds, live, live, hlast, hage, hbuf]
      by_cases hpos : 0 < b.lastTs key
      · by_cases hexp : b.ageThreshSec < now - b.lastTs key
        · rw [if_pos ⟨hpos, hexp⟩, if_pos ⟨hpos, hexp⟩]
          simp [List.rtake]
        · -- not expired now, so not when the round came: a vote against went in
          have hfresh : t - b.lastTs key ≤ b.ageThreshSec := by linarith [not_lt.1 hexp]
          rw [if_neg fun h => hexp h.2, if_pos ⟨hpos, hfresh⟩, if_neg fun h => hexp h.2, push,
            rtake_rtake (by omega), List.rtake_concat_succ]
          simp
      · rw [if_neg fun h => hpos h.1, if_neg fun h => hpos h.1, if_neg fun h => hpos h.1,
          hv.empty (not_lt.1 hpos)]
        simp [List.rtake]

/-- Every round keeps the memory right. -/
theorem votesOk_filter (hb : TwoOfThree b) (hv : VotesOk cam hist key b) (hcam : key.1 = cam) (ht : 0 < t)
    (hmono : ∀ r ∈ hist, r.time ≤ t) : VotesOk cam (hist ++ [⟨evs, t⟩]) key (b.filter evs cam t).1 := by
  by_cases hh : ∃ ev ∈ evs, sig cam ev = key
  · exact votesOk_hit hb ht hmono hh
  · exact votesOk_miss hb hv hcam fun ev hev hk => hh ⟨ev, hev, hk⟩

end

end Netra.Behavior.SignalConfirmationBuffer
