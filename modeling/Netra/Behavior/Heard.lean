import Netra.Behavior.Window
/-!
# When two of three frames let a signal through

With `N = 3`, for event times of any sign and any age threshold: a call returns
a signal when one of the two frames before it has it and is not too old, or
when the call itself has it twice (`heard_iff`). A sighting at a time that is
not positive never ages; `last_ts` is then taken for missing.
-/
namespace Netra.Behavior.SignalConfirmationBuffer

open PyLib

/-- Some event of the signal `key` is returned. -/
def Returned (b : SignalConfirmationBuffer) (key : SignalKey) (c : Call) : Prop :=
  ∃ ev ∈ (b.call c).2, sig c.cameraId ev = key

/-- After `seen`, the latest call with the signal supports it at time `t`. -/
def Supported (age : ℚ) (key : SignalKey) (seen : List Call) (t : ℚ) : Prop :=
  ∃ pre r gap, seen = pre ++ r :: gap ∧ 0 < sightings key r ∧ (∀ m ∈ gap, ¬ 0 < sightings key m) ∧
    (r.eventTime ≤ 0 ∨ (gap.length ≤ 1 ∧ t - r.eventTime ≤ age))

/-- What the buffer of a signal remembers of the calls `seen` of its camera. -/
structure Remembers (key : SignalKey) (seen : List Call) (b : SignalConfirmationBuffer) : Prop where
  required : b.required = 3
  majority : b.majority = 2
  unseen : (∀ c ∈ seen, ¬ 0 < sightings key c) → b.bufs key = [] ∧ b.lastTs key = 0
  latest : ∀ pre r gap, seen = pre ++ r :: gap → 0 < sightings key r → (∀ m ∈ gap, ¬ 0 < sightings key m) →
    b.lastTs key = r.eventTime ∧ ∀ n ≤ 3, (true ∈ (b.bufs key).rtake n ↔
      gap.countP (fun m => 0 < r.eventTime ∧ m.eventTime - r.eventTime ≤ b.ageThreshSec) < n)

variable {cam : String} {b : SignalConfirmationBuffer} {key : SignalKey} {t : ℚ} {seen : List Call}

/-- The latest call with the signal. -/
theorem split_latest {key : SignalKey} {seen : List Call} (h : ∃ c ∈ seen, 0 < sightings key c) :
    ∃ pre r gap, seen = pre ++ r :: gap ∧ 0 < sightings key r ∧ ∀ m ∈ gap, ¬ 0 < sightings key m := by
  induction seen using List.reverseRecOn with
  | nil => simp at h
  | append_singleton seen c ih =>
    by_cases hc : 0 < sightings key c
    · exact ⟨seen, c, [], rfl, hc, by simp⟩
    · have hold : ∃ c ∈ seen, 0 < sightings key c := by
        obtain ⟨c', hmem, hc'⟩ := h
        rcases List.mem_append.1 hmem with hmem | hmem
        · exact ⟨c', hmem, hc'⟩
        · exact absurd (List.mem_singleton.1 hmem ▸ hc') hc
      obtain ⟨pre, r, gap, rfl, hr, hgap⟩ := ih hold
      refine ⟨pre, r, gap ++ [c], by simp, hr, fun m hm => ?_⟩
      rcases List.mem_append.1 hm with hm | hm
      · exact hgap m hm
      · exact List.mem_singleton.1 hm ▸ hc

/-! ## One call -/

/-- After an event of the signal, the last vote is for it. -/
theorem after_ends (hreq : b.required = 3) {evs : List AssociationEvent} (h : 0 < evs.countP (sig cam · = key)) :
    ∃ votes, (Mealy.after (eventTurn cam t) b evs).bufs key = votes ++ [true] := by
  induction evs using List.reverseRecOn with
  | nil => simp at h
  | append_singleton evs ev ih =>
    rw [Mealy.after_concat]
    by_cases hev : sig cam ev = key
    · subst hev
      obtain ⟨hr, -, -⟩ := after_settings cam t b evs
      have hbuf := (eventTurn_self (Mealy.after (eventTurn cam t) b evs) cam t ev).1
      rw [hr, hreq, push, List.rtake_concat_succ] at hbuf
      exact ⟨_, hbuf⟩
    · rw [(eventTurn_other (t := t) (b := Mealy.after (eventTurn cam t) b evs) hev).1]
      exact ih (by simpa [hev] using h)

theorem passes_iff_mem (hreq : b.required = 3) (hmaj : b.majority = 2) (ev : AssociationEvent) :
    Passes cam t b ev ↔ true ∈ (b.live (sig cam ev) t).rtake 2 := by
  have hpush : push 3 (b.live (sig cam ev) t) true = (b.live (sig cam ev) t).rtake 2 ++ [true] :=
    List.rtake_concat_succ _ _ _
  rw [Passes, hreq, hmaj, hpush, List.count_append, List.count_singleton_self, ← List.count_pos_iff]
  omega

/-- Once the call itself has seen the signal, its last vote is live unless the threshold is negative. -/
theorem live_later (hreq : b.required = 3) {before : List AssociationEvent}
    (hb : 0 < before.countP (sig cam · = key)) :
    true ∈ ((Mealy.after (eventTurn cam t) b before).live key t).rtake 2 ↔ ¬ (0 < t ∧ b.ageThreshSec < 0) := by
  obtain ⟨votes, hvotes⟩ := after_ends (t := t) hreq hb
  obtain ⟨-, -, hth⟩ := after_settings cam t b before
  rw [live, after_last hb, hth, sub_self, hvotes]
  split
  · rename_i hold
    simp [hold]
  · rename_i hfresh
    rw [List.rtake_concat_succ]
    simpa using hfresh

/-- Before its first event in a call, a signal's live votes are those from before the call. -/
theorem live_first {before : List AssociationEvent} (hb : ∀ e ∈ before, sig cam e ≠ key) :
    (Mealy.after (eventTurn cam t) b before).live key t = b.live key t := by
  obtain ⟨hbuf, hlast⟩ := after_miss (t := t) (b := b) hb
  exact live_settings hbuf hlast (after_settings cam t b before).2.2

theorem passes_after_iff (hreq : b.required = 3) (hmaj : b.majority = 2) (before : List AssociationEvent)
    {ev : AssociationEvent} (hev : sig cam ev = key) :
    Passes cam t (Mealy.after (eventTurn cam t) b before) ev ↔
      true ∈ ((Mealy.after (eventTurn cam t) b before).live key t).rtake 2 := by
  obtain ⟨hr, hm, -⟩ := after_settings cam t b before
  rw [passes_iff_mem (hr.trans hreq) (hm.trans hmaj), hev]

/-- The first event of the signal. -/
theorem split_first {evs : List AssociationEvent} (h : 0 < evs.countP (sig cam · = key)) :
    ∃ before ev rest, evs = before ++ ev :: rest ∧ sig cam ev = key ∧ ∀ e ∈ before, sig cam e ≠ key := by
  obtain ⟨ev, hmem, hev⟩ := List.countP_pos_iff.1 h
  have hsome : (evs.find? (sig cam · = key)).isSome := List.find?_isSome.2 ⟨ev, hmem, hev⟩
  obtain ⟨first, hfirst⟩ := Option.isSome_iff_exists.1 hsome
  obtain ⟨hk, before, rest, rfl, hbefore⟩ := List.find?_eq_some_iff_append.1 hfirst
  exact ⟨before, first, rest, rfl, by simpa using hk, fun e he => by simpa using hbefore e he⟩

/-- A call returns the signal by its first event, or by a later one. -/
theorem returned_iff (hreq : b.required = 3) (hmaj : b.majority = 2) (c : Call) :
    Returned b key c ↔
      (0 < sightings key c ∧ true ∈ (b.live key c.eventTime).rtake 2) ∨
        (2 ≤ sightings key c ∧ ¬ (0 < c.eventTime ∧ b.ageThreshSec < 0)) := by
  have hclosed : ¬ b.required ≤ 1 := by omega
  constructor
  · rintro ⟨ev, hmem, hev⟩
    rw [call_outs hclosed, List.mem_flatten] at hmem
    obtain ⟨o, ho, hin⟩ := hmem
    obtain ⟨before, ev', rest, hsplit, rfl⟩ := (Mealy.mem_outs _ _ _ _).1 ho
    rcases eventTurn_passes c.cameraId c.eventTime (Mealy.after (eventTurn c.cameraId c.eventTime) b before) ev' with
      ⟨hyes, hout⟩ | ⟨-, hout⟩
    · rw [hout] at hin
      obtain rfl := List.mem_singleton.1 hin
      have hcount : sightings key c = before.countP (sig c.cameraId · = key) +
          (rest.countP (sig c.cameraId · = key) + 1) := by
        rw [sightings, hsplit, List.countP_append, List.countP_cons_of_pos (by simpa using hev)]
      rw [passes_after_iff hreq hmaj before hev] at hyes
      by_cases hb : 0 < before.countP (sig c.cameraId · = key)
      · exact .inr ⟨by omega, (live_later hreq hb).1 hyes⟩
      · refine .inl ⟨by omega, ?_⟩
        rwa [live_first fun e he hk => hb (List.countP_pos_iff.2 ⟨e, he, by simpa using hk⟩)] at hyes
    · rw [hout] at hin
      cases hin
  · rintro (⟨hs, hmem⟩ | ⟨hs, hfresh⟩)
    · obtain ⟨before, ev, rest, hsplit, hev, hbefore⟩ := split_first hs
      rw [← live_first hbefore, ← passes_after_iff hreq hmaj before hev] at hmem
      refine ⟨ev, ?_, hev⟩
      rw [call_outs hclosed, hsplit]
      exact mem_outs_of_passes rest hmem
    · obtain ⟨before, ev, rest, hsplit, hev, hcount⟩ := split_last (Nat.lt_of_succ_lt hs)
      have hb : 0 < before.countP (sig c.cameraId · = key) := by
        rw [sightings] at hs
        omega
      rw [← live_later hreq hb, ← passes_after_iff hreq hmaj before hev] at hfresh
      refine ⟨ev, ?_, hev⟩
      rw [call_outs hclosed, hsplit]
      exact mem_outs_of_passes rest hfresh

/-! ## Runs -/

theorem call_ends (hreq : b.required = 3) {c : Call} (hs : 0 < sightings key c) :
    ∃ votes, (b.call c).1.bufs key = votes ++ [true] := by
  have hin := sightings_pos.1 hs
  have hclosed : ¬ b.required ≤ 1 := by omega
  rw [call, filter, if_neg hclosed]
  simp only [pushUnseen, hin, not_true_eq_false, false_and, and_false, if_false]
  exact after_ends hreq hs

theorem Remembers.call (hm : Remembers key seen b) {c : Call} (hcam : c.cameraId = key.1) :
    Remembers key (seen ++ [c]) (b.call c).1 := by
  obtain ⟨hr, hmaj, hth⟩ := call_settings b c
  have hclosed : ¬ b.required ≤ 1 := by
    rw [hm.required]
    omega
  refine ⟨hr.trans hm.required, hmaj.trans hm.majority, fun hall => ?_, fun pre r gap hsplit hs hgap => ?_⟩
  · have hc : ¬ 0 < sightings key c := hall c (by simp)
    obtain ⟨hempty, hzero⟩ := hm.unseen fun c' hc' => hall c' (List.mem_append_left _ hc')
    obtain ⟨hlast, hbuf⟩ := call_miss hclosed hc
    rw [hbuf, hlast, hzero, if_neg fun h => lt_irrefl 0 h.2.1]
    exact ⟨hempty, rfl⟩
  · rw [hth]
    rcases Mealy.split_concat.1 hsplit with ⟨rfl, rfl, rfl⟩ | ⟨gap', rfl, rfl⟩
    · obtain ⟨votes, hvotes⟩ := call_ends hm.required hs
      refine ⟨(call_hit hclosed hs).1, fun n _ => ?_⟩
      rw [hvotes, List.countP_nil]
      cases n with
      | zero => simp [List.rtake_zero]
      | succ n => simp [List.rtake_concat_succ]
    · have hc : ¬ 0 < sightings key c := hgap c (by simp)
      obtain ⟨hlast, hbuf⟩ := call_miss hclosed hc
      obtain ⟨hold, hvotes⟩ := hm.latest pre r gap' rfl hs fun m hm' => hgap m (List.mem_append_left _ hm')
      refine ⟨hlast.trans hold, fun n hn => ?_⟩
      rw [hbuf, hold, List.countP_append, List.countP_singleton, hm.required]
      by_cases hpush : 0 < r.eventTime ∧ c.eventTime - r.eventTime ≤ b.ageThreshSec
      · rw [if_pos ⟨hcam, hpush⟩, if_pos (by simpa using hpush), push]
        cases n with
        | zero => simp [List.rtake_zero]
        | succ n =>
          have hn2 : n ≤ 2 := by omega
          rw [rtake_rtake hn, List.rtake_concat_succ, List.mem_append, hvotes n (by omega)]
          simp
      · rw [if_neg fun h => hpush h.2, if_neg (by simpa using hpush), Nat.add_zero]
        exact hvotes n hn

theorem remembers_after (ageMs : ℚ) (key : SignalKey) {calls : List Call} (hcam : ∀ c ∈ calls, c.cameraId = key.1) :
    Remembers key calls (Mealy.after SignalConfirmationBuffer.call (new 3 ageMs) calls) := by
  induction calls using List.reverseRecOn with
  | nil => exact ⟨rfl, rfl, fun _ => ⟨rfl, rfl⟩, fun pre r gap hsplit => by simp at hsplit⟩
  | append_singleton calls c ih =>
    rw [Mealy.after_concat]
    exact (ih fun c' hc' => hcam c' (List.mem_append_left _ hc')).call (hcam c (by simp))

/-- The votes of the two frames before `c`. -/
theorem Remembers.supported_iff (hm : Remembers key seen b) {t : ℚ} (hmono : ∀ c ∈ seen, c.eventTime ≤ t) :
    true ∈ (b.live key t).rtake 2 ↔ Supported b.ageThreshSec key seen t := by
  have hlive (pre r gap) (hsplit : seen = pre ++ r :: gap) (hs : 0 < sightings key r)
      (hgap : ∀ m ∈ gap, ¬ 0 < sightings key m) : true ∈ (b.live key t).rtake 2 ↔
        (r.eventTime ≤ 0 ∨ (gap.length ≤ 1 ∧ t - r.eventTime ≤ b.ageThreshSec)) := by
    obtain ⟨hlast, hvotes⟩ := hm.latest pre r gap hsplit hs hgap
    have htwo := hvotes 2 (by omega)
    rw [live, hlast]
    rcases le_or_gt r.eventTime 0 with hneg | hpos
    · have hnone : gap.countP (fun m => 0 < r.eventTime ∧ m.eventTime - r.eventTime ≤ b.ageThreshSec) = 0 := by
        simp [not_lt.2 hneg]
      rw [if_neg fun h => not_lt.2 hneg h.1, htwo, hnone]
      simp [hneg]
    · by_cases hold : b.ageThreshSec < t - r.eventTime
      · rw [if_pos ⟨hpos, hold⟩]
        simp [not_le.2 hpos, not_le.2 hold]
      · have hall : gap.countP (fun m => 0 < r.eventTime ∧ m.eventTime - r.eventTime ≤ b.ageThreshSec) =
            gap.length := by
          refine List.countP_eq_length.2 fun m hmem => ?_
          have hm' := hmono m (by rw [hsplit]; simp [hmem])
          simp only [hpos, true_and, decide_eq_true_iff]
          linarith
        rw [if_neg fun h => hold h.2, htwo, hall, Nat.lt_succ_iff]
        simp [not_le.2 hpos, not_lt.1 hold]
  constructor
  · intro hmem
    by_cases hsome : ∃ c ∈ seen, 0 < sightings key c
    · obtain ⟨pre, r, gap, hsplit, hs, hgap⟩ := split_latest hsome
      exact ⟨pre, r, gap, hsplit, hs, hgap, (hlive pre r gap hsplit hs hgap).1 hmem⟩
    · have hempty := (hm.unseen fun c hc hs => hsome ⟨c, hc, hs⟩).1
      rw [live, hempty, ite_self] at hmem
      simp at hmem
  · rintro ⟨pre, r, gap, hsplit, hs, hgap, hok⟩
    exact (hlive pre r gap hsplit hs hgap).2 hok

/-- Which calls of a camera return a signal, from what the calls before had. -/
theorem heard_iff (hm : Remembers key seen b) {c : Call} (hmono : ∀ c' ∈ seen, c'.eventTime ≤ c.eventTime) :
    Returned b key c ↔
      (0 < sightings key c ∧ Supported b.ageThreshSec key seen c.eventTime) ∨
        (2 ≤ sightings key c ∧ (c.eventTime ≤ 0 ∨ 0 ≤ b.ageThreshSec)) := by
  rw [returned_iff hm.required hm.majority, hm.supported_iff hmono, not_and_or, not_lt, not_lt]

end Netra.Behavior.SignalConfirmationBuffer
