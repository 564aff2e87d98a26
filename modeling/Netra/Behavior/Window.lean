import Netra.Behavior.Votes
import Netra.Lib.Window
/-!
# The confirmation buffer against frame counts

`filter` pushes one vote for every event and one against for every frame that
lacks the signal. The module docstring counts frames. The two agree unless
several events of a signal in one frame make up a majority that the frames do
not have (`counts_frames_iff`).
-/
namespace Netra.Behavior.SignalConfirmationBuffer

open PyLib

/-- One call of `filter`, for one frame of a camera. -/
structure Call where
  cameraId : String
  events : List AssociationEvent
  eventTime : ℚ

def call (b : SignalConfirmationBuffer) (c : Call) : SignalConfirmationBuffer × List AssociationEvent :=
  b.filter c.events c.cameraId c.eventTime

/-- The calls for the camera `cam`. -/
def callsOf (cam : String) (calls : List Call) : List Call := calls.filter (·.cameraId = cam)

/-- Event times are positive and never run backwards. -/
structure TimesOk (calls : List Call) : Prop where
  pos : ∀ c ∈ calls, 0 < c.eventTime
  mono : calls.Pairwise (·.eventTime ≤ ·.eventTime)

/-- The events of the signal `key` in a call. -/
def sightings (key : SignalKey) (c : Call) : Nat := c.events.countP (sig c.cameraId · = key)

/-! ## Counting frames -/

section
variable (age : ℚ) (key : SignalKey)

/-- The latest call with the signal. -/
def lastSeen (calls : List Call) : Option Call := calls.reverse.find? (0 < sightings key ·)

/-- After `calls`, the call `c` has the signal, whose previous sighting does not
exist or is too old. -/
def Appears (calls : List Call) (c : Call) : Prop :=
  0 < sightings key c ∧ ∀ prev ∈ lastSeen key calls, age < c.eventTime - prev.eventTime

instance (calls : List Call) (c : Call) : Decidable (Appears age key calls c) := by
  unfold Appears
  infer_instance

/-- `stretch`, newest call first. -/
def stretchBack : List Call → List Call
  | [] => []
  | c :: older => if Appears age key older.reverse c then [c] else c :: stretchBack older

/-- The calls from the latest appearance of the signal on. -/
def stretch (calls : List Call) : List Call := (stretchBack age key calls.reverse).reverse

/-- Of the last `n` calls since the signal appeared, those that have it. -/
def frameCount (n : Nat) (calls : List Call) : Nat :=
  ((stretch age key calls).rtake n).countP (0 < sightings key ·)

/-- Of the last `n` votes since the signal appeared, those for it: every event of
the signal is one, every call without it is one against. -/
def voteCount (n : Nat) (calls : List Call) : Nat :=
  (((stretch age key calls).flatMap (ballot ∘ sightings key)).rtake n).count true

end

/-- `filter` returns the signal's events in `c`, after `calls`, when `ceil(required / 2)`
of the last `required` frames of the camera have the signal, and none of them
otherwise. -/
def CountsFrames (required : Nat) (ageMs : ℚ) (calls : List Call) (c : Call) (key : SignalKey) : Prop :=
  let frames := frameCount (ageMs / 1000) key required (callsOf c.cameraId (calls ++ [c]))
  ((Mealy.after call (new required ageMs) calls).call c).2.filter (sig c.cameraId · = key) =
    if (required + 1) / 2 ≤ frames then c.events.filter (sig c.cameraId · = key) else []

variable {cam : String} {b : SignalConfirmationBuffer} {key : SignalKey} {t age : ℚ} {calls : List Call}

/-! ## Stretches -/

/-- The calls of `calls` that the call `c` continues. -/
def continued (age : ℚ) (key : SignalKey) (calls : List Call) (c : Call) : List Call :=
  if Appears age key calls c then [] else stretch age key calls

theorem stretch_concat (calls : List Call) (c : Call) :
    stretch age key (calls ++ [c]) = continued age key calls c ++ [c] := by
  rw [continued, stretch, stretch, List.reverse_append, List.reverse_singleton, List.singleton_append, stretchBack,
    List.reverse_reverse]
  split <;> simp

theorem lastSeen_concat (calls : List Call) (c : Call) :
    lastSeen key (calls ++ [c]) = if 0 < sightings key c then some c else lastSeen key calls := by
  rw [lastSeen, List.reverse_append, List.reverse_singleton, List.singleton_append, List.find?_cons]
  by_cases hc : 0 < sightings key c <;> simp [hc, lastSeen]

theorem lastSeen_mem {c : Call} (h : lastSeen key calls = some c) : c ∈ calls ∧ 0 < sightings key c := by
  refine ⟨List.mem_reverse.1 (List.mem_of_find?_eq_some h), ?_⟩
  simpa using List.find?_some h

/-! ## The events of one call -/

/-- The vote on `ev` is a majority. -/
def Passes (cam : String) (t : ℚ) (b : SignalConfirmationBuffer) (ev : AssociationEvent) : Prop :=
  b.majority ≤ (push b.required (b.live (sig cam ev) t) true).count true

theorem eventTurn_passes (cam : String) (t : ℚ) (b : SignalConfirmationBuffer) (ev : AssociationEvent) :
    (Passes cam t b ev ∧ (eventTurn cam t b ev).2 = [ev]) ∨ (¬ Passes cam t b ev ∧ (eventTurn cam t b ev).2 = []) := by
  have hlen : (push b.required (b.live (sig cam ev) t) true).count true ≤
      (push b.required (b.live (sig cam ev) t) true).length := List.count_le_length
  by_cases hp : Passes cam t b ev
  · exact .inl ⟨hp, if_pos ⟨hp.trans hlen, hp⟩⟩
  · exact .inr ⟨hp, if_neg fun h => hp h.2⟩

/-- Nothing but the buffers and their times ever changes. -/
theorem after_settings (cam : String) (t : ℚ) (b : SignalConfirmationBuffer) (evs : List AssociationEvent) :
    (Mealy.after (eventTurn cam t) b evs).required = b.required ∧
      (Mealy.after (eventTurn cam t) b evs).majority = b.majority ∧
      (Mealy.after (eventTurn cam t) b evs).ageThreshSec = b.ageThreshSec :=
  Mealy.after_inv (eventTurn cam t)
    (fun b' => b'.required = b.required ∧ b'.majority = b.majority ∧ b'.ageThreshSec = b.ageThreshSec) b
    ⟨rfl, rfl, rfl⟩ (fun _ _ h => h) evs

theorem call_settings (b : SignalConfirmationBuffer) (c : Call) :
    (b.call c).1.required = b.required ∧ (b.call c).1.majority = b.majority ∧
      (b.call c).1.ageThreshSec = b.ageThreshSec := by
  rw [call, filter]
  split
  · exact ⟨rfl, rfl, rfl⟩
  · exact after_settings c.cameraId c.eventTime b c.events

theorem live_settings {b' : SignalConfirmationBuffer} (hbuf : b'.bufs key = b.bufs key)
    (hlast : b'.lastTs key = b.lastTs key) (hage : b'.ageThreshSec = b.ageThreshSec) :
    b'.live key t = b.live key t := by
  rw [live, live, hage, hbuf, hlast]

/-- `b'` has taken `m` votes for the signal since `b`, all at time `t`. -/
def Voted (b : SignalConfirmationBuffer) (key : SignalKey) (t : ℚ) (m : Nat) (b' : SignalConfirmationBuffer) : Prop :=
  (m = 0 ∧ b'.bufs key = b.bufs key ∧ b'.lastTs key = b.lastTs key) ∨
    (0 < m ∧ b'.bufs key = (b.live key t ++ List.replicate m true).rtake b.required ∧ b'.lastTs key = t)

theorem Voted.push {m : Nat} {b' : SignalConfirmationBuffer} (h : Voted b key t m b') (hage : 0 ≤ b.ageThreshSec)
    (hreq : b'.required = b.required) (hth : b'.ageThreshSec = b.ageThreshSec) :
    push b'.required (b'.live key t) true =
      (b.live key t ++ List.replicate (m + 1) true).rtake b.required := by
  rcases h with ⟨rfl, hold, hsame⟩ | ⟨-, hnew, hnow⟩
  · rw [live_settings hold hsame hth, hreq]
    rfl
  · -- the votes of one call are not too old for one another
    have hfresh : ¬ (0 < t ∧ b.ageThreshSec < t - t) := by
      rintro ⟨-, h⟩
      linarith
    rw [live, hth, hnow, if_neg hfresh, hnew, hreq, PyLib.push, rtake_rtake_append, List.append_assoc,
      ← List.replicate_succ']

theorem after_votes (cam : String) (key : SignalKey) (t : ℚ) (hage : 0 ≤ b.ageThreshSec)
    (evs : List AssociationEvent) :
    Voted b key t (evs.countP (sig cam · = key)) (Mealy.after (eventTurn cam t) b evs) := by
  induction evs using List.reverseRecOn with
  | nil => exact .inl ⟨rfl, rfl, rfl⟩
  | append_singleton evs ev ih =>
    obtain ⟨hreq, -, hth⟩ := after_settings cam t b evs
    rw [Mealy.after_concat, List.countP_append]
    by_cases hev : sig cam ev = key
    · subst hev
      obtain ⟨hbuf, hlast⟩ := eventTurn_self (Mealy.after (eventTurn cam t) b evs) cam t ev
      have hone : [ev].countP (sig cam · = sig cam ev) = 1 := by simp
      rw [hone]
      exact .inr ⟨Nat.succ_pos _, hbuf.trans (ih.push hage hreq hth), hlast⟩
    · have hnone : [ev].countP (sig cam · = key) = 0 := by simp [hev]
      obtain ⟨hbuf, hlast⟩ := eventTurn_other (t := t) (b := Mealy.after (eventTurn cam t) b evs) hev
      rw [Voted, hbuf, hlast, hnone]
      exact ih

/-- An event of the signal leaves its time, whatever the threshold. -/
theorem after_last {evs : List AssociationEvent} (h : 0 < evs.countP (sig cam · = key)) :
    (Mealy.after (eventTurn cam t) b evs).lastTs key = t := by
  induction evs using List.reverseRecOn with
  | nil => simp at h
  | append_singleton evs ev ih =>
    rw [Mealy.after_concat]
    by_cases hev : sig cam ev = key
    · subst hev
      exact (eventTurn_self _ cam t ev).2
    · rw [(eventTurn_other (t := t) (b := Mealy.after (eventTurn cam t) b evs) hev).2]
      exact ih (by simpa [hev] using h)

/-- With a negative threshold every vote is a vote alone. -/
theorem after_votes_neg (cam : String) (hage : b.ageThreshSec < 0) (ht : 0 < t) (hfresh : b.live key t = [])
    (evs : List AssociationEvent) : (Mealy.after (eventTurn cam t) b evs).live key t = [] := by
  induction evs using List.reverseRecOn with
  | nil => exact hfresh
  | append_singleton evs ev ih =>
    obtain ⟨-, -, hth⟩ := after_settings cam t b evs
    rw [Mealy.after_concat]
    by_cases hev : sig cam ev = key
    · subst hev
      obtain ⟨-, hlast⟩ := eventTurn_self (Mealy.after (eventTurn cam t) b evs) cam t ev
      have hconst : (eventTurn cam t (Mealy.after (eventTurn cam t) b evs) ev).1.ageThreshSec = b.ageThreshSec := hth
      have hold : b.ageThreshSec < t - t := by linarith
      rw [live, hconst, hlast, if_pos ⟨ht, hold⟩]
    · obtain ⟨hbuf, hlast⟩ := eventTurn_other (t := t) (b := Mealy.after (eventTurn cam t) b evs) hev
      exact (live_settings hbuf hlast rfl).trans ih

/-- When every event of the signal passes, `filter` returns all of them. -/
theorem outs_of_all (evs : List AssociationEvent)
    (h : ∀ before ev rest, evs = before ++ ev :: rest → sig cam ev = key →
      Passes cam t (Mealy.after (eventTurn cam t) b before) ev) :
    (Mealy.outs (eventTurn cam t) b evs).flatten.filter (sig cam · = key) = evs.filter (sig cam · = key) := by
  induction evs using List.reverseRecOn with
  | nil => rfl
  | append_singleton evs ev ih =>
    rw [Mealy.outs_append, List.flatten_append, List.filter_append, List.filter_append,
      ih fun before ev' rest hsplit => h before ev' (rest ++ [ev]) (by simp [hsplit])]
    congr 1
    by_cases hev : sig cam ev = key
    · rcases eventTurn_passes cam t (Mealy.after (eventTurn cam t) b evs) ev with ⟨-, hout⟩ | ⟨hno, -⟩
      · simp [hout]
      · exact absurd (h evs ev [] rfl hev) hno
    · rcases eventTurn_passes cam t (Mealy.after (eventTurn cam t) b evs) ev with ⟨-, hout⟩ | ⟨-, hout⟩ <;>
        simp [hout, hev]

/-- When none of them passes, it returns none. -/
theorem outs_of_none (evs : List AssociationEvent)
    (h : ∀ before ev rest, evs = before ++ ev :: rest → sig cam ev = key →
      ¬ Passes cam t (Mealy.after (eventTurn cam t) b before) ev) :
    (Mealy.outs (eventTurn cam t) b evs).flatten.filter (sig cam · = key) = [] := by
  refine List.filter_eq_nil_iff.2 fun ev hev hk => ?_
  simp only [List.mem_flatten, Mealy.mem_outs] at hev
  obtain ⟨o, ⟨before, ev', rest, rfl, rfl⟩, hev⟩ := hev
  rcases eventTurn_passes cam t (Mealy.after (eventTurn cam t) b before) ev' with ⟨hyes, hout⟩ | ⟨-, hout⟩
  · rw [hout] at hev
    obtain rfl := List.mem_singleton.1 hev
    exact h before ev rest rfl (by simpa using hk) hyes
  · simp [hout] at hev

theorem mem_outs_of_passes {before : List AssociationEvent} {ev : AssociationEvent} (rest : List AssociationEvent)
    (h : Passes cam t (Mealy.after (eventTurn cam t) b before) ev) :
    ev ∈ (Mealy.outs (eventTurn cam t) b (before ++ ev :: rest)).flatten := by
  refine List.mem_flatten.2 ⟨_, (Mealy.mem_outs _ _ _ _).2 ⟨before, ev, rest, rfl, rfl⟩, ?_⟩
  rcases eventTurn_passes cam t (Mealy.after (eventTurn cam t) b before) ev with ⟨-, hout⟩ | ⟨hno, -⟩
  · simp [hout]
  · exact absurd h hno

/-- The last event of the signal. -/
theorem split_last {evs : List AssociationEvent} (h : 0 < evs.countP (sig cam · = key)) :
    ∃ before ev rest, evs = before ++ ev :: rest ∧ sig cam ev = key ∧
      before.countP (sig cam · = key) + 1 = evs.countP (sig cam · = key) := by
  induction evs using List.reverseRecOn with
  | nil => simp at h
  | append_singleton evs ev ih =>
    by_cases hev : sig cam ev = key
    · exact ⟨evs, ev, [], rfl, hev, by simp [hev]⟩
    · have hsame : (evs ++ [ev]).countP (sig cam · = key) = evs.countP (sig cam · = key) := by simp [hev]
      rw [hsame] at h ⊢
      obtain ⟨before, ev', rest, rfl, hk, hcount⟩ := ih h
      exact ⟨before, ev', rest ++ [ev], by simp, hk, hcount⟩

/-! ## Runs -/

/-- What the buffer of a signal holds after `seen`, the calls of its camera. -/
structure VotesKept (age : ℚ) (key : SignalKey) (seen : List Call) (b : SignalConfirmationBuffer) : Prop where
  unseen : lastSeen key seen = none → b.bufs key = [] ∧ b.lastTs key = 0
  last : ∀ prev ∈ lastSeen key seen, b.lastTs key = prev.eventTime
  votes : 0 ≤ age → ∀ prev ∈ lastSeen key seen, ∀ now, (∀ c ∈ seen, c.eventTime ≤ now) →
    now - prev.eventTime ≤ age →
      b.bufs key = ((stretch age key seen).flatMap (ballot ∘ sightings key)).rtake b.required

theorem sightings_pos {c : Call} : 0 < sightings key c ↔ key ∈ c.events.map (sig c.cameraId) := by
  simp [sightings, List.countP_pos_iff]

theorem camera_of_sightings {c : Call} (h : 0 < sightings key c) : c.cameraId = key.1 := by
  obtain ⟨ev, -, rfl⟩ := List.mem_map.1 (sightings_pos.1 h)
  rfl

/-- A frame without the signal, of its camera or of another one. -/
theorem call_miss (hreq : ¬ b.required ≤ 1) {c : Call} (hm : ¬ 0 < sightings key c) :
    (b.call c).1.lastTs key = b.lastTs key ∧ (b.call c).1.bufs key =
      if c.cameraId = key.1 ∧ 0 < b.lastTs key ∧ c.eventTime - b.lastTs key ≤ b.ageThreshSec then
        push b.required (b.bufs key) false
      else b.bufs key := by
  have hnot : key ∉ c.events.map (sig c.cameraId) := mt sightings_pos.2 hm
  have hother : ∀ ev ∈ c.events, sig c.cameraId ev ≠ key := fun ev hev hk =>
    hnot (List.mem_map.2 ⟨ev, hev, hk⟩)
  obtain ⟨hbuf, hlast⟩ := after_miss (t := c.eventTime) (b := b) hother
  obtain ⟨hr, -, hth⟩ := after_settings c.cameraId c.eventTime b c.events
  rw [call, filter, if_neg hreq]
  simp only [pushUnseen, hbuf, hlast, hr, hth, hnot, not_false_eq_true, true_and, eq_comm (a := key.1)]

/-- A frame with the signal. -/
theorem call_hit (hreq : ¬ b.required ≤ 1) {c : Call} (hs : 0 < sightings key c) :
    (b.call c).1.lastTs key = c.eventTime ∧ (0 ≤ b.ageThreshSec → (b.call c).1.bufs key =
      (b.live key c.eventTime ++ List.replicate (sightings key c) true).rtake b.required) := by
  have hin := sightings_pos.1 hs
  rw [call, filter, if_neg hreq]
  simp only [pushUnseen, hin, not_true_eq_false, false_and, and_false, if_false]
  refine ⟨after_last hs, fun hage => ?_⟩
  rcases after_votes c.cameraId key c.eventTime hage c.events with ⟨hno, -⟩ | ⟨-, hbuf, -⟩
  · exact absurd hno (Nat.pos_iff_ne_zero.1 hs)
  · exact hbuf

/-- Before a frame with the signal, the live votes are those of the stretch the
frame continues. -/
theorem VotesKept.live {seen : List Call} (hv : VotesKept b.ageThreshSec key seen b) (hage : 0 ≤ b.ageThreshSec)
    {c : Call} (hs : 0 < sightings key c) (hpos : ∀ c' ∈ seen, 0 < c'.eventTime)
    (hmono : ∀ c' ∈ seen, c'.eventTime ≤ c.eventTime) :
    b.live key c.eventTime =
      ((continued b.ageThreshSec key seen c).flatMap (ballot ∘ sightings key)).rtake b.required := by
  rw [SignalConfirmationBuffer.live, continued]
  cases hprev : lastSeen key seen with
  | none =>
    have happ : Appears b.ageThreshSec key seen c := ⟨hs, by simp [hprev]⟩
    simp [(hv.unseen hprev).1, happ]
  | some prev =>
    have hlast : b.lastTs key = prev.eventTime := hv.last prev hprev
    have hprevpos : 0 < prev.eventTime := hpos prev (lastSeen_mem hprev).1
    have happ : Appears b.ageThreshSec key seen c ↔
        0 < prev.eventTime ∧ b.ageThreshSec < c.eventTime - prev.eventTime := by
      simp [Appears, hs, hprev, hprevpos]
    rw [hlast]
    by_cases h : Appears b.ageThreshSec key seen c
    · simp [h, happ.1 h]
    · rw [if_neg h, if_neg (mt happ.2 h)]
      refine hv.votes hage prev hprev c.eventTime hmono (not_lt.1 fun hold => h (happ.2 ⟨hprevpos, hold⟩))

theorem VotesKept.call (hreq : ¬ b.required ≤ 1) {seen : List Call} (hv : VotesKept b.ageThreshSec key seen b)
    {c : Call} (hpos : ∀ c' ∈ seen ++ [c], 0 < c'.eventTime) (hmono : ∀ c' ∈ seen, c'.eventTime ≤ c.eventTime)
    (hcam : c.cameraId = key.1) : VotesKept b.ageThreshSec key (seen ++ [c]) (b.call c).1 := by
  obtain ⟨hr, -, hth⟩ := call_settings b c
  by_cases hs : 0 < sightings key c
  · obtain ⟨hlast, hbuf⟩ := call_hit hreq hs
    refine ⟨?_, ?_, ?_⟩
    · simp [lastSeen_concat, hs]
    · simpa [lastSeen_concat, hs] using hlast
    · intro hage prev _ now _ _
      have hballot : ballot (sightings key c) = List.replicate (sightings key c) true :=
        if_neg (Nat.pos_iff_ne_zero.1 hs)
      rw [hbuf hage, hr, hv.live hage hs (fun c' hc' => hpos c' (List.mem_append_left _ hc')) hmono, stretch_concat,
        List.flatMap_append, List.flatMap_singleton, Function.comp_apply, hballot, rtake_append_of_rtake]
  · obtain ⟨hlast, hbuf⟩ := call_miss hreq hs
    have hseen : lastSeen key (seen ++ [c]) = lastSeen key seen := by rw [lastSeen_concat, if_neg hs]
    have happ : ¬ Appears b.ageThreshSec key seen c := fun h => hs h.1
    refine ⟨?_, ?_, ?_⟩
    · rw [hseen, hbuf, hlast]
      intro hnone
      obtain ⟨hempty, hzero⟩ := hv.unseen hnone
      simp [hempty, hzero]
    · rw [hseen, hlast]
      exact hv.last
    · rw [hseen]
      intro hage prev hprev now hall hnow
      have hc : c.eventTime ≤ now := hall c (by simp)
      have hyoung : c.eventTime - b.lastTs key ≤ b.ageThreshSec := by
        rw [hv.last prev hprev]
        linarith
      have hlastpos : 0 < b.lastTs key := by
        rw [hv.last prev hprev]
        exact hpos prev (List.mem_append_left _ (lastSeen_mem hprev).1)
      have hold := hv.votes hage prev hprev c.eventTime hmono (hv.last prev hprev ▸ hyoung)
      have hballot : ballot (sightings key c) = [false] := if_pos (Nat.eq_zero_of_not_pos hs)
      rw [hbuf, if_pos ⟨hcam, hlastpos, hyoung⟩, hold, hr, stretch_concat, continued, if_neg happ, push,
        rtake_rtake_append, List.flatMap_append, List.flatMap_singleton, Function.comp_apply, hballot]

/-- A call for another camera. -/
theorem VotesKept.other (hreq : ¬ b.required ≤ 1) {seen : List Call} (hv : VotesKept b.ageThreshSec key seen b)
    {c : Call} (hcam : c.cameraId ≠ key.1) : VotesKept b.ageThreshSec key seen (b.call c).1 := by
  obtain ⟨hr, -, -⟩ := call_settings b c
  obtain ⟨hlast, hbuf⟩ := call_miss hreq (mt camera_of_sightings hcam)
  rw [if_neg fun h => hcam h.1] at hbuf
  exact ⟨by rw [hbuf, hlast]; exact hv.unseen, by rw [hlast]; exact hv.last, by rw [hbuf, hr]; exact hv.votes⟩

theorem callsOf_concat_self {c : Call} (calls : List Call) (h : c.cameraId = cam) :
    callsOf cam (calls ++ [c]) = callsOf cam calls ++ [c] := by simp [callsOf, h]

theorem callsOf_concat_other {c : Call} (calls : List Call) (h : c.cameraId ≠ cam) :
    callsOf cam (calls ++ [c]) = callsOf cam calls := by simp [callsOf, h]

theorem TimesOk.concat {c : Call} (h : TimesOk (calls ++ [c])) :
    TimesOk calls ∧ ∀ c' ∈ calls, c'.eventTime ≤ c.eventTime := by
  obtain ⟨hpos, hmono⟩ := h
  obtain ⟨hold, -, hnew⟩ := List.pairwise_append.1 hmono
  exact ⟨⟨fun c' hc' => hpos c' (List.mem_append_left _ hc'), hold⟩, fun c' hc' => hnew c' hc' c (by simp)⟩

variable {required : Nat} {ageMs : ℚ}

theorem after_call_settings (required : Nat) (ageMs : ℚ) (calls : List Call) :
    (Mealy.after call (new required ageMs) calls).required = required ∧
      (Mealy.after call (new required ageMs) calls).majority = (required + 1) / 2 ∧
      (Mealy.after call (new required ageMs) calls).ageThreshSec = ageMs / 1000 := by
  refine Mealy.after_inv call
    (fun b => b.required = required ∧ b.majority = (required + 1) / 2 ∧ b.ageThreshSec = ageMs / 1000) _
    ⟨rfl, rfl, rfl⟩ (fun b c => ?_) calls
  rintro ⟨h1, h2, h3⟩
  obtain ⟨hr, hm, ha⟩ := call_settings b c
  exact ⟨hr.trans h1, hm.trans h2, ha.trans h3⟩

theorem votes_kept (ageMs : ℚ) (hopen : 2 ≤ required) (htimes : TimesOk (callsOf key.1 calls)) :
    VotesKept (ageMs / 1000) key (callsOf key.1 calls) (Mealy.after call (new required ageMs) calls) := by
  induction calls using List.reverseRecOn with
  | nil => exact ⟨fun _ => ⟨rfl, rfl⟩, by simp [callsOf, lastSeen], by simp [callsOf, lastSeen]⟩
  | append_singleton calls c ih =>
    obtain ⟨hr, -, hth⟩ := after_call_settings required ageMs calls
    have hclosed : ¬ (Mealy.after call (new required ageMs) calls).required ≤ 1 := by
      rw [hr]
      omega
    rw [Mealy.after_concat]
    by_cases hcam : c.cameraId = key.1
    · rw [callsOf_concat_self _ hcam] at htimes ⊢
      obtain ⟨hold, hnew⟩ := htimes.concat
      have hv := ih hold
      rw [← hth] at hv ⊢
      exact hv.call hclosed htimes.pos hnew hcam
    · rw [callsOf_concat_other _ hcam] at htimes ⊢
      have hv := ih htimes
      rw [← hth] at hv ⊢
      exact hv.other hclosed hcam

/-! ## Votes and frames -/

theorem frames_le_votes (old : List Call) {c : Call} (hs : 0 < sightings key c) (n : Nat) {m : Nat} (hm : 1 ≤ m) :
    ((old ++ [c]).rtake n).countP (0 < sightings key ·) ≤
      ((old.flatMap (ballot ∘ sightings key) ++ List.replicate m true).rtake n).count true := by
  refine le_trans ?_ (count_rtake_mono n _ hm)
  cases n with
  | zero => simp [List.rtake_zero]
  | succ n =>
    have hself : [c].countP (0 < sightings key ·) = 1 := by simp [hs]
    rw [List.replicate_one, List.rtake_concat_succ, List.rtake_concat_succ, List.countP_append, List.count_append,
      hself, List.count_singleton_self]
    exact Nat.add_le_add_right (countP_rtake_le_count _ n) 1

theorem voteCount_concat {c : Call} (hs : 0 < sightings key c) (n : Nat) :
    voteCount age key n (calls ++ [c]) = (((continued age key calls c).flatMap (ballot ∘ sightings key) ++
      List.replicate (sightings key c) true).rtake n).count true := by
  have hballot : ballot (sightings key c) = List.replicate (sightings key c) true :=
    if_neg (Nat.pos_iff_ne_zero.1 hs)
  rw [voteCount, stretch_concat, List.flatMap_append, List.flatMap_singleton, Function.comp_apply, hballot]

/-- The vote on an event of a call, by the calls before it and the events before it. -/
theorem passes_iff {seen : List Call} (hv : VotesKept b.ageThreshSec key seen b) (hage : 0 ≤ b.ageThreshSec)
    {c : Call} (hs : 0 < sightings key c) (hpos : ∀ c' ∈ seen, 0 < c'.eventTime)
    (hmono : ∀ c' ∈ seen, c'.eventTime ≤ c.eventTime) (before : List AssociationEvent) {ev : AssociationEvent}
    (hev : sig c.cameraId ev = key) :
    Passes c.cameraId c.eventTime (Mealy.after (eventTurn c.cameraId c.eventTime) b before) ev ↔
      b.majority ≤ (((continued b.ageThreshSec key seen c).flatMap (ballot ∘ sightings key) ++
        List.replicate (before.countP (sig c.cameraId · = key) + 1) true).rtake b.required).count true := by
  obtain ⟨hr, hm, hth⟩ := after_settings c.cameraId c.eventTime b before
  have hvoted := after_votes c.cameraId key c.eventTime hage before
  rw [Passes, hev, hvoted.push hage hr hth, hm, hv.live hage hs hpos hmono, rtake_append_of_rtake]

/-- With a negative threshold only the event itself votes. -/
theorem passes_iff_neg {seen : List Call} (hv : VotesKept b.ageThreshSec key seen b) (hage : b.ageThreshSec < 0)
    (hopen : 1 ≤ b.required) {c : Call} (hpos : ∀ c' ∈ seen ++ [c], 0 < c'.eventTime)
    (hmono : ∀ c' ∈ seen, c'.eventTime ≤ c.eventTime) (before : List AssociationEvent) {ev : AssociationEvent}
    (hev : sig c.cameraId ev = key) :
    Passes c.cameraId c.eventTime (Mealy.after (eventTurn c.cameraId c.eventTime) b before) ev ↔ b.majority ≤ 1 := by
  have hfresh : b.live key c.eventTime = [] := by
    rw [SignalConfirmationBuffer.live]
    cases hprev : lastSeen key seen with
    | none => rw [(hv.unseen hprev).1, ite_self]
    | some prev =>
      have hmem := (lastSeen_mem hprev).1
      have hold : b.ageThreshSec < c.eventTime - prev.eventTime := by linarith [hmono prev hmem]
      rw [hv.last prev hprev, if_pos ⟨hpos prev (List.mem_append_left _ hmem), hold⟩]
  obtain ⟨hr, hm, -⟩ := after_settings c.cameraId c.eventTime b before
  have hnone := after_votes_neg c.cameraId hage (hpos c (by simp)) hfresh before
  obtain ⟨n, hn⟩ : ∃ n, b.required = n + 1 := ⟨b.required - 1, by omega⟩
  rw [Passes, hev, hnone, hm, hr, hn, push, List.rtake_concat_succ]
  simp

theorem continued_neg {seen : List Call} (hage : age < 0) {c : Call} (hs : 0 < sightings key c)
    (hmono : ∀ c' ∈ seen, c'.eventTime ≤ c.eventTime) : continued age key seen c = [] := by
  refine if_pos ⟨hs, fun prev hprev => ?_⟩
  linarith [hmono prev (lastSeen_mem hprev).1]

theorem call_outs (hclosed : ¬ b.required ≤ 1) (c : Call) :
    (b.call c).2 = (Mealy.outs (eventTurn c.cameraId c.eventTime) b c.events).flatten := by
  rw [call, filter, if_neg hclosed]

theorem call_out_iff (hclosed : ¬ b.required ≤ 1) {seen : List Call} (hv : VotesKept b.ageThreshSec key seen b)
    (hage : 0 ≤ b.ageThreshSec) {c : Call} (hs : 0 < sightings key c) (hpos : ∀ c' ∈ seen, 0 < c'.eventTime)
    (hmono : ∀ c' ∈ seen, c'.eventTime ≤ c.eventTime) :
    (b.call c).2.filter (sig c.cameraId · = key) =
        (if b.majority ≤ frameCount b.ageThreshSec key b.required (seen ++ [c]) then
          c.events.filter (sig c.cameraId · = key) else []) ↔
      b.majority ≤ frameCount b.ageThreshSec key b.required (seen ++ [c]) ∨
        voteCount b.ageThreshSec key b.required (seen ++ [c]) < b.majority := by
  have hpass := passes_iff hv hage hs hpos hmono
  rw [call_outs hclosed, voteCount_concat hs]
  by_cases hframes : b.majority ≤ frameCount b.ageThreshSec key b.required (seen ++ [c])
  · rw [if_pos hframes]
    refine ⟨fun _ => .inl hframes, fun _ => outs_of_all _ fun before ev rest _ hev => (hpass before hev).2 ?_⟩
    rw [frameCount, stretch_concat] at hframes
    exact hframes.trans (frames_le_votes _ hs _ (Nat.le_add_left 1 _))
  · rw [if_neg hframes]
    constructor
    · intro hnone
      right
      obtain ⟨before, ev, rest, hsplit, hev, hcount⟩ := split_last hs
      by_contra hvotes
      have hyes : Passes c.cameraId c.eventTime (Mealy.after (eventTurn c.cameraId c.eventTime) b before) ev := by
        rw [hpass before hev, hcount]
        exact not_lt.1 hvotes
      have hmem := mem_outs_of_passes rest hyes
      rw [← hsplit] at hmem
      exact List.filter_eq_nil_iff.1 hnone ev hmem (by simpa using hev)
    · rintro (hyes | hvotes)
      · exact absurd hyes hframes
      · refine outs_of_none _ fun before ev rest hsplit hev => ?_
        have hle : before.countP (sig c.cameraId · = key) + 1 ≤ sightings key c := by
          rw [sightings, hsplit, List.countP_append, List.countP_cons_of_pos (by simpa using hev)]
          omega
        rw [hpass before hev]
        exact not_le.2 ((count_rtake_mono b.required _ hle).trans_lt hvotes)

theorem call_out_neg (hclosed : ¬ b.required ≤ 1) {seen : List Call} (hv : VotesKept b.ageThreshSec key seen b)
    (hage : b.ageThreshSec < 0) {c : Call} (hs : 0 < sightings key c) (hpos : ∀ c' ∈ seen ++ [c], 0 < c'.eventTime)
    (hmono : ∀ c' ∈ seen, c'.eventTime ≤ c.eventTime) :
    (b.call c).2.filter (sig c.cameraId · = key) =
      if b.majority ≤ frameCount b.ageThreshSec key b.required (seen ++ [c]) then
        c.events.filter (sig c.cameraId · = key) else [] := by
  obtain ⟨n, hn⟩ : ∃ n, b.required = n + 1 := ⟨b.required - 1, by omega⟩
  have hone : frameCount b.ageThreshSec key b.required (seen ++ [c]) = 1 := by
    rw [frameCount, stretch_concat, continued_neg hage hs hmono, hn, List.rtake_concat_succ]
    simp [hs]
  rw [call_outs hclosed, hone]
  by_cases hm : b.majority ≤ 1
  · rw [if_pos hm]
    exact outs_of_all _ fun before ev rest _ hev => (passes_iff_neg hv hage (by omega) hpos hmono before hev).2 hm
  · rw [if_neg hm]
    exact outs_of_none _ fun before ev rest _ hev => mt (passes_iff_neg hv hage (by omega) hpos hmono before hev).1 hm

/-- What `filter` returns of a signal is what the frame count says, unless its
events in one frame make a majority of the votes that is none of the frames. -/
theorem counts_frames_iff {c : Call} (hopen : 2 ≤ required) (htimes : TimesOk (callsOf c.cameraId (calls ++ [c])))
    (hs : 0 < sightings key c) :
    CountsFrames required ageMs calls c key ↔
      ageMs < 0 ∨ (required + 1) / 2 ≤ frameCount (ageMs / 1000) key required (callsOf c.cameraId (calls ++ [c])) ∨
        voteCount (ageMs / 1000) key required (callsOf c.cameraId (calls ++ [c])) < (required + 1) / 2 := by
  have hcam := camera_of_sightings hs
  rw [hcam, callsOf_concat_self calls hcam] at htimes
  obtain ⟨hold, hmono⟩ := htimes.concat
  have hv := votes_kept ageMs hopen hold
  have hpos : ∀ c' ∈ callsOf key.1 calls, 0 < c'.eventTime := hold.pos
  obtain ⟨hr, hm, hth⟩ := after_call_settings required ageMs calls
  have hclosed : ¬ (Mealy.after call (new required ageMs) calls).required ≤ 1 := by
    rw [hr]
    omega
  rw [CountsFrames, hcam, callsOf_concat_self calls hcam, ← hcam]
  rw [← hth] at hv
  rcases lt_or_ge ageMs 0 with hneg | hage
  · have hthneg : (Mealy.after call (new required ageMs) calls).ageThreshSec < 0 := by
      rw [hth]
      exact div_neg_of_neg_of_pos hneg (by norm_num)
    have hout := call_out_neg hclosed hv hthneg hs htimes.pos hmono
    rw [hr, hm, hth] at hout
    rw [hcam] at hout ⊢
    exact iff_of_true hout (.inl hneg)
  · have hthpos : 0 ≤ (Mealy.after call (new required ageMs) calls).ageThreshSec := by
      rw [hth]
      exact div_nonneg hage (by norm_num)
    have hout := call_out_iff hclosed hv hthpos hs hpos hmono
    rw [hr, hm, hth] at hout
    rw [hcam] at hout ⊢
    rw [hout, or_iff_right (not_lt.2 hage)]

/-- `n` pickups by person 1 in the frame at time `t`. -/
def pickups (n : Nat) (t : ℚ) : Call where
  cameraId := "cam_1"
  events := List.replicate n { cameraId := "cam_1", trackId := 1, eventType := .itemPickup, timestamp := t }
  eventTime := t

theorem counts_frames_two_of_three : CountsFrames 3 500 [pickups 1 1, pickups 0 (11 / 10)] (pickups 2 (12 / 10))
    ("cam_1", 1, .itemPickup) :=
  (counts_frames_iff (by decide) ⟨by decide +kernel, by decide +kernel⟩ (by decide)).2
    (.inr (.inl (by decide +kernel)))

/-- Two pickups in the first frame of a signal confirm each other. -/
theorem counts_frames_fails : ¬ ∀ (required : Nat) (ageMs : ℚ) (calls : List Call) (c : Call) (key : SignalKey),
    2 ≤ required → TimesOk (callsOf c.cameraId (calls ++ [c])) → 0 < sightings key c →
      CountsFrames required ageMs calls c key := by
  intro h
  have hlen := congrArg List.length (h 3 500 [] (pickups 2 1) ("cam_1", 1, .itemPickup) (by decide)
    ⟨by decide +kernel, by decide +kernel⟩ (by decide))
  revert hlen
  decide +kernel

end Netra.Behavior.SignalConfirmationBuffer
