import Netra.Association.Pickups
import Netra.Behavior.Heard
import Netra.Pipeline.Trace
import Netra.Pipeline.Visits
import Mathlib.Data.List.Infix
/-!
# Picks and disappearances

An item that is gone from a frame is reported as picked up in every frame of
the next 1.5 s, and the FSM signals a pick for every one of them the vote lets
through. Which ones these are follows from the detections alone (`picks_eq`).
-/
namespace Netra.Pipeline

open PyLib Association Behavior SignalConfirmationBuffer

/-- What the association engine gets of a frame. -/
def Frame.detections (fr : Frame) : Detections := ⟨fr.persons, fr.items, fr.timestamp⟩

/-- The behaviour events of a run. -/
def behaviorOf (h : Host) (w : Settings) (cam : String) (zones : List ZoneConfig) (frames : List Frame) :
    List BehaviorEvent :=
  (Mealy.outs (frontStep h w) (.init w cam zones) frames).flatMap (·.behavior)

/-! ## What the detections say -/

/-- The item ids present in a frame and absent in the next one, over the run. -/
def disappearances (frames : List Detections) : Nat :=
  (Mealy.along (fun before g => ((before.getLast?.map Detections.ids).getD []).dedup.countP (· ∉ g.ids)) frames).sum

/-- For each frame, the pickups of track `a` and the time. -/
def pickupLog (a : Int) (frames : List Detections) : List (Nat × ℚ) :=
  Mealy.along (fun before g => (pickups a before g, g.timestamp)) frames

/-- The latest of the frames `log`, newest first, that has pickups supports one at
time `t`; `gap` frames lie before `log`. -/
def Supports (age t : ℚ) (gap : Nat) : List (Nat × ℚ) → Prop
  | [] => False
  | (n, ts) :: older => if 0 < n then ts ≤ 0 ∨ (gap ≤ 1 ∧ t - ts ≤ age) else Supports age t (gap + 1) older

instance decidableSupports (age t : ℚ) (gap : Nat) : (log : List (Nat × ℚ)) → Decidable (Supports age t gap log)
  | [] => inferInstanceAs (Decidable False)
  | (n, ts) :: older =>
    have := decidableSupports age t (gap + 1) older
    inferInstanceAs (Decidable (if 0 < n then ts ≤ 0 ∨ (gap ≤ 1 ∧ t - ts ≤ age) else Supports age t (gap + 1) older))

/-- The vote lets a pickup of track `a` in frame `g` through. -/
def Heard (age : ℚ) (a : Int) (before : List Detections) (g : Detections) : Prop :=
  (0 < pickups a before g ∧ Supports age g.timestamp 0 (pickupLog a before).reverse) ∨
    (2 ≤ pickups a before g ∧ (g.timestamp ≤ 0 ∨ 0 ≤ age))

instance (age : ℚ) (a : Int) (before : List Detections) (g : Detections) : Decidable (Heard age a before g) := by
  unfold Heard
  infer_instance

/-- The detections of track `a` in the frames in which it is heard to pick. -/
def picksHeard (age : ℚ) (a : Int) (frames : List Detections) : Nat :=
  (Mealy.along (fun before g => if Heard age a before g then g.persons.countP (·.trackId = a) else 0) frames).sum

variable {h : Host} {w : Settings} {cam : String} {zones : List ZoneConfig} {age t : ℚ} {a : Int}

/-! ## The votes -/

/-- The calls of `filter` in a run. -/
def filterCalls (h : Host) (w : Settings) (cam : String) (zones : List ZoneConfig) (frames : List Detections) :
    List Call :=
  Mealy.along (fun before g => ⟨cam, (Association.step h w (engineAfter h w cam zones before) g).2, g.timestamp⟩) frames

theorem supports_iff (age t : ℚ) (gap : Nat) (key : SignalKey) (seen : List Call) :
    Supports age t gap (seen.map fun c => (sightings key c, c.eventTime)).reverse ↔
      ∃ pre r later, seen = pre ++ r :: later ∧ 0 < sightings key r ∧ (∀ m ∈ later, ¬ 0 < sightings key m) ∧
        (r.eventTime ≤ 0 ∨ (gap + later.length ≤ 1 ∧ t - r.eventTime ≤ age)) := by
  induction seen using List.reverseRecOn generalizing gap with
  | nil => simp [Supports]
  | append_singleton seen c ih =>
    rw [List.map_append, List.map_singleton, List.reverse_append, List.reverse_singleton, List.singleton_append,
      Supports]
    by_cases hc : 0 < sightings key c
    · rw [if_pos hc]
      constructor
      · exact fun hok => ⟨seen, c, [], rfl, hc, by simp, hok⟩
      · rintro ⟨pre, r, later, hsplit, -, hlater, hok⟩
        rcases Mealy.split_concat.1 hsplit with ⟨rfl, rfl, rfl⟩ | ⟨later', rfl, -⟩
        · exact hok
        · exact absurd hc (hlater c (by simp))
    · rw [if_neg hc, ih]
      constructor
      · rintro ⟨pre, r, later, rfl, hr, hlater, hok⟩
        refine ⟨pre, r, later ++ [c], by simp, hr, fun m hm => ?_, ?_⟩
        · rcases List.mem_append.1 hm with hm | hm
          · exact hlater m hm
          · exact List.mem_singleton.1 hm ▸ hc
        · rw [List.length_append, List.length_singleton, ← Nat.add_assoc, Nat.add_right_comm]
          exact hok
      · rintro ⟨pre, r, later, hsplit, hr, hlater, hok⟩
        rcases Mealy.split_concat.1 hsplit with ⟨rfl, rfl, rfl⟩ | ⟨later', rfl, hseen⟩
        · exact absurd hr hc
        · rw [List.length_append, List.length_singleton, ← Nat.add_assoc, Nat.add_right_comm] at hok
          exact ⟨pre, r, later', hseen, hr, fun m hm => hlater m (List.mem_append_left _ hm), hok⟩

theorem filterCalls_concat (frames : List Detections) (g : Detections) :
    filterCalls h w cam zones (frames ++ [g]) = filterCalls h w cam zones frames ++
      [⟨cam, (Association.step h w (engineAfter h w cam zones frames) g).2, g.timestamp⟩] :=
  Mealy.along_concat _ _ _

theorem sightings_pickup (frames : List Detections) (g : Detections) (a : Int)
    (hmono : ∀ d ∈ frames, d.timestamp ≤ g.timestamp) :
    sightings (cam, a, .itemPickup)
        ⟨cam, (Association.step h w (engineAfter h w cam zones frames) g).2, g.timestamp⟩ = pickups a frames g := by
  rw [← pickups_eq_sightings (h := h) (w := w) hmono a, sightings, List.countP_filter]
  refine List.countP_congr fun ev _ => ?_
  simp [sig, isPickup, and_comm]

theorem map_filterCalls {frames : List Detections} (hmono : frames.Pairwise (·.timestamp ≤ ·.timestamp)) (a : Int) :
    (filterCalls h w cam zones frames).map (fun c => (sightings (cam, a, .itemPickup) c, c.eventTime)) =
      pickupLog a frames := by
  induction frames using List.reverseRecOn with
  | nil => rfl
  | append_singleton frames g ih =>
    obtain ⟨hold, -, hnew⟩ := List.pairwise_append.1 hmono
    rw [filterCalls_concat, List.map_append, ih hold, List.map_singleton,
      sightings_pickup frames g a fun d hd => hnew d hd g (by simp), pickupLog, pickupLog, Mealy.along_concat]

theorem filterCalls_camera (h : Host) (w : Settings) (cam : String) (zones : List ZoneConfig)
    (frames : List Detections) : ∀ c ∈ filterCalls h w cam zones frames, c.cameraId = cam := by
  induction frames using List.reverseRecOn with
  | nil => simp [filterCalls]
  | append_singleton frames g ih =>
    rw [filterCalls_concat]
    intro c hc
    rcases List.mem_append.1 hc with hc | hc
    · exact ih c hc
    · rw [List.mem_singleton.1 hc]

theorem filterCalls_times {frames : List Detections} {t : ℚ} (hle : ∀ d ∈ frames, d.timestamp ≤ t) :
    ∀ c ∈ filterCalls h w cam zones frames, c.eventTime ≤ t := by
  induction frames using List.reverseRecOn with
  | nil => simp [filterCalls]
  | append_singleton frames g ih =>
    rw [filterCalls_concat]
    intro c hc
    rcases List.mem_append.1 hc with hc | hc
    · exact ih (fun d hd => hle d (List.mem_append_left _ hd)) c hc
    · rw [List.mem_singleton.1 hc]
      exact hle g (by simp)

/-- Which frames return a pickup of track `a`. -/
theorem returned_pickup_iff (h : Host) (w : Settings) (cam : String) (zones : List ZoneConfig)
    {frames : List Detections} {g : Detections}
    (hmono : (frames ++ [g]).Pairwise (·.timestamp ≤ ·.timestamp)) (ageMs : ℚ) (a : Int) :
    Returned (Mealy.after SignalConfirmationBuffer.call (new 3 ageMs) (filterCalls h w cam zones frames))
        (cam, a, .itemPickup) ⟨cam, (Association.step h w (engineAfter h w cam zones frames) g).2, g.timestamp⟩ ↔
      Heard (ageMs / 1000) a frames g := by
  obtain ⟨hold, -, hnew⟩ := List.pairwise_append.1 hmono
  have hle : ∀ d ∈ frames, d.timestamp ≤ g.timestamp := fun d hd => hnew d hd g (by simp)
  have hcam := filterCalls_camera h w cam zones frames
  have hremember := remembers_after ageMs (cam, a, .itemPickup) hcam
  have hage : (Mealy.after SignalConfirmationBuffer.call (new 3 ageMs)
      (filterCalls h w cam zones frames)).ageThreshSec = ageMs / 1000 := (after_call_settings 3 ageMs _).2.2
  have hsupport := supports_iff (ageMs / 1000) g.timestamp 0 (cam, a, .itemPickup)
    (filterCalls h w cam zones frames)
  rw [map_filterCalls hold] at hsupport
  rw [heard_iff hremember (filterCalls_times hle), hage, sightings_pickup frames g a hle, Heard, hsupport, Supported]
  simp only [Nat.zero_add]

/-! ## The front -/

theorem engineAfter_cameraId (frames : List Detections) : (engineAfter h w cam zones frames).cameraId = cam :=
  Mealy.after_inv (Association.step h w) (·.cameraId = cam) _ rfl (fun _ _ hs => hs) frames

/-- The engine and the votes of the front after a run. -/
theorem frontAfter_parts (h : Host) (w : Settings) (cam : String) (zones : List ZoneConfig)
    (frames : List Frame) :
    (frontAfter h w cam zones frames).engine = engineAfter h w cam zones (frames.map Frame.detections) ∧
      (frontAfter h w cam zones frames).confirmer =
        Mealy.after SignalConfirmationBuffer.call (.ofSettings w)
          (filterCalls h w cam zones (frames.map Frame.detections)) := by
  induction frames using List.reverseRecOn with
  | nil => exact ⟨rfl, rfl⟩
  | append_singleton frames fr ih =>
    obtain ⟨hengine, hconfirmer⟩ := ih
    have hcam : (frontAfter h w cam zones frames).engine.cameraId = cam := by
      rw [hengine, engineAfter_cameraId]
    rw [frontAfter_concat, List.map_append, List.map_singleton, filterCalls_concat, Mealy.after_concat, ← hconfirmer,
      engineAfter, Mealy.after_concat, ← engineAfter, ← hengine]
    refine ⟨rfl, ?_⟩
    have hfilter : (frontStep h w (frontAfter h w cam zones frames) fr).1.confirmer =
        ((frontAfter h w cam zones frames).confirmer.call ⟨(frontAfter h w cam zones frames).engine.cameraId,
          (Association.step h w (frontAfter h w cam zones frames).engine fr.detections).2, fr.timestamp⟩).1 := rfl
    rw [hfilter, hcam]
    rfl

/-- One frame: a pick signal for each detection of the track, when a pickup of it is confirmed. -/
theorem frontStep_picks (s : Front) (fr : Frame) (a : Int) :
    signalsOf a "VISUAL_PICK_CONFIRMED" (frontStep h w s fr).2.behavior =
      if TheftRiskFSM.hasType .itemPickup (TheftRiskFSM.assocOf (frontStep h w s fr).2.confirmed a) then
        fr.persons.countP (·.trackId = a) else 0 := by
  set call : TheftRiskFSM.Call := ⟨fr.persons, (frontStep h w s fr).2.confirmed, fr.timestamp⟩ with hcall
  have hassoc := TheftRiskFSM.trackUpdates_assoc (c := call) (k := a)
  have hbehavior : (frontStep h w s fr).2.behavior.filter (·.trackId = a) = _ :=
    TheftRiskFSM.track_events s.fsm call a
  have hlen : (TheftRiskFSM.trackUpdates call a).length = fr.persons.countP (·.trackId = a) := by
    rw [TheftRiskFSM.trackUpdates, List.length_map, ← List.countP_eq_length_filter]
  rw [signalsOf, hbehavior, TheftRiskFSM.signalCount_turns (t := call.timestamp)
    (fun ctx p =>
      TheftRiskFSM.count_pick_update h w s.fsm.cameraId (TheftRiskFSM.assocOf call.assoc a) call.timestamp ctx p)
    (s.fsm.tracks.get? a) hassoc, hlen]

theorem behaviorOf_concat (frames : List Frame) (fr : Frame) :
    behaviorOf h w cam zones (frames ++ [fr]) = behaviorOf h w cam zones frames ++
      (frontStep h w (frontAfter h w cam zones frames) fr).2.behavior := by
  rw [behaviorOf, Mealy.outs_append, List.flatMap_append]
  simp [behaviorOf, frontAfter]

/-- The pick signals of a track, from the detections alone. -/
theorem picks_eq (hN : w.signalConfirmationFrames = 3) {frames : List Frame}
    (hmono : frames.Pairwise (·.timestamp ≤ ·.timestamp)) (a : Int) :
    signalsOf a "VISUAL_PICK_CONFIRMED" (behaviorOf h w cam zones frames) =
      picksHeard (w.signalConfirmationAgeMs / 1000) a (frames.map Frame.detections) := by
  induction frames using List.reverseRecOn with
  | nil => rfl
  | append_singleton frames fr ih =>
    obtain ⟨hold, -, -⟩ := List.pairwise_append.1 hmono
    obtain ⟨hengine, hconfirmer⟩ := frontAfter_parts h w cam zones frames
    have htimes : (frames.map Frame.detections ++ [fr.detections]).Pairwise (·.timestamp ≤ ·.timestamp) := by
      rw [← List.map_singleton, ← List.map_append, List.pairwise_map]
      exact hmono
    have hreturned := returned_pickup_iff h w cam zones htimes w.signalConfirmationAgeMs a
    have hvote : (SignalConfirmationBuffer.ofSettings w) = new 3 w.signalConfirmationAgeMs := by
      rw [ofSettings, hN]
    have hconfirmed : (frontStep h w (frontAfter h w cam zones frames) fr).2.confirmed =
        ((frontAfter h w cam zones frames).confirmer.call ⟨(frontAfter h w cam zones frames).engine.cameraId,
          (Association.step h w (frontAfter h w cam zones frames).engine fr.detections).2, fr.timestamp⟩).2 := rfl
    have htype : TheftRiskFSM.hasType .itemPickup (TheftRiskFSM.assocOf
        (frontStep h w (frontAfter h w cam zones frames) fr).2.confirmed a) = true ↔
          Heard (w.signalConfirmationAgeMs / 1000) a (frames.map Frame.detections) fr.detections := by
      rw [← hreturned, hconfirmed, hengine, hconfirmer, engineAfter_cameraId, hvote]
      simp only [TheftRiskFSM.hasType, TheftRiskFSM.assocOf, List.any_eq_true, List.mem_filter, decide_eq_true_iff,
        Returned, sig, Prod.mk.injEq, true_and, and_assoc]
      rfl
    have hpersons : fr.detections.persons = fr.persons := rfl
    rw [behaviorOf_concat, signalsOf_append, ih hold, frontStep_picks, List.map_append, List.map_singleton, picksHeard,
      picksHeard, Mealy.along_concat, List.sum_append, List.sum_singleton, hpersons]
    congr 1
    exact if_congr htype rfl rfl

/-- Up to any frame, track `a` has at most as many pick signals as items have
disappeared. -/
def OnePickEach (h : Host) (w : Settings) (cam : String) (zones : List ZoneConfig) (a : Int) (frames : List Frame) :
    Prop :=
  ∀ upTo ∈ frames.inits, signalsOf a "VISUAL_PICK_CONFIRMED" (behaviorOf h w cam zones upTo) ≤
    disappearances (upTo.map Frame.detections)

instance (h : Host) (w : Settings) (cam : String) (zones : List ZoneConfig) (a : Int) (frames : List Frame) :
    Decidable (OnePickEach h w cam zones a frames) := by
  unfold OnePickEach
  infer_instance

/-- With `N = 3`: one disappearance is one pick exactly where the frames a pick is
heard in are few enough. -/
theorem one_pick_each_iff (hN : w.signalConfirmationFrames = 3) {frames : List Frame}
    (hmono : frames.Pairwise (·.timestamp ≤ ·.timestamp)) (a : Int) :
    OnePickEach h w cam zones a frames ↔ ∀ upTo ∈ frames.inits,
      picksHeard (w.signalConfirmationAgeMs / 1000) a (upTo.map Frame.detections) ≤
        disappearances (upTo.map Frame.detections) := by
  refine forall₂_congr fun upTo hupTo => ?_
  rw [picks_eq hN (hmono.sublist ((List.mem_inits _ _).1 hupTo).sublist)]

/-- Track 7 at time `t`, with or without a bottle in front of it. -/
def shopping (bottle : Bool) (t : ℚ) : Frame where
  persons := (browsing 0 t).persons
  items := if bottle then (browsing 0 t).items else []
  timestamp := t

theorem one_pick_each_seen : OnePickEach .reference .default "cam-01" [] 7
    [shopping true 1000, shopping false 1000.1, shopping false 1000.2, shopping true 1000.3] :=
  (one_pick_each_iff rfl (by decide +kernel) 7).2 (by decide +kernel)

/-- The bottle is taken once, and the FSM signals two picks. -/
theorem one_pick_each_fails : ¬ ∀ (h : Host) (w : Settings) (cam : String) (zones : List ZoneConfig) (a : Int)
    (frames : List Frame), w.signalConfirmationFrames = 3 → frames.Pairwise (·.timestamp ≤ ·.timestamp) →
      OnePickEach h w cam zones a frames := by
  intro hall
  have hfail := hall .reference .default "cam-01" [] 7
    [shopping true 1000, shopping false 1000.1, shopping false 1000.2, shopping false 1000.3] rfl (by decide +kernel)
  revert hfail
  decide +kernel

end Netra.Pipeline
