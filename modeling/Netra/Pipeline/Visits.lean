import Netra.Association.Registry
import Netra.Behavior.Runs
/-!
# Shelf interactions and visits

The association engine and the FSM in lock step, without the vote in between.
The engine reports a shelf interaction in every frame from the
`n_frames_hand_in_shelf`-th near frame on, and the FSM counts reports. So a
track's signals are as many as its detections in such frames
(`direct_run`), whatever number of visits they belong to.
-/
namespace Netra.Pipeline

open PyLib Association Behavior

/-- The association engine and the FSM of a camera. -/
structure Direct where
  engine : AssociationEngine
  fsm : TheftRiskFSM

namespace Direct

def init (cameraId : String) (zones : List ZoneConfig) : Direct where
  engine := .init cameraId zones
  fsm := { cameraId }

section
variable (h : Host) (w : Settings)

/-- `process_frame`, and its events through `process`. -/
def step (s : Direct) (d : Detections) : Direct × List BehaviorEvent :=
  let (engine, assoc) := Association.step h w s.engine d
  let (fsm, behavior) := TheftRiskFSM.step h w s.fsm ⟨d.persons, assoc, d.timestamp⟩
  ({ engine, fsm }, behavior)

/-- The behaviour events of a run. -/
def behavior (cam : String) (zones : List ZoneConfig) (frames : List Detections) : List BehaviorEvent :=
  (Mealy.outs (step h w) (.init cam zones) frames).flatten

end

end Direct

/-- How many signals of that name track `a` has. -/
def signalsOf (a : Int) (name : String) (bevs : List BehaviorEvent) : Nat :=
  TheftRiskFSM.signalCount name (bevs.filter (·.trackId = a))

/-! ## Visits -/

/-- The detection is near an item of its frame. -/
def near (d : Detections) (p : PersonDetection) : Bool := itemsNearBBox p.bbox d.items 80 ≠ []

/-- Which of the detections of track `a` in a frame are near an item. -/
def nearFlags (a : Int) (d : Detections) : List Bool := (d.persons.filter (·.trackId = a)).map (near d)

/-- The maximal runs of consecutive frames in which track `a` is near an item. -/
def visits (a : Int) (frames : List Detections) : Nat :=
  ((frames.map fun d => (nearFlags a d).any id).splitBy (· = ·)).countP (true ∈ ·)

/-- At each detection, how many in a row up to it are near, after `c` before the first. -/
def inARow (c : Nat) : List Bool → List Nat
  | [] => []
  | v :: vs =>
    let c := if v then c + 1 else 0
    c :: inARow c vs

/-- Some detection is the `n`-th near one in a row, or a later one. -/
def Lingers (n c : Nat) (flags : List Bool) : Prop := ∃ x ∈ inARow c flags, 0 < x ∧ n ≤ x

instance (n c : Nat) (flags : List Bool) : Decidable (Lingers n c flags) :=
  inferInstanceAs (Decidable (∃ x ∈ inARow c flags, 0 < x ∧ n ≤ x))

/-- The detections of track `a` in the frames it lingers in, `c` near ones in a row
coming before the first. -/
def lingering (n : Nat) (a : Int) (c : Nat) : List Detections → Nat
  | [] => 0
  | d :: frames =>
    (if Lingers n c (nearFlags a d) then (nearFlags a d).length else 0) +
      lingering n a ((inARow c (nearFlags a d)).getLastD c) frames

variable {h : Host} {w : Settings} {cam : String} {zones : List ZoneConfig} {e : AssociationEngine}

/-! ## The engine -/

/-- `frames_near_shelf`, 0 for a track that is not there. -/
def shelfFrames (o : Option PersonState) : Nat := (o.map (·.framesNearShelf)).getD 0

def isInteraction (ev : AssociationEvent) : Bool := ev.eventType = .shelfInteraction

theorem updatePerson_interaction (st : PersonState) (p : PersonDetection) (d : Detections) (gone : List Int) :
    (updatePerson h w e st p d.items gone d.timestamp).2.any isInteraction =
        (0 < nearShelf st p.bbox d.items && w.nFramesHandInShelf ≤ nearShelf st p.bbox d.items) ∧
      (updatePerson h w e st p d.items gone d.timestamp).1.framesNearShelf = nearShelf st p.bbox d.items := by
  have hzone : (zoneEvents h e st p d.timestamp).any isInteraction = false := by
    refine List.any_eq_false.2 fun ev hev => ?_
    rcases (zoneEvents_spec ev hev).2 with hty | hty <;> simp [isInteraction, hty]
  have hpick : (pickupEvents e e.lastItems gone p d.timestamp).any isInteraction = false := by
    refine List.any_eq_false.2 fun ev hev => ?_
    simp [isInteraction, (pickupEvents_spec ev hev).2]
  have hspike (st' : PersonState) : (speedSpike h w e st' p d.timestamp).2.any isInteraction = false := by
    refine List.any_eq_false.2 fun ev hev => ?_
    simp [isInteraction, (speedSpike_events ev hev).2]
  have hshelf (n : Nat) : (shelfEvents w e n p d.timestamp).any isInteraction =
      (0 < n && w.nFramesHandInShelf ≤ n) := by
    rw [shelfEvents, List.any_append, ← Bool.decide_and]
    by_cases hlong : 0 < n ∧ w.nFramesHandInShelf ≤ n
    · rw [if_pos hlong, decide_eq_true hlong]
      simp [isInteraction]
    · rw [if_neg hlong, decide_eq_false hlong]
      split <;> simp [isInteraction]
  refine ⟨?_, ?_⟩
  · simp only [updatePerson, List.any_append, hzone, hpick, hspike, hshelf, Bool.false_or, Bool.or_false]
  · exact (speedSpike_frame _ p d.timestamp).2

theorem lingers_cons (n c : Nat) (v : Bool) (vs : List Bool) :
    Lingers n c (v :: vs) ↔ (0 < (if v then c + 1 else 0) ∧ n ≤ if v then c + 1 else 0) ∨
      Lingers n (if v then c + 1 else 0) vs := by
  simp [Lingers, inARow]

/-- Of all events of a track in a frame, some is an interaction when the track lingers. -/
theorem trackTurn_interactions (d : Detections) (o : Option PersonState) (ps : List PersonDetection) :
    (Mealy.outs (trackTurn h w e d.items d.timestamp) o ps).flatten.any isInteraction =
        decide (Lingers w.nFramesHandInShelf (shelfFrames o) (ps.map (near d))) ∧
      shelfFrames (Mealy.after (trackTurn h w e d.items d.timestamp) o ps) =
        (inARow (shelfFrames o) (ps.map (near d))).getLastD (shelfFrames o) := by
  induction ps generalizing o with
  | nil => exact ⟨by simp [Lingers, inARow], rfl⟩
  | cons p ps ih =>
    have hst : nearShelf (stateOf (registered e d.items d.timestamp) p d.timestamp o) p.bbox d.items =
        if near d p then shelfFrames o + 1 else 0 := by
      cases o <;> simp [nearShelf, near, stateOf, shelfFrames]
    obtain ⟨hev, hnext⟩ := updatePerson_interaction (h := h) (w := w) (e := registered e d.items d.timestamp)
      (stateOf (registered e d.items d.timestamp) p d.timestamp o) p d (disappeared h e d.items)
    rw [hst] at hev hnext
    have hturn : (trackTurn h w e d.items d.timestamp o p).2.any isInteraction = _ := hev
    have hafter : shelfFrames (trackTurn h w e d.items d.timestamp o p).1 = _ := hnext
    obtain ⟨hevs, hlast⟩ := ih (trackTurn h w e d.items d.timestamp o p).1
    rw [hafter] at hevs hlast
    rw [Mealy.outs_cons, List.flatten_cons, List.any_append, hturn, hevs, Mealy.after_cons, hlast, List.map_cons,
      inARow, List.getLastD_cons]
    refine ⟨?_, rfl⟩
    rw [Bool.eq_iff_iff]
    simp only [Bool.or_eq_true, Bool.and_eq_true, decide_eq_true_iff, lingers_cons]

/-- One frame of the engine, for a track that is in it. -/
theorem engine_interactions (a : Int) {d : Detections} (hd : a ∈ d.persons.map (·.trackId)) :
    ((Association.step h w e d).2.filter (·.trackId = a)).any isInteraction =
        decide (Lingers w.nFramesHandInShelf (shelfFrames (e.persons.get? a)) (nearFlags a d)) ∧
      shelfFrames ((Association.step h w e d).1.persons.get? a) =
        (inARow (shelfFrames (e.persons.get? a)) (nearFlags a d)).getLastD (shelfFrames (e.persons.get? a)) := by
  have hevents : (Association.step h w e d).2.filter (·.trackId = a) = _ := track_events d.persons d.items d.timestamp a
  have hstates : (Association.step h w e d).1.persons.get? a = _ := track_after d.persons d.items d.timestamp a
  obtain ⟨hevs, hlast⟩ := trackTurn_interactions (h := h) (w := w) (e := e) d (e.persons.get? a)
    (d.persons.filter (·.trackId = a))
  have hkeep (o : Option PersonState) :
      o.filter (fun st => !(a ∉ d.persons.map (·.trackId) && 5 < d.timestamp - st.lastTs)) = o := by
    cases o <;> simp [hd]
  rw [hevents, hstates, hkeep]
  exact ⟨hevs, hlast⟩

/-! ## The FSM -/

/-- `repeated_shelf`, 0 for a track that is not there. -/
def shelfReports (o : Option TrackContext) : Nat := (o.map (·.repeatedShelf)).getD 0

variable {assoc : List AssociationEvent}

theorem shelfReports_getOrCreate (t : ℚ) (o : Option TrackContext) :
    (TheftRiskFSM.getOrCreate t o).repeatedShelf = shelfReports o := by
  cases o <;> rfl

theorem shelfReports_turn (t : ℚ) (o : Option TrackContext) (u : PersonDetection × List AssociationEvent) :
    shelfReports (TheftRiskFSM.trackTurn h w cam t o u).1 =
      shelfReports o + if TheftRiskFSM.hasType .shelfInteraction u.2 then 1 else 0 := by
  have hmem := TheftRiskFSM.memory_update h w cam u.2 t (TheftRiskFSM.getOrCreate t o) u.1
  have hnext : (TheftRiskFSM.update h w cam (TheftRiskFSM.getOrCreate t o) u.1 u.2 t).1.repeatedShelf =
      (TheftRiskFSM.getOrCreate t o).repeatedShelf + if TheftRiskFSM.hasType .shelfInteraction u.2 then 1 else 0 :=
    congrArg TheftRiskFSM.Memory.repeatedShelf hmem
  rw [← shelfReports_getOrCreate t o]
  exact hnext

/-- The turns of a track in a call: `repeated_shelf` counts the signals, and a
repeated interaction is only reported from the second one on. -/
theorem trackTurn_reports (cam : String) (t : ℚ) (o : Option TrackContext)
    {us : List (PersonDetection × List AssociationEvent)}
    (hus : ∀ u ∈ us, u.2 = assoc) :
    shelfReports (Mealy.after (TheftRiskFSM.trackTurn h w cam t) o us) = shelfReports o +
        TheftRiskFSM.signalCount "SHELF_INTERACTION" (Mealy.outs (TheftRiskFSM.trackTurn h w cam t) o us).flatten ∧
      (0 < TheftRiskFSM.signalCount "REPEATED_SHELF_INTERACTION"
          (Mealy.outs (TheftRiskFSM.trackTurn h w cam t) o us).flatten →
        2 ≤ shelfReports (Mealy.after (TheftRiskFSM.trackTurn h w cam t) o us)) := by
  induction us using List.reverseRecOn with
  | nil => simp [TheftRiskFSM.signalCount]
  | append_singleton us u ih =>
    obtain ⟨p, as⟩ := u
    obtain rfl : as = assoc := hus (p, as) (by simp)
    obtain ⟨hcount, hrep⟩ := ih fun u hu => hus u (List.mem_append_left _ hu)
    rw [Mealy.after_concat, Mealy.outs_append, List.flatten_append, shelfReports_turn, hcount]
    simp only [Mealy.outs_cons, Mealy.outs_nil, List.flatten_cons, List.flatten_nil, List.append_nil,
      TheftRiskFSM.signalCount_append, TheftRiskFSM.signalCount_turn, TheftRiskFSM.count_shelf_update]
    refine ⟨Nat.add_assoc .., fun hpos => ?_⟩
    rw [← hcount]
    rcases Nat.add_pos_iff_pos_or_pos.1 hpos with hpos | hpos
    · exact (hrep hpos).trans (Nat.le_add_right _ _)
    · have hmem := (TheftRiskFSM.repeated_update ..).1 (List.count_pos_iff.1 hpos)
      have hold : (TheftRiskFSM.getOrCreate t (Mealy.after (TheftRiskFSM.trackTurn h w cam t) o us)).repeatedShelf =
          shelfReports (Mealy.after (TheftRiskFSM.trackTurn h w cam t) o us) := shelfReports_getOrCreate ..
      rw [if_pos hmem.1, ← hold]
      exact Nat.succ_le_succ hmem.2

/-! ## Both together -/

theorem signalsOf_append (a : Int) (name : String) (bevs bevs' : List BehaviorEvent) :
    signalsOf a name (bevs ++ bevs') = signalsOf a name bevs + signalsOf a name bevs' := by
  rw [signalsOf, List.filter_append, TheftRiskFSM.signalCount_append]
  rfl

/-- One frame with track `a` in it. -/
theorem direct_step (s : Direct) (a : Int) {d : Detections} (hd : a ∈ d.persons.map (·.trackId)) :
    signalsOf a "SHELF_INTERACTION" (Direct.step h w s d).2 =
        (if Lingers w.nFramesHandInShelf (shelfFrames (s.engine.persons.get? a)) (nearFlags a d) then
          (nearFlags a d).length else 0) ∧
      shelfFrames ((Direct.step h w s d).1.engine.persons.get? a) =
        (inARow (shelfFrames (s.engine.persons.get? a)) (nearFlags a d)).getLastD
          (shelfFrames (s.engine.persons.get? a)) ∧
      shelfReports ((Direct.step h w s d).1.fsm.tracks.get? a) =
        shelfReports (s.fsm.tracks.get? a) + signalsOf a "SHELF_INTERACTION" (Direct.step h w s d).2 ∧
      (0 < signalsOf a "REPEATED_SHELF_INTERACTION" (Direct.step h w s d).2 →
        2 ≤ shelfReports ((Direct.step h w s d).1.fsm.tracks.get? a)) := by
  obtain ⟨hev, hframes⟩ := engine_interactions (h := h) (w := w) (e := s.engine) a hd
  set call : TheftRiskFSM.Call := ⟨d.persons, (Association.step h w s.engine d).2, d.timestamp⟩ with hcall
  have hassoc := TheftRiskFSM.trackUpdates_assoc (c := call) (k := a)
  have hbehavior : (Direct.step h w s d).2.filter (·.trackId = a) = _ := TheftRiskFSM.track_events s.fsm call a
  have htracks : (Direct.step h w s d).1.fsm.tracks.get? a = _ := TheftRiskFSM.track_after s.fsm call a
  have hkeep (o : Option TrackContext) : o.filter (!TheftRiskFSM.dropped call a ·) = o := by
    have hin : a ∈ call.persons.map (·.trackId) := hd
    cases o <;> simp [TheftRiskFSM.dropped, hin]
  have hcount := TheftRiskFSM.signalCount_turns (t := call.timestamp)
    (fun ctx p =>
      TheftRiskFSM.count_shelf_update h w s.fsm.cameraId (TheftRiskFSM.assocOf call.assoc a) call.timestamp ctx p)
    (s.fsm.tracks.get? a) hassoc
  obtain ⟨hreports, hrepeated⟩ := trackTurn_reports (h := h) (w := w) s.fsm.cameraId call.timestamp
    (s.fsm.tracks.get? a) hassoc
  have htype : TheftRiskFSM.hasType .shelfInteraction (TheftRiskFSM.assocOf call.assoc a) =
      decide (Lingers w.nFramesHandInShelf (shelfFrames (s.engine.persons.get? a)) (nearFlags a d)) := hev
  have hlen : (TheftRiskFSM.trackUpdates call a).length = (nearFlags a d).length := by
    simp [TheftRiskFSM.trackUpdates, nearFlags, hcall]
  rw [signalsOf, signalsOf, hbehavior, htracks, hkeep]
  refine ⟨?_, hframes, hreports, hrepeated⟩
  rw [hcount, htype, hlen]
  exact if_congr decide_eq_true_iff rfl rfl

theorem direct_run (s : Direct) (a : Int) {frames : List Detections}
    (hpresent : ∀ d ∈ frames, a ∈ d.persons.map (·.trackId)) :
    signalsOf a "SHELF_INTERACTION" (Mealy.outs (Direct.step h w) s frames).flatten =
        lingering w.nFramesHandInShelf a (shelfFrames (s.engine.persons.get? a)) frames ∧
      (0 < signalsOf a "REPEATED_SHELF_INTERACTION" (Mealy.outs (Direct.step h w) s frames).flatten →
        2 ≤ shelfReports (s.fsm.tracks.get? a) +
          signalsOf a "SHELF_INTERACTION" (Mealy.outs (Direct.step h w) s frames).flatten) := by
  induction frames generalizing s with
  | nil => exact ⟨rfl, fun hpos => absurd hpos (lt_irrefl _)⟩
  | cons d frames ih =>
    obtain ⟨hcount, hframes, hreports, hrepeated⟩ :=
      direct_step (h := h) (w := w) s a (hpresent d (List.mem_cons_self ..))
    obtain ⟨hrest, hlater⟩ := ih (Direct.step h w s d).1 fun d' hd' => hpresent d' (List.mem_cons_of_mem _ hd')
    rw [hreports] at hrepeated hlater
    rw [Mealy.outs_cons, List.flatten_cons, signalsOf_append, signalsOf_append]
    refine ⟨?_, fun hpos => ?_⟩
    · rw [hcount, hrest, hframes, lingering]
    · rcases Nat.add_pos_iff_pos_or_pos.1 hpos with hpos | hpos
      · have htwo := hrepeated hpos
        omega
      · have htwo := hlater hpos
        omega

/-- Signals of track `a` belong to its visits: there are at most as many
interactions as visits, and repeated ones only when there are two visits. -/
def InteractionsAreVisits (h : Host) (w : Settings) (cam : String) (zones : List ZoneConfig) (a : Int)
    (frames : List Detections) : Prop :=
  signalsOf a "SHELF_INTERACTION" (Direct.behavior h w cam zones frames) ≤ visits a frames ∧
    (0 < signalsOf a "REPEATED_SHELF_INTERACTION" (Direct.behavior h w cam zones frames) → 2 ≤ visits a frames)

instance (h : Host) (w : Settings) (cam : String) (zones : List ZoneConfig) (a : Int) (frames : List Detections) :
    Decidable (InteractionsAreVisits h w cam zones a frames) := by
  unfold InteractionsAreVisits
  infer_instance

/-- For a track in every frame: the detections it lingers in against its visits. -/
theorem interactions_are_visits_iff {a : Int} {frames : List Detections}
    (hpresent : ∀ d ∈ frames, a ∈ d.persons.map (·.trackId)) :
    InteractionsAreVisits h w cam zones a frames ↔
      lingering w.nFramesHandInShelf a 0 frames ≤ visits a frames := by
  obtain ⟨hcount, hrepeated⟩ := direct_run (h := h) (w := w) (.init cam zones) a hpresent
  have hcount : signalsOf a "SHELF_INTERACTION" (Direct.behavior h w cam zones frames) =
      lingering w.nFramesHandInShelf a 0 frames := hcount
  have hrepeated : 0 < signalsOf a "REPEATED_SHELF_INTERACTION" (Direct.behavior h w cam zones frames) →
      2 ≤ 0 + signalsOf a "SHELF_INTERACTION" (Direct.behavior h w cam zones frames) := hrepeated
  rw [InteractionsAreVisits, hcount]
  rw [hcount, Nat.zero_add] at hrepeated
  exact ⟨fun hvisits => hvisits.1, fun hle => ⟨hle, fun hpos => (hrepeated hpos).trans hle⟩⟩

/-- Track 7 at time `t`, with a bottle `dx` px to the right of its centre. -/
def browsing (dx t : ℚ) : Detections where
  persons := [{ trackId := 7, cameraId := "cam-01", bbox := ⟨80, 100, 120, 300⟩, confidence := 1, keypoints := [],
                timestamp := t }]
  items := [{ itemId := 0, cameraId := "cam-01", bbox := ⟨90 + dx, 190, 110 + dx, 210⟩, className := "bottle",
              confidence := 1, timestamp := t }]
  timestamp := t

/-- Four frames at the shelf, a step back, and the shelf again. -/
theorem interactions_are_visits_twice : InteractionsAreVisits .reference .default "cam-01" [] 7
    [browsing 50 0, browsing 50 1, browsing 50 2, browsing 50 3, browsing 90 4, browsing 50 5] :=
  (interactions_are_visits_iff (by decide)).2 (by decide +kernel)

/-- Five frames at the shelf are one visit and a repeated interaction. -/
theorem interactions_are_visits_fails : ¬ ∀ (h : Host) (w : Settings) (cam : String) (zones : List ZoneConfig) (a : Int)
    (frames : List Detections), (∀ d ∈ frames, a ∈ d.persons.map (·.trackId)) →
      InteractionsAreVisits h w cam zones a frames := by
  intro hall
  have hfail := hall .reference .default "cam-01" [] 7
    [browsing 50 0, browsing 50 1, browsing 50 2, browsing 50 3, browsing 50 4] (by decide)
  revert hfail
  decide +kernel

end Netra.Pipeline
