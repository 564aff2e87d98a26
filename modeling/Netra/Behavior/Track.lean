import Netra.Behavior.Runs
/-!
# One track of a run

While no call prunes its context, a track is a machine of its own: one turn for
each `_update` it gets, whatever the calls it is absent from (`track_run`).
-/
namespace Netra.Behavior.TheftRiskFSM

open PyLib

/-- One `_update` of a track: when, and what it is given. -/
structure Sighting where
  time : ℚ
  person : PersonDetection
  assoc : List AssociationEvent

/-- What one call gives the track. -/
def sightingsIn (k : Int) (c : Call) : List Sighting :=
  (trackUpdates c k).map fun u => ⟨c.timestamp, u.1, u.2⟩

def sightings (k : Int) (calls : List Call) : List Sighting := calls.flatMap (sightingsIn k)

theorem sightings_cons (k : Int) (c : Call) (calls : List Call) :
    sightings k (c :: calls) = sightingsIn k c ++ sightings k calls := List.flatMap_cons

/-- Track 7 at time `t`, without keypoints, with events of the types `tys`. -/
def sevenAt (t : ℚ) (tys : List AssocEventType) : Call where
  persons := [{ trackId := 7, cameraId := "cam-01", bbox := ⟨40, 40, 60, 60⟩, confidence := 1, keypoints := [],
                timestamp := t }]
  assoc := tys.map fun eventType => { cameraId := "cam-01", trackId := 7, eventType, timestamp := t }
  timestamp := t

/-- Whether track `k` is detected in the call. -/
def inCall (k : Int) (c : Call) : Bool := k ∈ c.persons.map (·.trackId)

section
variable (h : Host) (w : Settings)

/-- One sighting, on the context of the track. -/
def sightingTurn (cam : String) (o : Option TrackContext) (s : Sighting) : Option TrackContext × List BehaviorEvent :=
  trackTurn h w cam s.time o (s.person, s.assoc)

/-- No call of the run prunes the context of track `k`. -/
def Kept (k : Int) (fsm : TheftRiskFSM) (calls : List Call) : Prop :=
  Mealy.Always (step h w)
    (fun s c => (s.tracks.get? k).isSome → ((step h w s c).1.tracks.get? k).isSome) fsm calls

/-- The events of track `k` in the run, in order. -/
def eventsOf (fsm : TheftRiskFSM) (k : Int) (calls : List Call) : List BehaviorEvent :=
  (Mealy.outs (step h w) fsm calls).flatten.filter (·.trackId = k)

variable {h w} {cam : String} {k : Int}

theorem eventsOf_cons (fsm : TheftRiskFSM) (k : Int) (c : Call) (calls : List Call) :
    eventsOf h w fsm k (c :: calls) =
      (step h w fsm c).2.filter (·.trackId = k) ++ eventsOf h w (step h w fsm c).1 k calls := by
  rw [eventsOf, Mealy.outs_cons, List.flatten_cons, List.filter_append]
  rfl

/-- The events a call returns for the track. -/
theorem events_step (fsm : TheftRiskFSM) (c : Call) (k : Int) :
    (step h w fsm c).2.filter (·.trackId = k) =
      (Mealy.outs (sightingTurn h w fsm.cameraId) (fsm.tracks.get? k) (sightingsIn k c)).flatten := by
  rw [track_events, sightingsIn, Mealy.outs_map]
  rfl

/-- The context a call leaves, before its pruning. -/
theorem context_step (fsm : TheftRiskFSM) (c : Call) (k : Int) :
    (step h w fsm c).1.tracks.get? k =
      (Mealy.after (sightingTurn h w fsm.cameraId) (fsm.tracks.get? k) (sightingsIn k c)).filter
        (!dropped c k ·) := by
  rw [track_after, sightingsIn, Mealy.after_map]
  rfl

theorem sightingsIn_eq_nil {c : Call} (hc : ¬ inCall k c) : sightingsIn k c = [] := by
  have hfilter : c.persons.filter (·.trackId = k) = [] := by
    refine List.filter_eq_nil_iff.2 fun p hp hk => hc ?_
    rw [inCall, decide_eq_true_iff]
    exact List.mem_map.2 ⟨p, hp, of_decide_eq_true hk⟩
  rw [sightingsIn, trackUpdates, hfilter]
  rfl

theorem trackUpdates_ne_nil {c : Call} (hc : inCall k c) : trackUpdates c k ≠ [] := by
  obtain ⟨p, hp, hk⟩ := List.mem_map.1 (of_decide_eq_true hc)
  refine List.ne_nil_of_mem (a := (p, assocOf c.assoc k)) (List.mem_map_of_mem ?_)
  exact List.mem_filter.2 ⟨hp, decide_eq_true hk⟩

/-- A call with the track leaves a context as old as the call. -/
theorem context_seen (h : Host) (w : Settings) (cam : String) {c : Call} (hc : inCall k c) (o : Option TrackContext) :
    ∃ ctx, Mealy.after (sightingTurn h w cam) o (sightingsIn k c) = some ctx ∧ ctx.lastTs = c.timestamp := by
  obtain ⟨ctx, hctx, hts⟩ := lastTs_after h w cam c.timestamp o (trackUpdates_ne_nil hc)
  refine ⟨ctx, ?_, hts⟩
  rw [sightingsIn, Mealy.after_map]
  exact hctx

theorem context_step_in (fsm : TheftRiskFSM) {c : Call} (hc : inCall k c) :
    (step h w fsm c).1.tracks.get? k =
      Mealy.after (sightingTurn h w fsm.cameraId) (fsm.tracks.get? k) (sightingsIn k c) := by
  obtain ⟨ctx, hctx, -⟩ := context_seen h w fsm.cameraId hc (fsm.tracks.get? k)
  have hin : k ∈ c.persons.map (·.trackId) := of_decide_eq_true hc
  rw [context_step, hctx, Option.filter_some, dropped]
  simp [hin]

theorem context_kept {fsm : TheftRiskFSM} {c : Call} {k : Int}
    (hkept : (fsm.tracks.get? k).isSome → ((step h w fsm c).1.tracks.get? k).isSome) :
    (step h w fsm c).1.tracks.get? k =
      Mealy.after (sightingTurn h w fsm.cameraId) (fsm.tracks.get? k) (sightingsIn k c) := by
  by_cases hc : inCall k c
  · exact context_step_in fsm hc
  · rw [context_step, sightingsIn_eq_nil hc, Mealy.after_nil] at hkept ⊢
    cases hctx : fsm.tracks.get? k with
    | none => rfl
    | some ctx =>
      rw [hctx] at hkept
      obtain ⟨ctx', hctx'⟩ := Option.isSome_iff_exists.1 (hkept rfl)
      rw [hctx', (Option.filter_eq_some_iff.1 hctx').1]

/-- A track is kept when it is in every call. -/
theorem kept_of_inCall {fsm : TheftRiskFSM} {calls : List Call} (hin : ∀ c ∈ calls, inCall k c) :
    Kept h w k fsm calls := by
  induction calls generalizing fsm with
  | nil => trivial
  | cons c calls ih =>
    obtain ⟨hc, hcalls⟩ := List.forall_mem_cons.1 hin
    obtain ⟨ctx, hctx, -⟩ := context_seen h w fsm.cameraId hc (fsm.tracks.get? k)
    refine ⟨fun _ => ?_, ih hcalls⟩
    rw [context_step_in fsm hc, hctx]
    rfl

/-- What a kept track does in a run is what its machine does on its sightings. -/
theorem track_run {fsm : TheftRiskFSM} {k : Int} {calls : List Call} (hkept : Kept h w k fsm calls) :
    (Mealy.after (step h w) fsm calls).tracks.get? k =
        Mealy.after (sightingTurn h w fsm.cameraId) (fsm.tracks.get? k) (sightings k calls) ∧
      eventsOf h w fsm k calls =
        (Mealy.outs (sightingTurn h w fsm.cameraId) (fsm.tracks.get? k) (sightings k calls)).flatten := by
  induction calls generalizing fsm with
  | nil => exact ⟨rfl, rfl⟩
  | cons c calls ih =>
    obtain ⟨hc, hcalls⟩ := hkept
    obtain ⟨hctx, hevents⟩ := ih hcalls
    have hcam : (step h w fsm c).1.cameraId = fsm.cameraId := rfl
    rw [hcam, context_kept hc] at hctx hevents
    constructor
    · rw [Mealy.after_cons, hctx, sightings_cons, Mealy.after_append]
    · rw [eventsOf_cons, events_step, hevents, sightings_cons, Mealy.outs_append, List.flatten_append]

/-- One event for each sighting. -/
theorem sightingTurn_spec (cam : String) (o : Option TrackContext) (s : Sighting) :
    sightingTurn h w cam o s =
      (some (update h w cam (getOrCreate s.time o) s.person s.assoc s.time).1,
        [behaviorEvent w cam s.person.trackId s.time
          (update h w cam (getOrCreate s.time o) s.person s.assoc s.time)]) := rfl

end

end Netra.Behavior.TheftRiskFSM
