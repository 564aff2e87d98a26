import Netra.Association.Spikes
import Netra.Behavior.Runs
import Netra.Behavior.Votes
import Netra.Pipeline.Frames
/-!
# The trace of a camera

A run of the front of a camera as a list of records: each frame with what the
components said about it. What the components remember of a trace is stated
record by record: which events the vote lets through (`confirmed_iff`), how far
apart speed spikes are (`spikes_apart`), and which concealments the FSM still
knows of (`exit_signal_iff`).
-/
namespace Netra.Pipeline

open PyLib Association Behavior

/-- A frame and what the components said about it. -/
structure Record where
  frame : Frame
  out : FrontOut

namespace Record

def time (r : Record) : ℚ := r.frame.timestamp

/-- The track has a detection in the frame. -/
def present (k : Int) (r : Record) : Bool := k ∈ r.frame.persons.map (·.trackId)

/-- The engine emitted an event of type `ty` for track `k`. -/
def HasEvent (r : Record) (k : Int) (ty : AssocEventType) : Prop :=
  ∃ ev ∈ r.out.assoc, ev.trackId = k ∧ ev.eventType = ty

/-- The engine emitted the exit event the FSM looks for. -/
def HasExit (r : Record) (k : Int) : Prop :=
  ∃ ev ∈ r.out.assoc, ev.trackId = k ∧ TheftRiskFSM.isExit ev = true

/-- The FSM emitted a signal of track `k` whose name is among `sigs`. -/
def HasSignal (r : Record) (k : Int) (sigs : List String) : Prop :=
  ∃ bev ∈ r.out.behavior, bev.trackId = k ∧ ∃ s ∈ bev.signals, s.signalName ∈ sigs

instance (r : Record) (k : Int) : Decidable (r.HasExit k) :=
  inferInstanceAs (Decidable (∃ ev ∈ r.out.assoc, ev.trackId = k ∧ TheftRiskFSM.isExit ev = true))

instance (r : Record) (k : Int) (sigs : List String) : Decidable (r.HasSignal k sigs) :=
  inferInstanceAs (Decidable (∃ bev ∈ r.out.behavior, bev.trackId = k ∧
    ∃ s ∈ bev.signals, s.signalName ∈ sigs))

/-- What the vote got. -/
def round (r : Record) : SignalConfirmationBuffer.Round := ⟨r.out.assoc, r.time⟩

/-- What the FSM got. -/
def call (r : Record) : TheftRiskFSM.Call := ⟨r.frame.persons, r.out.confirmed, r.time⟩

end Record

section
variable (h : Host) (w : Settings) (cam : String) (zones : List ZoneConfig)

/-- `settings` with `N = 3` and an age threshold of 500 ms. -/
def voting (w : Settings) : Settings :=
  { w with signalConfirmationFrames := 3, signalConfirmationAgeMs := 500 }

/-- The front of camera `cam` after `frames`. -/
def frontAfter (frames : List Frame) : Front := Mealy.after (frontStep h w) (.init w cam zones) frames

/-- The record of a frame that comes after `frames`. -/
def recordOf (frames : List Frame) (fr : Frame) : Record :=
  ⟨fr, (frontStep h w (frontAfter h w cam zones frames) fr).2⟩

def trace (frames : List Frame) : List Record :=
  Mealy.outs (fun s fr => ((frontStep h w s fr).1, Record.mk fr (frontStep h w s fr).2)) (.init w cam zones)
    frames

end

/-- Positive timestamps that never go back. -/
def TimesOk (frames : List Frame) : Prop :=
  (∀ fr ∈ frames, 0 < fr.timestamp) ∧ frames.Pairwise fun a b => a.timestamp ≤ b.timestamp

variable {h : Host} {w : Settings} {cam : String} {zones : List ZoneConfig}

theorem frontAfter_concat (frames : List Frame) (fr : Frame) : frontAfter h w cam zones (frames ++ [fr]) =
    (frontStep h w (frontAfter h w cam zones frames) fr).1 :=
  Mealy.after_concat _ _ _ _

theorem trace_concat (frames : List Frame) (fr : Frame) :
    trace h w cam zones (frames ++ [fr]) = trace h w cam zones frames ++ [recordOf h w cam zones frames fr] := by
  rw [trace, Mealy.outs_append]
  rfl

/-- The records of a run from where `pre` and `fr` left it. -/
theorem trace_append (h : Host) (w : Settings) (cam : String) (zones : List ZoneConfig) (pre : List Frame)
    (fr : Frame) (post : List Frame) :
    ∃ R, trace h w cam zones (pre ++ fr :: post) =
        trace h w cam zones pre ++ recordOf h w cam zones pre fr :: R ∧ R.map Record.frame = post := by
  have hframes (s : Front) (l : List Frame) : (Mealy.outs (fun s fr => ((frontStep h w s fr).1,
      Record.mk fr (frontStep h w s fr).2)) s l).map Record.frame = l := by
    induction l generalizing s with
    | nil => rfl
    | cons f l ih => rw [Mealy.outs_cons, List.map_cons, ih]
  rw [trace, Mealy.outs_append, Mealy.outs_cons]
  exact ⟨_, rfl, hframes _ _⟩

theorem timesOk_concat {frames : List Frame} {fr : Frame} (ht : TimesOk (frames ++ [fr])) :
    TimesOk frames ∧ 0 < fr.timestamp ∧ ∀ fr' ∈ frames, fr'.timestamp ≤ fr.timestamp := by
  obtain ⟨hpos, hmono⟩ := ht
  rw [List.pairwise_append] at hmono
  exact ⟨⟨fun f hf => hpos f (List.mem_append_left _ hf), hmono.1⟩, hpos fr (by simp),
    fun f hf => hmono.2.2 f hf fr (by simp)⟩

theorem timesOk_left {pre post : List Frame} (ht : TimesOk (pre ++ post)) : TimesOk pre :=
  ⟨fun f hf => ht.1 f (List.mem_append_left _ hf), (List.pairwise_append.1 ht.2).1⟩

/-- A record of the trace is that of a frame after the frames before it. -/
theorem trace_split {frames : List Frame} {H R : List Record} {z : Record} :
    trace h w cam zones frames = H ++ z :: R → ∃ pre fr post, frames = pre ++ fr :: post ∧
      H = trace h w cam zones pre ∧ z = recordOf h w cam zones pre fr := by
  induction frames using List.reverseRecOn generalizing R with
  | nil =>
    intro he
    simp [trace] at he
  | append_singleton frames fr ih =>
    intro he
    rw [trace_concat] at he
    rcases Mealy.split_concat.1 he with ⟨rfl, rfl, rfl⟩ | ⟨R', rfl, he'⟩
    · exact ⟨frames, fr, [], rfl, rfl, rfl⟩
    · obtain ⟨pre, fr', post, rfl, hH, hz⟩ := ih he'
      exact ⟨pre, fr', post ++ [fr], by simp, hH, hz⟩

/-- Every record of a trace came from one of the frames. -/
theorem frame_of_mem {frames : List Frame} {r : Record} (hr : r ∈ trace h w cam zones frames) :
    r.frame ∈ frames := by
  obtain ⟨H, R, he⟩ := List.append_of_mem hr
  obtain ⟨pre, fr, post, rfl, -, rfl⟩ := trace_split he
  simp [recordOf]

theorem trace_le (h : Host) (w : Settings) (cam : String) (zones : List ZoneConfig) {frames : List Frame}
    {fr : Frame} (hle : ∀ fr' ∈ frames, fr'.timestamp ≤ fr.timestamp) :
    ∀ r ∈ trace h w cam zones frames, r.time ≤ fr.timestamp :=
  fun r hr => hle r.frame (frame_of_mem hr)

theorem round_le (h : Host) (w : Settings) (cam : String) (zones : List ZoneConfig) {frames : List Frame}
    {fr : Frame} (hle : ∀ fr' ∈ frames, fr'.timestamp ≤ fr.timestamp) :
    ∀ r ∈ (trace h w cam zones frames).map Record.round, r.time ≤ fr.timestamp := by
  intro r hr
  obtain ⟨r', hr', rfl⟩ := List.mem_map.1 hr
  exact trace_le h w cam zones hle r' hr'

/-- A camera keeps its id. -/
theorem cameraId_after (h : Host) (w : Settings) (cam : String) (zones : List ZoneConfig) (frames : List Frame) :
    (frontAfter h w cam zones frames).engine.cameraId = cam ∧
    (frontAfter h w cam zones frames).fsm.cameraId = cam :=
  Mealy.after_inv (frontStep h w) (fun s => s.engine.cameraId = cam ∧ s.fsm.cameraId = cam) _ ⟨rfl, rfl⟩
    (fun _ _ hs => hs) frames

/-! ## The vote -/

open SignalConfirmationBuffer in
/-- The vote remembers the trace. -/
theorem votes_after (h : Host) (w : Settings) (cam : String) (zones : List ZoneConfig) {frames : List Frame}
    (ht : TimesOk frames) :
    TwoOfThree (frontAfter h (voting w) cam zones frames).confirmer ∧
      (frontAfter h (voting w) cam zones frames).confirmer.ageThreshSec = 1 / 2 ∧
      ∀ key : SignalKey, key.1 = cam → VotesOk cam ((trace h (voting w) cam zones frames).map Record.round) key
        (frontAfter h (voting w) cam zones frames).confirmer := by
  induction frames using List.reverseRecOn with
  | nil =>
    have hage : (500 : ℚ) / 1000 = 1 / 2 := by norm_num
    have hmaj : (3 + 1) / 2 = 2 := rfl
    have hpos : (0 : ℚ) ≤ 500 / 1000 := by norm_num
    exact ⟨⟨rfl, hmaj, hpos⟩, hage, fun key _ => votesOk_new _ _ _ _⟩
  | append_singleton frames fr ih =>
    obtain ⟨hinit, hpos, hmono⟩ := timesOk_concat ht
    obtain ⟨h1, h2, h3⟩ := ih hinit
    obtain ⟨hid, -⟩ := cameraId_after h (voting w) cam zones frames
    have hround := round_le h (voting w) cam zones hmono
    obtain ⟨h4, h5⟩ := filter_const cam fr.timestamp h1 (recordOf h (voting w) cam zones frames fr).out.assoc
    have hb : (frontAfter h (voting w) cam zones (frames ++ [fr])).confirmer =
        ((frontAfter h (voting w) cam zones frames).confirmer.filter
          (recordOf h (voting w) cam zones frames fr).out.assoc cam fr.timestamp).1 := by
      rw [frontAfter_concat]
      simp only [frontStep, recordOf, hid]
    rw [hb, trace_concat, List.map_append]
    refine ⟨h4, h5.trans h2, fun key hkey => ?_⟩
    exact votesOk_filter h1 (h3 key hkey) hkey hpos hround

/-- Same track and type: what the vote counts together. -/
def SameSignal (e ev : AssociationEvent) : Prop := e.trackId = ev.trackId ∧ e.eventType = ev.eventType

/-- The vote has a second event for `ev`: one before it in the frame, or one in
one of the last two frames that is not older than half a second. -/
def Seconded (H : List Record) (z : Record) (before : List AssociationEvent) (ev : AssociationEvent) : Prop :=
  (∃ e ∈ before, SameSignal e ev) ∨
    ∃ r ∈ H.rtake 2, (∃ e ∈ r.out.assoc, SameSignal e ev) ∧ z.time - r.time ≤ 1 / 2

open SignalConfirmationBuffer in
/-- The events of a frame that reach the FSM. -/
theorem confirmed_iff {frames : List Frame} {fr : Frame} (ht : TimesOk (frames ++ [fr])) (ev : AssociationEvent) :
    ev ∈ (recordOf h (voting w) cam zones frames fr).out.confirmed ↔
      ∃ before rest, (recordOf h (voting w) cam zones frames fr).out.assoc = before ++ ev :: rest ∧
        Seconded (trace h (voting w) cam zones frames) (recordOf h (voting w) cam zones frames fr) before ev := by
  obtain ⟨hinit, hpos, hmono⟩ := timesOk_concat ht
  obtain ⟨h1, h2, h3⟩ := votes_after h w cam zones hinit
  obtain ⟨hid, -⟩ := cameraId_after h (voting w) cam zones frames
  have hround := round_le h (voting w) cam zones hmono
  have hconf : (recordOf h (voting w) cam zones frames fr).out.confirmed =
      ((frontAfter h (voting w) cam zones frames).confirmer.filter
        (recordOf h (voting w) cam zones frames fr).out.assoc cam fr.timestamp).2 := by
    simp only [recordOf, frontStep, hid]
  have hsig (e : AssociationEvent) : sig cam e = sig cam ev ↔ SameSignal e ev := by
    simp [sig, SameSignal]
  have hrtake : ((trace h (voting w) cam zones frames).map Record.round).rtake 2 =
      ((trace h (voting w) cam zones frames).rtake 2).map Record.round := by
    simp only [List.rtake, List.map_drop, List.length_map]
  rw [hconf, mem_filter_iff h1 hround (h3 (sig cam ev) rfl), h2, hrtake]
  simp only [hsig, Hit, List.mem_map, exists_exists_and_eq_and]
  exact Iff.rfl

/-! ## Speed spikes -/

/-- What the engine remembers of the speed spikes of track `k`. -/
structure SpikesOk (H : List Record) (e : AssociationEngine) (k : Int) : Prop where
  /-- A spike is not younger than `last_speed_spike_ts`, or older than a pruning. -/
  gap : ∀ r ∈ H, r.HasEvent k .speedSpike →
    (∃ st, e.persons.get? k = some st ∧ r.time ≤ st.lastSpeedSpikeTs) ∨ ∃ r' ∈ H, r.time + 5 < r'.time
  order : ∀ st, e.persons.get? k = some st → st.lastSpeedSpikeTs ≤ st.lastTs ∧ ∃ r ∈ H, st.lastTs ≤ r.time

/-- The spikes of track `k` in a frame. -/
def spikesOf (r : Record) (k : Int) : List AssociationEvent :=
  (r.out.assoc.filter (·.trackId = k)).filter isSpike

theorem hasSpike_iff {r : Record} {k : Int} : r.HasEvent k .speedSpike ↔ spikesOf r k ≠ [] := by
  simp only [Record.HasEvent, spikesOf, ne_eq, List.filter_eq_nil_iff, List.mem_filter, isSpike,
    decide_eq_true_eq, not_forall, not_not, exists_prop, and_assoc]

theorem present_recordOf {frames : List Frame} {fr : Frame} {k : Int} :
    (recordOf h w cam zones frames fr).present k = true ↔ fr.persons.filter (·.trackId = k) ≠ [] := by
  simp [Record.present, recordOf, List.filter_eq_nil_iff]

theorem absent_recordOf {frames : List Frame} {fr : Frame} {k : Int} :
    (recordOf h w cam zones frames fr).present k = false ↔ fr.persons.filter (·.trackId = k) = [] := by
  rw [← Bool.not_eq_true, present_recordOf, not_not]

section
variable {frames : List Frame} {fr : Frame} {k : Int}

/-- The spikes of a track in a frame, from its detections alone. -/
theorem spikesOf_recordOf : spikesOf (recordOf h w cam zones frames fr) k =
    (Mealy.outs (trackTurn h w (frontAfter h w cam zones frames).engine fr.items fr.timestamp)
      ((frontAfter h w cam zones frames).engine.persons.get? k)
      (fr.persons.filter (·.trackId = k))).flatten.filter isSpike :=
  congrArg (List.filter isSpike) (track_events _ _ _ k)

/-- The state of a track after a frame. -/
theorem person_after : (frontAfter h w cam zones (frames ++ [fr])).engine.persons.get? k =
    (Mealy.after (trackTurn h w (frontAfter h w cam zones frames).engine fr.items fr.timestamp)
      ((frontAfter h w cam zones frames).engine.persons.get? k) (fr.persons.filter (·.trackId = k))).filter
        fun st => !(k ∉ fr.persons.map (·.trackId) && 5 < fr.timestamp - st.lastTs) := by
  rw [frontAfter_concat]
  exact track_after fr.persons fr.items fr.timestamp k

/-- A frame without the track: its state stays, or goes when it is 5 s old. -/
theorem spikesOk_absent (hk : (recordOf h w cam zones frames fr).present k = false)
    (hok : SpikesOk (trace h w cam zones frames) (frontAfter h w cam zones frames).engine k) :
    SpikesOk (trace h w cam zones (frames ++ [fr])) (frontAfter h w cam zones (frames ++ [fr])).engine k := by
  have hps := absent_recordOf.1 hk
  have hnospike : ¬ (recordOf h w cam zones frames fr).HasEvent k .speedSpike := by
    rw [hasSpike_iff, spikesOf_recordOf, hps]
    simp
  have hget : (frontAfter h w cam zones (frames ++ [fr])).engine.persons.get? k =
      ((frontAfter h w cam zones frames).engine.persons.get? k).filter fun st =>
        !(k ∉ fr.persons.map (·.trackId) && 5 < fr.timestamp - st.lastTs) := by
    rw [person_after, hps, Mealy.after_nil]
  rw [trace_concat]
  refine ⟨fun r hr hspike => ?_, fun st hst => ?_⟩
  · rcases List.mem_append.1 hr with hr | hr
    · rcases hok.gap r hr hspike with ⟨st, hst, hle⟩ | ⟨r', hr', hgap⟩
      · by_cases hold : 5 < fr.timestamp - st.lastTs
        · -- pruned here, 5 s after the spike at least
          refine .inr ⟨recordOf h w cam zones frames fr, by simp, ?_⟩
          have := (hok.order st hst).1
          have htime : (recordOf h w cam zones frames fr).time = fr.timestamp := rfl
          rw [htime]
          linarith
        · refine .inl ⟨st, ?_, hle⟩
          rw [hget, hst, Option.filter_some, if_pos]
          simp [hold]
      · exact .inr ⟨r', List.mem_append_left _ hr', hgap⟩
    · exact absurd (List.mem_singleton.1 hr ▸ hspike) hnospike
  · rw [hget] at hst
    obtain ⟨h1, r, hr, h2⟩ := hok.order st (Option.filter_eq_some_iff.1 hst).1
    exact ⟨h1, r, List.mem_append_left _ hr, h2⟩

/-- The `last_speed_spike_ts` of a track is not in the future. -/
theorem spikeTs_le (hpos : 0 < fr.timestamp) (hmono : ∀ fr' ∈ frames, fr'.timestamp ≤ fr.timestamp)
    (hok : SpikesOk (trace h w cam zones frames) (frontAfter h w cam zones frames).engine k) :
    spikeTs ((frontAfter h w cam zones frames).engine.persons.get? k) ≤ fr.timestamp := by
  cases hst : (frontAfter h w cam zones frames).engine.persons.get? k with
  | none => exact hpos.le
  | some st =>
    obtain ⟨h1, r, hr, h2⟩ := hok.order st hst
    exact h1.trans (h2.trans (trace_le h w cam zones hmono r hr))

/-- A frame with the track. -/
theorem spikesOk_present (hpos : 0 < fr.timestamp) (hmono : ∀ fr' ∈ frames, fr'.timestamp ≤ fr.timestamp)
    (hk : (recordOf h w cam zones frames fr).present k = true)
    (hok : SpikesOk (trace h w cam zones frames) (frontAfter h w cam zones frames).engine k) :
    SpikesOk (trace h w cam zones (frames ++ [fr])) (frontAfter h w cam zones (frames ++ [fr])).engine k := by
  have hseen : k ∈ fr.persons.map (·.trackId) := by simpa [Record.present, recordOf] using hk
  have hold := spikeTs_le hpos hmono hok
  have hspikes : spikesOf (recordOf h w cam zones frames fr) k = _ := spikesOf_recordOf
  have hget : (frontAfter h w cam zones (frames ++ [fr])).engine.persons.get? k = _ := person_after
  set o := (frontAfter h w cam zones frames).engine.persons.get? k with ho
  obtain ⟨st', hst', hts⟩ := lastTs_after (h := h) (w := w) (e := (frontAfter h w cam zones frames).engine) o
    fr.items fr.timestamp (present_recordOf.1 hk)
  rw [hst', Option.filter_some, if_pos (by simp [hseen])] at hget
  have hlast : spikeTs (some st') = st'.lastSpeedSpikeTs := rfl
  have hframe := frame_spikes (h := h) (w := w) (e := (frontAfter h w cam zones frames).engine) o fr.items
    fr.timestamp (fr.persons.filter (·.trackId = k))
  rw [← hspikes, hst', hlast] at hframe
  -- with or without a spike, `last_speed_spike_ts` does not go back
  have hnew : spikeTs o ≤ st'.lastSpeedSpikeTs ∧ st'.lastSpeedSpikeTs ≤ fr.timestamp := by
    rcases hframe with ⟨-, heq⟩ | ⟨ev, -, -, heq⟩
    · exact ⟨heq.ge, heq.le.trans hold⟩
    · exact ⟨hold.trans heq.ge, heq.le⟩
  rw [trace_concat]
  refine ⟨fun r hr hspike => ?_, fun st hst => ?_⟩
  · rcases List.mem_append.1 hr with hr | hr
    · rcases hok.gap r hr hspike with ⟨st, hst, hle'⟩ | ⟨r', hr', hgap⟩
      · have hts' : spikeTs o = st.lastSpeedSpikeTs := by rw [ho, hst]; rfl
        exact .inl ⟨st', hget, by linarith [hnew.1]⟩
      · exact .inr ⟨r', List.mem_append_left _ hr', hgap⟩
    · obtain rfl := List.mem_singleton.1 hr
      rcases hframe with ⟨hnone, -⟩ | ⟨ev, -, -, heq⟩
      · exact absurd hnone (hasSpike_iff.1 hspike)
      · exact .inl ⟨st', hget, heq.ge⟩
  · rw [hget] at hst
    cases hst
    exact ⟨hts ▸ hnew.2, recordOf h w cam zones frames fr, by simp, hts.le⟩

theorem spikesOk_after (h : Host) (w : Settings) (cam : String) (zones : List ZoneConfig) (ht : TimesOk frames)
    (k : Int) : SpikesOk (trace h w cam zones frames) (frontAfter h w cam zones frames).engine k := by
  induction frames using List.reverseRecOn with
  | nil => exact ⟨by simp [trace], by simp [frontAfter, Front.init, AssociationEngine.init]⟩
  | append_singleton frames fr ih =>
    obtain ⟨hinit, hpos, hmono⟩ := timesOk_concat ht
    cases hk : (recordOf h w cam zones frames fr).present k with
    | false => exact spikesOk_absent hk (ih hinit)
    | true => exact spikesOk_present hpos hmono hk (ih hinit)

/-- A frame has one spike of a track at most, and it is more than 2 s after every
earlier one, whether or not the state of the track was pruned in between. -/
theorem spikes_apart (h : Host) (w : Settings) (cam : String) (zones : List ZoneConfig)
    (ht : TimesOk (frames ++ [fr])) (k : Int) :
    (∃ ev, spikesOf (recordOf h w cam zones frames fr) k = [ev]) ∧
        (∀ r ∈ trace h w cam zones frames, r.HasEvent k .speedSpike → 2 < fr.timestamp - r.time) ∨
      spikesOf (recordOf h w cam zones frames fr) k = [] := by
  obtain ⟨hinit, hpos, hmono⟩ := timesOk_concat ht
  have hok := spikesOk_after h w cam zones hinit k
  have hle := trace_le h w cam zones hmono
  rw [spikesOf_recordOf]
  rcases frame_spikes (h := h) (w := w) (e := (frontAfter h w cam zones frames).engine)
    ((frontAfter h w cam zones frames).engine.persons.get? k) fr.items fr.timestamp
    (fr.persons.filter (·.trackId = k)) with ⟨hnone, -⟩ | ⟨ev, hone, hgap, -⟩
  · exact .inr hnone
  · refine .inl ⟨⟨ev, hone⟩, fun r hr hspike => ?_⟩
    rcases hok.gap r hr hspike with ⟨st, hst, hle'⟩ | ⟨r', hr', hgap'⟩
    · have hts : spikeTs ((frontAfter h w cam zones frames).engine.persons.get? k) = st.lastSpeedSpikeTs := by
        rw [hst]; rfl
      rw [hts] at hgap
      linarith
    · linarith [hle r' hr']

end

end Netra.Pipeline
