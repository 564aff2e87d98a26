import Netra.Pipeline.Trace
/-!
# Edge-triggered evidence and the majority vote

The engine emits `ZONE_EXIT` once for a transition and `SPEED_SPIKE` at most
every 2 s; the vote wants two events of a track and type within three frames and
half a second. A speed spike never gets through (`no_spike_signal`). An exit
gets through when it is seconded by another exit of the track, and alarms when
the FSM still knows of a concealment (`exit_signal_iff`).
`evidence_survives_iff` is the exact condition on a run.
-/
namespace Netra.Pipeline

open PyLib Association Behavior

variable {h : Host} {w : Settings} {cam : String} {zones : List ZoneConfig}

/-! ## Speed spikes never get through -/

section
variable {frames : List Frame} {fr : Frame} {k : Int}

theorem spike_not_confirmed (ht : TimesOk (frames ++ [fr])) {ev : AssociationEvent}
    (hev : ev ∈ (recordOf h (voting w) cam zones frames fr).out.confirmed) : ev.eventType ≠ .speedSpike := by
  intro hty
  obtain ⟨before, rest, hassoc, hsec⟩ := (confirmed_iff ht ev).1 hev
  have hself : spikesOf (recordOf h (voting w) cam zones frames fr) ev.trackId =
      (before.filter (·.trackId = ev.trackId)).filter isSpike ++
        ev :: (rest.filter (·.trackId = ev.trackId)).filter isSpike := by
    rw [spikesOf, hassoc]
    simp [isSpike, hty]
  rcases spikes_apart h (voting w) cam zones ht ev.trackId with ⟨⟨x, hone⟩, hgap⟩ | hnone
  · -- a second spike would be in the same frame, or in one less than 2 s before
    rcases hsec with ⟨e, he, hk, hety⟩ | ⟨r, hr, ⟨e, he, hk, hety⟩, hyoung⟩
    · have hbefore : e ∈ (before.filter (·.trackId = ev.trackId)).filter isSpike := by
        simp [he, hk, isSpike, hety, hty]
      have hpos := List.length_pos_of_mem hbefore
      have hlen := congrArg List.length (hone.symm.trans hself)
      simp only [List.length_append, List.length_cons, List.length_nil] at hlen
      omega
    · have htime : (recordOf h (voting w) cam zones frames fr).time = fr.timestamp := rfl
      have := hgap r (mem_of_mem_rtake hr) ⟨e, he, hk, hety.trans hty⟩
      linarith
  · rw [hnone] at hself
    simp at hself

theorem behavior_recordOf : (recordOf h w cam zones frames fr).out.behavior =
    (TheftRiskFSM.step h w (frontAfter h w cam zones frames).fsm (recordOf h w cam zones frames fr).call).2 := rfl

theorem hasSignal_iff {sigs : List String} : (recordOf h w cam zones frames fr).HasSignal k sigs ↔
    TheftRiskFSM.Signals (Mealy.outs (TheftRiskFSM.trackTurn h w cam fr.timestamp)
      ((frontAfter h w cam zones frames).fsm.tracks.get? k)
      (TheftRiskFSM.trackUpdates (recordOf h w cam zones frames fr).call k)).flatten sigs := by
  have hev := TheftRiskFSM.track_events (h := h) (w := w) (frontAfter h w cam zones frames).fsm
    (recordOf h w cam zones frames fr).call k
  rw [(cameraId_after h w cam zones frames).2] at hev
  have htime : (recordOf h w cam zones frames fr).call.timestamp = fr.timestamp := rfl
  rw [htime, ← behavior_recordOf] at hev
  rw [← hev]
  simp only [Record.HasSignal, TheftRiskFSM.Signals, TheftRiskFSM.names, List.mem_filter, List.mem_map,
    decide_eq_true_eq, and_assoc, exists_exists_and_eq_and]

/-- The FSM of a camera never emits `SPEED_SPIKE`. -/
theorem no_spike_signal (ht : TimesOk (frames ++ [fr])) :
    ¬ (recordOf h (voting w) cam zones frames fr).HasSignal k ["SPEED_SPIKE"] := by
  rw [hasSignal_iff]
  intro hs
  have hty := TheftRiskFSM.spike_after _ TheftRiskFSM.trackUpdates_assoc hs
  simp only [TheftRiskFSM.hasType, TheftRiskFSM.assocOf, List.any_eq_true, List.mem_filter,
    decide_eq_true_eq] at hty
  obtain ⟨ev, ⟨hev, -⟩, hty⟩ := hty
  exact spike_not_confirmed ht hev hty

/-! ## What the FSM remembers -/

/-- The FSM keeps the context of track `k` from record `x` through the records
`G`: whenever the track is missing, it was there in the 10 s before. -/
def Kept (x : Record) (G : List Record) (k : Int) : Prop :=
  ∀ A j B, G = A ++ j :: B → j.present k = false → ∃ i ∈ x :: A, i.present k = true ∧ j.time - i.time ≤ 10

/-- A concealment of track `k` in the records `H` is not forgotten yet. -/
def Concealed (H : List Record) (k : Int) : Prop :=
  ∃ G x G', H = G ++ x :: G' ∧ x.HasSignal k TheftRiskFSM.handTo ∧ Kept x G' k

theorem kept_concat {x z : Record} {G : List Record} : Kept x (G ++ [z]) k ↔
    Kept x G k ∧ (z.present k = false → ∃ i ∈ x :: G, i.present k = true ∧ z.time - i.time ≤ 10) := by
  constructor
  · intro hk
    refine ⟨fun A j B he => hk A j (B ++ [z]) (by simp [he]), hk G z [] rfl⟩
  · rintro ⟨hk, hz⟩ A j B he habs
    rcases Mealy.split_concat.1 he with ⟨rfl, rfl, -⟩ | ⟨B', -, rfl⟩
    · exact hz habs
    · exact hk A j B' rfl habs

theorem concealed_concat {H : List Record} {z : Record} : Concealed (H ++ [z]) k ↔
    z.HasSignal k TheftRiskFSM.handTo ∨
      ∃ G x G', H = G ++ x :: G' ∧ x.HasSignal k TheftRiskFSM.handTo ∧ Kept x G' k ∧
        (z.present k = false → ∃ i ∈ x :: G', i.present k = true ∧ z.time - i.time ≤ 10) := by
  constructor
  · rintro ⟨G, x, G', he, hx, hk⟩
    rcases Mealy.split_concat.1 he with ⟨rfl, rfl, rfl⟩ | ⟨G'', rfl, rfl⟩
    · exact .inl hx
    · exact .inr ⟨G, x, G'', rfl, hx, kept_concat.1 hk⟩
  · rintro (hz | ⟨G, x, G', rfl, hx, hk⟩)
    · exact ⟨H, z, [], rfl, hz, fun A j B he => by simp at he⟩
    · exact ⟨G, x, G' ++ [z], by simp, hx, kept_concat.2 hk⟩

/-- What the context of track `k` says about the records so far. -/
structure FsmOk (H : List Record) (fsm : TheftRiskFSM) (k : Int) : Prop where
  conceal : 0 < TheftRiskFSM.concealOf (fsm.tracks.get? k) ↔ Concealed H k
  newest : ∀ ctx, fsm.tracks.get? k = some ctx → ∀ r ∈ H, r.present k = true → r.time ≤ ctx.lastTs
  seen : ∀ ctx, fsm.tracks.get? k = some ctx → ∀ G x G', H = G ++ x :: G' → x.present k = true →
    ∃ i ∈ x :: G', i.present k = true ∧ i.time = ctx.lastTs

theorem trackUpdates_eq_nil : TheftRiskFSM.trackUpdates (recordOf h w cam zones frames fr).call k = [] ↔
    (recordOf h w cam zones frames fr).present k = false := by
  rw [absent_recordOf, TheftRiskFSM.trackUpdates, List.map_eq_nil_iff]
  rfl

/-- Only a track that is present gets signals. -/
theorem present_of_hasSignal {sigs : List String} (hs : (recordOf h w cam zones frames fr).HasSignal k sigs) :
    (recordOf h w cam zones frames fr).present k = true := by
  by_contra hk
  rw [Bool.not_eq_true, ← trackUpdates_eq_nil] at hk
  rw [hasSignal_iff, hk] at hs
  simp [TheftRiskFSM.Signals] at hs

theorem dropped_recordOf {ctx : TrackContext} :
    TheftRiskFSM.dropped (recordOf h w cam zones frames fr).call k ctx = true ↔
      (recordOf h w cam zones frames fr).present k = false ∧ 10 < fr.timestamp - ctx.lastTs := by
  rw [TheftRiskFSM.dropped, Bool.and_eq_true, decide_eq_true_iff, decide_eq_true_iff, Record.present,
    decide_eq_false_iff_not]
  exact Iff.rfl

/-- The context of a track after a frame. -/
theorem context_after : (frontAfter h w cam zones (frames ++ [fr])).fsm.tracks.get? k =
    (Mealy.after (TheftRiskFSM.trackTurn h w cam fr.timestamp)
      ((frontAfter h w cam zones frames).fsm.tracks.get? k)
      (TheftRiskFSM.trackUpdates (recordOf h w cam zones frames fr).call k)).filter
      (!TheftRiskFSM.dropped (recordOf h w cam zones frames fr).call k ·) := by
  have hafter := TheftRiskFSM.track_after (h := h) (w := w) (frontAfter h w cam zones frames).fsm
    (recordOf h w cam zones frames fr).call k
  rw [(cameraId_after h w cam zones frames).2] at hafter
  rw [frontAfter_concat]
  exact hafter

theorem fsmOk_present (hpos : 0 < fr.timestamp) (hmono : ∀ fr' ∈ frames, fr'.timestamp ≤ fr.timestamp)
    (hk : (recordOf h w cam zones frames fr).present k = true)
    (hok : FsmOk (trace h w cam zones frames) (frontAfter h w cam zones frames).fsm k) :
    FsmOk (trace h w cam zones (frames ++ [fr])) (frontAfter h w cam zones (frames ++ [fr])).fsm k := by
  have hne : TheftRiskFSM.trackUpdates (recordOf h w cam zones frames fr).call k ≠ [] := by
    intro hnil
    rw [trackUpdates_eq_nil.1 hnil] at hk
    cases hk
  have hconceal := TheftRiskFSM.concealOf_after h w cam hpos
    ((frontAfter h w cam zones frames).fsm.tracks.get? k)
    (TheftRiskFSM.trackUpdates_assoc (k := k) (c := (recordOf h w cam zones frames fr).call))
  rw [← hasSignal_iff, hok.conceal] at hconceal
  obtain ⟨ctx', hctx', hts⟩ := TheftRiskFSM.lastTs_after h w cam fr.timestamp
    ((frontAfter h w cam zones frames).fsm.tracks.get? k) hne
  have hget : (frontAfter h w cam zones (frames ++ [fr])).fsm.tracks.get? k = some ctx' := by
    rw [context_after, hctx', Option.filter_some, if_pos]
    simp only [Bool.not_eq_true', ← Bool.not_eq_true, dropped_recordOf, hk]
    simp
  rw [hctx'] at hconceal
  rw [trace_concat]
  refine ⟨?_, ?_, ?_⟩
  · rw [hget, hconceal, concealed_concat]
    constructor
    · rintro (⟨G, x, G', he, hx, hkept⟩ | hz)
      · exact .inr ⟨G, x, G', he, hx, hkept, fun habs => by rw [hk] at habs; cases habs⟩
      · exact .inl hz
    · rintro (hz | ⟨G, x, G', he, hx, hkept, -⟩)
      · exact .inr hz
      · exact .inl ⟨G, x, G', he, hx, hkept⟩
  · rw [hget]
    rintro ctx ⟨⟩ r hr -
    rw [hts]
    rcases List.mem_append.1 hr with hr | hr
    · exact trace_le _ _ _ _ hmono r hr
    · rw [List.mem_singleton.1 hr]
      exact le_refl _
  · rw [hget]
    rintro ctx ⟨⟩ G x G' he hx
    refine ⟨recordOf h w cam zones frames fr, ?_, hk, hts.symm⟩
    rcases Mealy.split_concat.1 he with ⟨-, rfl, -⟩ | ⟨G'', rfl, -⟩
    · exact List.mem_cons_self
    · simp

/-- A frame without the track: a concealment is forgotten with the context. -/
theorem conceal_absent (hk : (recordOf h w cam zones frames fr).present k = false)
    (hok : FsmOk (trace h w cam zones frames) (frontAfter h w cam zones frames).fsm k) :
    0 < TheftRiskFSM.concealOf (((frontAfter h w cam zones frames).fsm.tracks.get? k).filter
        (!TheftRiskFSM.dropped (recordOf h w cam zones frames fr).call k ·)) ↔
      Concealed (trace h w cam zones frames ++ [recordOf h w cam zones frames fr]) k := by
  have hnosig : ¬ (recordOf h w cam zones frames fr).HasSignal k TheftRiskFSM.handTo := by
    intro hs
    rw [present_of_hasSignal hs] at hk
    cases hk
  have htime : (recordOf h w cam zones frames fr).time = fr.timestamp := rfl
  have hiff := hok.conceal
  rw [concealed_concat, or_iff_right hnosig, htime]
  cases hst : (frontAfter h w cam zones frames).fsm.tracks.get? k with
  | none =>
    rw [hst] at hiff
    constructor
    · intro hpos
      exact absurd hpos (lt_irrefl 0)
    · rintro ⟨G, x, G', he, hx, hkept, -⟩
      exact hiff.2 ⟨G, x, G', he, hx, hkept⟩
  | some ctx =>
    rw [hst] at hiff
    by_cases hold : 10 < fr.timestamp - ctx.lastTs
    · -- the context goes, and so does every concealment it knew of
      have hdrop : TheftRiskFSM.dropped (recordOf h w cam zones frames fr).call k ctx = true :=
        dropped_recordOf.2 ⟨hk, hold⟩
      rw [Option.filter_some, if_neg (by simp [hdrop])]
      constructor
      · intro hpos
        exact absurd hpos (lt_irrefl 0)
      · rintro ⟨G, x, G', he, hx, hkept, hz⟩
        obtain ⟨i, hi, hpres, hyoung⟩ := hz hk
        have hmem : i ∈ trace h w cam zones frames := he ▸ List.mem_append_right _ hi
        have := hok.newest ctx hst i hmem hpres
        linarith
    · have hkeep : TheftRiskFSM.dropped (recordOf h w cam zones frames fr).call k ctx = false := by
        rw [← Bool.not_eq_true, dropped_recordOf]
        exact fun hd => hold hd.2
      rw [Option.filter_some, if_pos (by simp [hkeep]), hiff]
      constructor
      · rintro ⟨G, x, G', he, hx, hkept⟩
        refine ⟨G, x, G', he, hx, hkept, fun _ => ?_⟩
        obtain ⟨pre, fr', post, -, rfl, rfl⟩ := trace_split he
        obtain ⟨i, hi, hpres, hlast⟩ := hok.seen ctx hst _ _ _ he (present_of_hasSignal hx)
        exact ⟨i, hi, hpres, by rw [hlast]; exact not_lt.1 hold⟩
      · rintro ⟨G, x, G', he, hx, hkept, -⟩
        exact ⟨G, x, G', he, hx, hkept⟩

theorem fsmOk_absent (hk : (recordOf h w cam zones frames fr).present k = false)
    (hok : FsmOk (trace h w cam zones frames) (frontAfter h w cam zones frames).fsm k) :
    FsmOk (trace h w cam zones (frames ++ [fr])) (frontAfter h w cam zones (frames ++ [fr])).fsm k := by
  have hget : (frontAfter h w cam zones (frames ++ [fr])).fsm.tracks.get? k =
      ((frontAfter h w cam zones frames).fsm.tracks.get? k).filter
        (!TheftRiskFSM.dropped (recordOf h w cam zones frames fr).call k ·) := by
    rw [context_after, trackUpdates_eq_nil.2 hk, Mealy.after_nil]
  rw [trace_concat]
  refine ⟨?_, ?_, ?_⟩
  · rw [hget]
    exact conceal_absent hk hok
  · intro ctx hctx r hr hpres
    rw [hget] at hctx
    rcases List.mem_append.1 hr with hr | hr
    · exact hok.newest ctx (Option.filter_eq_some_iff.1 hctx).1 r hr hpres
    · rw [List.mem_singleton.1 hr, hk] at hpres
      cases hpres
  · intro ctx hctx G x G' he hx
    rw [hget] at hctx
    rcases Mealy.split_concat.1 he with ⟨-, rfl, -⟩ | ⟨G'', rfl, he'⟩
    · rw [hk] at hx
      cases hx
    · obtain ⟨i, hi, hrest⟩ := hok.seen ctx (Option.filter_eq_some_iff.1 hctx).1 G x G'' he' hx
      refine ⟨i, ?_, hrest⟩
      rw [← List.cons_append]
      exact List.mem_append_left _ hi

theorem fsmOk_after (h : Host) (w : Settings) (cam : String) (zones : List ZoneConfig) (ht : TimesOk frames)
    (k : Int) : FsmOk (trace h w cam zones frames) (frontAfter h w cam zones frames).fsm k := by
  induction frames using List.reverseRecOn with
  | nil =>
    refine ⟨?_, by simp [frontAfter, Front.init], by simp [frontAfter, Front.init]⟩
    constructor
    · intro hpos
      exact absurd hpos (lt_irrefl 0)
    · rintro ⟨G, x, G', he, -⟩
      simp [trace] at he
  | append_singleton frames fr ih =>
    obtain ⟨hinit, hpos, hmono⟩ := timesOk_concat ht
    cases hk : (recordOf h w cam zones frames fr).present k with
    | false => exact fsmOk_absent hk (ih hinit)
    | true => exact fsmOk_present hpos hmono hk (ih hinit)

/-! ## Exits -/

/-- An exit of track `k` in frame `z` that is seconded. -/
def SecondedExit (H : List Record) (z : Record) (k : Int) : Prop :=
  ∃ before ev rest, z.out.assoc = before ++ ev :: rest ∧ ev.trackId = k ∧ TheftRiskFSM.isExit ev = true ∧
    Seconded H z before ev

/-- When the FSM raises the exit alarm. -/
theorem exit_signal_iff (ht : TimesOk (frames ++ [fr])) :
    (recordOf h (voting w) cam zones frames fr).HasSignal k ["EXIT_AFTER_CONCEALMENT"] ↔
      SecondedExit (trace h (voting w) cam zones frames) (recordOf h (voting w) cam zones frames fr) k ∧
        ((recordOf h (voting w) cam zones frames fr).HasSignal k TheftRiskFSM.handTo ∨
          Concealed (trace h (voting w) cam zones frames) k) := by
  obtain ⟨hinit, hpos, -⟩ := timesOk_concat ht
  have hok := fsmOk_after h (voting w) cam zones hinit k
  have hassoc := TheftRiskFSM.trackUpdates_assoc (k := k) (c := (recordOf h (voting w) cam zones frames fr).call)
  rw [hasSignal_iff, TheftRiskFSM.exit_after hpos _ hassoc, TheftRiskFSM.concealOf_after _ _ _ hpos _ hassoc,
    ← hasSignal_iff, hok.conceal, or_comm]
  constructor
  · rintro ⟨-, ⟨ev, hev, hexit⟩, hcon⟩
    obtain ⟨hconf, hk⟩ := List.mem_filter.1 hev
    obtain ⟨before, rest, he, hsec⟩ := (confirmed_iff ht ev).1 hconf
    exact ⟨⟨before, ev, rest, he, by simpa using hk, hexit, hsec⟩, hcon⟩
  · rintro ⟨⟨before, ev, rest, he, hk, hexit, hsec⟩, hcon⟩
    refine ⟨?_, ⟨ev, ?_, hexit⟩, hcon⟩
    · -- the event comes from a detection of the track
      intro hnil
      have habs := absent_recordOf.1 (trackUpdates_eq_nil.1 hnil)
      have hevents : (recordOf h (voting w) cam zones frames fr).out.assoc.filter (·.trackId = k) = _ :=
        Association.track_events _ _ _ k
      rw [habs] at hevents
      have hmem : ev ∈ (recordOf h (voting w) cam zones frames fr).out.assoc.filter (·.trackId = k) := by
        simp [he, hk]
      rw [hevents] at hmem
      simp at hmem
    · exact List.mem_filter.2 ⟨(confirmed_iff ht ev).2 ⟨before, rest, he, hsec⟩, by simpa using hk⟩

end

/-! ## Whole runs -/

/-- Track `k` concealed, left the exit zone later, and was there for three more frames. -/
def ExitDue (T : List Record) (k : Int) : Prop :=
  ∃ A x B z C, T = A ++ x :: B ++ z :: C ∧ x.HasSignal k TheftRiskFSM.handTo ∧ z.HasExit k ∧
    3 ≤ C.countP (Record.present k)

/-- The engine saw a speed spike of track `k`, which was there for three more frames. -/
def SpikeDue (T : List Record) (k : Int) : Prop :=
  ∃ A z C, T = A ++ z :: C ∧ z.HasEvent k .speedSpike ∧ 3 ≤ C.countP (Record.present k)

/-- The evidence about track `k` reaches the outputs of the FSM. -/
def EvidenceSurvives (T : List Record) (k : Int) : Prop :=
  (ExitDue T k → ∃ z ∈ T, z.HasSignal k ["EXIT_AFTER_CONCEALMENT"]) ∧
    (SpikeDue T k → ∃ z ∈ T, z.HasSignal k ["SPEED_SPIKE"])

/-- Some exit of track `k` is seconded while a concealment is still known. -/
def ExitSeconded (T : List Record) (k : Int) : Prop :=
  ∃ H z C, T = H ++ z :: C ∧ SecondedExit H z k ∧ (z.HasSignal k TheftRiskFSM.handTo ∨ Concealed H k)

theorem exit_heard_iff {frames : List Frame} (ht : TimesOk frames) (k : Int) :
    (∃ z ∈ trace h (voting w) cam zones frames, z.HasSignal k ["EXIT_AFTER_CONCEALMENT"]) ↔
      ExitSeconded (trace h (voting w) cam zones frames) k := by
  constructor
  · rintro ⟨z, hz, hs⟩
    obtain ⟨H, C, he⟩ := List.append_of_mem hz
    obtain ⟨pre, fr, post, rfl, rfl, rfl⟩ := trace_split he
    rw [List.append_cons] at ht
    exact ⟨_, _, C, he, (exit_signal_iff (timesOk_left ht)).1 hs⟩
  · rintro ⟨H, z, C, he, hs⟩
    obtain ⟨pre, fr, post, rfl, rfl, rfl⟩ := trace_split he
    rw [List.append_cons] at ht
    exact ⟨_, he ▸ by simp, (exit_signal_iff (timesOk_left ht)).2 hs⟩

theorem spike_never_heard {frames : List Frame} (ht : TimesOk frames) (k : Int) :
    ¬ ∃ z ∈ trace h (voting w) cam zones frames, z.HasSignal k ["SPEED_SPIKE"] := by
  rintro ⟨z, hz, hs⟩
  obtain ⟨H, C, he⟩ := List.append_of_mem hz
  obtain ⟨pre, fr, post, rfl, rfl, rfl⟩ := trace_split he
  rw [List.append_cons] at ht
  exact no_spike_signal (timesOk_left ht) hs

/-- The evidence about every track survives in a run exactly when every exit that
is due is seconded, and no speed spike is due. -/
theorem evidence_survives_iff (h : Host) (w : Settings) (cam : String) (zones : List ZoneConfig)
    (frames : List Frame) (ht : TimesOk frames) :
    (∀ k, EvidenceSurvives (trace h (voting w) cam zones frames) k) ↔
      ∀ k, (ExitDue (trace h (voting w) cam zones frames) k →
          ExitSeconded (trace h (voting w) cam zones frames) k) ∧
        ¬ SpikeDue (trace h (voting w) cam zones frames) k := by
  refine forall_congr' fun k => ?_
  rw [EvidenceSurvives, exit_heard_iff ht]
  refine and_congr_right fun _ => ?_
  exact ⟨fun hs hdue => spike_never_heard ht k (hs hdue), fun hno hdue => absurd hdue hno⟩

/-! ## A thief who leaves once -/

/-- A square that is left by walking right. -/
def exitZone : ZoneConfig := { name := "exit_zone", polygon := [(0, 0), (0, 400), (200, 400), (200, 0)] }

/-- Track 1 at `x`, with the given keypoints and items in view. -/
def thiefFrame (x t : ℚ) (keypoints : List Keypoint) (items : List ItemDetection) : Frame where
  persons := [{ trackId := 1, cameraId := "cam-01", bbox := ⟨x - 20, 100, x + 20, 300⟩, confidence := 1,
                keypoints, timestamp := t }]
  items
  timestamp := t

/-- A hand at the hip. -/
def handAtHip : List Keypoint :=
  List.replicate 9 ⟨0, 0, 0⟩ ++ [⟨105, 200, 1⟩, ⟨130, 200, 1⟩, ⟨100, 200, 1⟩, ⟨100, 200, 1⟩]

def shelfItem (t : ℚ) : ItemDetection :=
  { itemId := 0, cameraId := "cam-01", bbox := ⟨90, 150, 110, 170⟩, className := "bottle", confidence := 1,
    timestamp := t }

/-- An item vanishes for two frames, a hand goes to the hip, and the track leaves. -/
def theft : List Frame := [thiefFrame 100 1000 [] [shelfItem 1000], thiefFrame 100 1000.1 [] [],
  thiefFrame 100 1000.2 handAtHip []]

def leaving : List Frame :=
  [thiefFrame 300 1000.4 [] [], thiefFrame 300 1000.5 [] [], thiefFrame 300 1000.6 [] []]

/-- The whole run: the exit is the fourth frame. -/
def oneExit : List Frame := theft ++ thiefFrame 300 1000.3 [] [] :: leaving

theorem oneExit_times : TimesOk oneExit := by
  constructor
  · intro fr hfr
    simp only [oneExit, theft, leaving, List.cons_append, List.nil_append, List.mem_cons, List.not_mem_nil,
      or_false] at hfr
    rcases hfr with rfl | rfl | rfl | rfl | rfl | rfl | rfl
    all_goals norm_num [thiefFrame]
  · simp only [oneExit, theft, leaving, List.cons_append, List.nil_append, List.pairwise_cons, thiefFrame]
    norm_num

/-- The condition at that run. -/
theorem evidence_survives_iff_oneExit :
    (∀ k, EvidenceSurvives (trace .reference (voting .default) "cam-01" [exitZone] oneExit) k) ↔
      ∀ k, (ExitDue (trace .reference (voting .default) "cam-01" [exitZone] oneExit) k →
          ExitSeconded (trace .reference (voting .default) "cam-01" [exitZone] oneExit) k) ∧
        ¬ SpikeDue (trace .reference (voting .default) "cam-01" [exitZone] oneExit) k :=
  evidence_survives_iff .reference .default "cam-01" [exitZone] oneExit oneExit_times

theorem oneExit_due : ExitDue (trace .reference (voting .default) "cam-01" [exitZone] oneExit) 1 := by
  obtain ⟨R, hR, hframes⟩ := trace_append .reference (voting .default) "cam-01" [exitZone] theft
    (thiefFrame 300 1000.3 [] []) leaving
  have htheft : theft = theft.take 2 ++ [thiefFrame 100 1000.2 handAtHip []] := rfl
  refine ⟨trace .reference (voting .default) "cam-01" [exitZone] (theft.take 2),
    recordOf .reference (voting .default) "cam-01" [exitZone] (theft.take 2)
      (thiefFrame 100 1000.2 handAtHip []), [],
    recordOf .reference (voting .default) "cam-01" [exitZone] theft (thiefFrame 300 1000.3 [] []), R,
    ?_, ?_, ?_, ?_⟩
  · rw [oneExit, hR, ← trace_concat, ← htheft]
  · decide +kernel
  · decide +kernel
  · have hcount : R.countP (Record.present 1) =
        leaving.countP fun fr => decide (1 ∈ fr.persons.map (·.trackId)) := by
      rw [← hframes, List.countP_map]
      rfl
    rw [hcount]
    decide

theorem oneExit_silent : ∀ z ∈ trace .reference (voting .default) "cam-01" [exitZone] oneExit,
    ¬ z.HasSignal 1 ["EXIT_AFTER_CONCEALMENT"] := by
  decide +kernel

/-- The thief's only exit raises no alarm. -/
theorem evidence_survives_fails :
    ¬ ∀ (h : Host) (w : Settings) (cam : String) (zones : List ZoneConfig) (frames : List Frame),
      TimesOk frames → ∀ k, EvidenceSurvives (trace h (voting w) cam zones frames) k := by
  intro hall
  obtain ⟨z, hz, hs⟩ := (hall .reference .default "cam-01" [exitZone] oneExit oneExit_times 1).1 oneExit_due
  exact oneExit_silent z hz hs

end Netra.Pipeline
