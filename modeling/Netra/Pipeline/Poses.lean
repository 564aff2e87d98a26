import Netra.Pipeline.System
/-!
# Where ShopFormer scores come from

The ShopFormer worker pushes the pose of a track at its suspicious events and hands the
window to the model when it is full. However the worker is restarted, the stream trimmed
and windows evicted: a score is the model's, of poses that were taken at different
suspicious events of the one track, in their order (`windowsOk_work`).
-/
namespace Netra.Pipeline

open PyLib RedisStream Behavior Wire

/-- The times of the suspicious events of track `k` of camera `cam`. -/
def suspectTimes (cam : String) (k : Int) (events : List BehaviorEvent) : List ℚ :=
  (events.filter fun bev => bev.suspicious ∧ bev.cameraId = cam ∧ bev.trackId = k).map (·.timestamp)

section
variable (w : Settings) (model : Model)

/-- The score is the model's, of a full window of poses that were taken at suspicious
events of the track, and it was asked for at such an event. -/
structure Scored (events : List BehaviorEvent) (sc : ShopFormerScore) : Prop where
  window : ∃ window : List Shopformer.Frame, w.shopformerSeqLen ≤ window.length ∧
    (window.map Prod.fst).Sublist (suspectTimes sc.cameraId sc.trackId events) ∧
    ∃ e emb, model.score (window.map Prod.snd) = some (sc.anomalyScore, e, emb)
  time : sc.timestamp ∈ suspectTimes sc.cameraId sc.trackId events

end

section
variable {w : Settings} {model : Model} {events : List BehaviorEvent} {cam : String} {k : Int}

theorem suspectTimes_append (events more : List BehaviorEvent) :
    suspectTimes cam k (events ++ more) = suspectTimes cam k events ++ suspectTimes cam k more := by
  rw [suspectTimes, List.filter_append, List.map_append]
  rfl

theorem suspectTimes_sublist {events events' : List BehaviorEvent} (hsub : events.Sublist events') :
    (suspectTimes cam k events).Sublist (suspectTimes cam k events') := (hsub.filter _).map _

theorem Scored.mono {sc : ShopFormerScore} (hs : Scored w model events sc) (more : List BehaviorEvent) :
    Scored w model (events ++ more) sc := by
  have hgrow : (suspectTimes sc.cameraId sc.trackId events).Sublist
      (suspectTimes sc.cameraId sc.trackId (events ++ more)) := suspectTimes_sublist (List.sublist_append_left _ _)
  obtain ⟨window, hfull, hposes, hscore⟩ := hs.window
  exact ⟨⟨window, hfull, hposes.trans hgrow, hscore⟩, hgrow.subset hs.time⟩

theorem Scored.unit {sc : ShopFormerScore} (hs : Scored w model events sc) :
    0 ≤ sc.anomalyScore ∧ sc.anomalyScore ≤ 1 := by
  obtain ⟨window, -, -, e, emb, hscore⟩ := hs.window
  exact model.unit _ _ _ _ hscore

end

/-! ## The worker -/

/-- The poses in the windows, and those still to come from the batch in hand, were taken
at different suspicious events that the worker has been given, in their order. -/
def WindowsOk (s : Group.State Shopformer.Worker BehaviorEvent) : Prop :=
  ∀ cam k, ((s.vars.poseBuffer.frames (Keys.key cam k)).map Prod.fst ++
    suspectTimes cam k (s.batch.map (·.data))).Sublist (suspectTimes cam k (s.stream.entries.take s.stream.delivered))

section
variable {w : Settings} {py : PyText} {model : Model} {cam : String} {k : Int}

theorem poseOf_time {e : Shopformer.Entry} {bev : BehaviorEvent} {x : Shopformer.Frame}
    (hx : Shopformer.poseOf py e bev = some (some x)) : x.1 = bev.timestamp := by
  unfold Shopformer.poseOf at hx
  split at hx
  · cases hx
  · split at hx
    · cases hx
    · simp only [Option.bind_eq_bind, Option.bind_eq_some_iff, Option.pure_def, Option.some.injEq] at hx
      obtain ⟨-, -, -, -, -, -, rfl⟩ := hx
      rfl

/-- A pose is pushed at a suspicious event of its track. -/
theorem suspectTimes_pose {x : Poll} {bev : BehaviorEvent} {pose : Shopformer.Frame}
    (hpose : Shopformer.poseFor py cam k (.entry (System.entryOf py model x bev)) = some pose) :
    suspectTimes cam k [bev] = [pose.1] := by
  unfold Shopformer.poseFor at hpose
  dsimp only [System.entryOf] at hpose
  rw [decode_encodeBehaviorEvent] at hpose
  simp only [Option.bind_eq_bind, Option.bind_some] at hpose
  split at hpose
  · rename_i hsuspect
    obtain ⟨o, ho, hsome⟩ := Option.bind_eq_some_iff.1 hpose
    subst hsome
    rw [poseOf_time ho]
    simp [suspectTimes, hsuspect]
  · cases hpose

/-- An entry adds at most its own pose to a window. -/
theorem windows_turn (v : Shopformer.Worker) (x : Poll) (bev : BehaviorEvent) (cam : String) (k : Int) :
    (((System.shopformerTurn w py model v x bev).1.poseBuffer.frames (Keys.key cam k)).map Prod.fst).Sublist
      ((v.poseBuffer.frames (Keys.key cam k)).map Prod.fst ++ suspectTimes cam k [bev]) := by
  unfold System.shopformerTurn
  dsimp only
  rw [Shopformer.frames_turn_entry]
  split
  · exact List.sublist_append_left _ _
  · rename_i pose hpose
    rw [suspectTimes_pose hpose, push]
    refine ((List.drop_sublist _ _).map _).trans ?_
    rw [List.map_append]
    exact .refl _

/-- A message goes out for a suspicious event whose window was handed to the model. -/
theorem sent_turn {v : Shopformer.Worker} {e : Shopformer.Entry} {bev : BehaviorEvent}
    (hbev : decodeBehaviorEvent py e.data = some bev) {m : Message}
    (hm : (Shopformer.turn w py v (.entry e)).2.sent = some m) :
    bev.suspicious = true ∧ ∃ poses a err emb,
      (Shopformer.turn w py v (.entry e)).2.scored = some (bev.cameraId, bev.trackId, poses) ∧
      e.score poses = some (a, err, emb) ∧
      m = encodeShopFormerScore py { cameraId := bev.cameraId, trackId := bev.trackId, anomalyScore := a,
                                     reconstructionError := err, embedding := emb,
                                     poseSequenceLen := poses.length, timestamp := bev.timestamp } := by
  unfold Shopformer.turn Shopformer.handle at hm ⊢
  simp only [hbev] at hm ⊢
  split at hm
  · rename_i hsuspicious
    simp only [hsuspicious, if_true, true_and]
    split at hm
    · cases hm
    · unfold Shopformer.scoreIfReady at hm ⊢
      split at hm
      · rename_i hready
        rw [if_pos hready]
        obtain ⟨⟨a, err, emb⟩, hscore, rfl⟩ := Option.map_eq_some_iff.1 hm
        exact ⟨_, a, err, emb, rfl, hscore, rfl⟩
      · cases hm
  · cases hm

/-- What is published for an entry: the model's score of the window of its track. -/
theorem score_turn {v : Shopformer.Worker} {x : Poll} {bev : BehaviorEvent} {sc : ShopFormerScore}
    (hsc : (System.shopformerTurn w py model v x bev).2 = some sc) :
    sc.timestamp ∈ suspectTimes sc.cameraId sc.trackId [bev] ∧
      ∃ window, window = (System.shopformerTurn w py model v x bev).1.poseBuffer.frames
          (Keys.key sc.cameraId sc.trackId) ∧ w.shopformerSeqLen ≤ window.length ∧
        ∃ e emb, model.score (window.map Prod.snd) = some (sc.anomalyScore, e, emb) := by
  obtain ⟨m, hm, hdecode⟩ := Option.bind_eq_some_iff.1 hsc
  have hbev : decodeBehaviorEvent py (System.entryOf py model x bev).data = _ := decode_encodeBehaviorEvent py bev
  obtain ⟨hsuspicious, poses, a, err, emb, hscored, hscore, rfl⟩ := sent_turn hbev hm
  rw [decode_encodeShopFormerScore] at hdecode
  obtain rfl := Option.some.inj hdecode
  obtain ⟨hposes, hfull⟩ := Shopformer.scored_turn hscored
  refine ⟨?_, _, rfl, hfull, err, emb, ?_⟩
  · have hmem : bev.suspicious = true := hsuspicious
    simp [suspectTimes, hmem]
  · dsimp only [System.shopformerTurn]
    rw [← hposes]
    exact hscore

theorem windowsOk_restart (s : Group.State Shopformer.Worker BehaviorEvent) (now : ℚ) :
    WindowsOk { s with vars := .start now, batch := [] } := fun _ _ => List.nil_sublist _

theorem WindowsOk.addAll {s : Group.State Shopformer.Worker BehaviorEvent} (hs : WindowsOk s)
    (events : List BehaviorEvent) : WindowsOk { s with stream := s.stream.addAll events } := by
  intro cam k
  dsimp only
  rw [Stream.entries_addAll, Stream.delivered_addAll, List.take_append_of_le_length s.stream.le]
  exact hs cam k

theorem WindowsOk.trim {s : Group.State Shopformer.Worker BehaviorEvent} (hs : WindowsOk s) (maxLen cut : Nat) :
    WindowsOk { s with stream := s.stream.trim maxLen cut } := by
  intro cam k
  refine (hs cam k).trans (suspectTimes_sublist ?_)
  exact (List.take_prefix_take_left (Nat.le_max_left _ _)).sublist

/-- A move of the ShopFormer worker publishes only scores of windows of suspicious events. -/
theorem windowsOk_work {s : Group.State Shopformer.Worker BehaviorEvent} (hs : WindowsOk s) (x : Poll) :
    WindowsOk (System.shopformerWork w py model x s).1 ∧
      (System.shopformerWork w py model x s).1.stream.entries = s.stream.entries ∧
      ∀ sc ∈ (System.shopformerWork w py model x s).2, Scored w model s.stream.entries sc := by
  unfold System.shopformerWork
  split
  · -- an empty poll evicts windows
    refine ⟨fun cam k => ?_, rfl, fun sc hsc => by cases hsc⟩
    dsimp only
    rw [Shopformer.frames_turn_idle]
    split
    · exact (List.sublist_append_right _ _).trans (hs cam k)
    · exact hs cam k
  · dsimp only
    rcases Group.work_cases (System.shopformerGroup w py model x.now) x s with ⟨hb, hw⟩ | ⟨e, batch, hb, hw⟩
    · rw [hw]
      refine ⟨fun cam k => ?_, rfl, fun sc hsc => by cases hsc⟩
      have hold := hs cam k
      rw [hb, List.map_nil, show suspectTimes cam k [] = [] from rfl, List.append_nil] at hold
      have hgiven := Stream.take_read s.stream (System.shopformerGroup w py model x.now).count
      dsimp only
      rw [show ((s.stream.read (System.shopformerGroup w py model x.now).count).1).entries = s.stream.entries from rfl,
        hgiven, suspectTimes_append]
      exact hold.append (.refl _)
    · rw [hw]
      have hmoved (cam : String) (k : Int) :
          (((System.shopformerTurn w py model s.vars x e.data).1.poseBuffer.frames (Keys.key cam k)).map Prod.fst ++
            suspectTimes cam k (batch.map (·.data))).Sublist
              (suspectTimes cam k (s.stream.entries.take s.stream.delivered)) := by
        have hold := hs cam k
        rw [hb, List.map_cons, ← List.singleton_append, suspectTimes_append, ← List.append_assoc] at hold
        exact ((windows_turn s.vars x e.data cam k).append (.refl _)).trans hold
      refine ⟨hmoved, rfl, fun sc hsc => ?_⟩
      have hsc' : (System.shopformerTurn w py model s.vars x e.data).2 = some sc := hsc
      obtain ⟨htime, window, rfl, hfull, hscore⟩ := score_turn hsc'
      have hgiven : (suspectTimes sc.cameraId sc.trackId (s.stream.entries.take s.stream.delivered)).Sublist
          (suspectTimes sc.cameraId sc.trackId s.stream.entries) := suspectTimes_sublist (List.take_sublist _ _)
      refine ⟨⟨_, hfull, ((List.sublist_append_left _ _).trans (hmoved _ _)).trans hgiven, hscore⟩, ?_⟩
      -- the event was in hand
      have hold := hs sc.cameraId sc.trackId
      rw [hb, List.map_cons, ← List.singleton_append, suspectTimes_append] at hold
      exact hgiven.subset (hold.subset (List.mem_append_right _ (List.mem_append_left _ htime)))

end

end Netra.Pipeline
