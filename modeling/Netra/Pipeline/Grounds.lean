import Netra.Pipeline.Goods
import Netra.Pipeline.Poses
/-!
# No incident without grounds

Whatever the order in which frames come in and the services move, are restarted and
have their streams trimmed, an incident rests on two things (`incidents_grounded`): a
frame that shows the track at goods, and a window of poses, taken while the track was
suspicious, that the model found anomalous. The score's time is later than 5 s before the
incident, and nothing keeps it from being later than the incident itself.
-/
namespace Netra.Pipeline

open PyLib RedisStream Association Behavior Risk

section
variable (w : Settings) (model : Model)

/-- What an incident rests on. -/
structure Grounds (frames : List DetectionEvent) (events : List BehaviorEvent) (i : IncidentEvent) : Prop where
  seen : Seen frames i.cameraId i.trackId i.timestamp
  stage : 14.88 ≤ i.fsmScore
  goods : Touched frames i.cameraId i.trackId
  anomalous : 0.616 ≤ i.shopformerScore
  poses : ∃ sc, Scored w model events sc ∧ sc.cameraId = i.cameraId ∧ sc.trackId = i.trackId ∧
    sc.anomalyScore = i.shopformerScore ∧ i.timestamp - 5 < sc.timestamp

/-- The risk weights, the threshold and the decay of the default settings. -/
structure DefaultWeights : Prop where
  fsm : w.riskWeightFsm = 0.45
  shopformer : w.riskWeightShopformer = 0.30
  context : w.riskWeightContext = 0.05
  threshold : w.riskAlertThreshold = 0.65
  decay : w.fsmDecayRate = 1.8

end

section
variable {w : Settings} {model : Model} {frames frames' : List DetectionEvent} {events : List BehaviorEvent}

theorem Grounds.mono {i : IncidentEvent} (hi : Grounds w model frames events i) (hsub : frames ⊆ frames')
    (more : List BehaviorEvent) : Grounds w model frames' (events ++ more) i := by
  obtain ⟨sc, hsc, hrest⟩ := hi.poses
  exact ⟨hi.seen.mono hsub, hi.stage, hi.goods.mono hsub, hi.anomalous, sc, hsc.mono more, hrest⟩

end

/-! ## The risk worker -/

section
variable {h : Host} {w : Settings} {model : Model} {frames : List DetectionEvent} {events : List BehaviorEvent}
  {cam : String} {k : Int}

/-- The score that is cached for a track is one that was published for it. -/
structure TrackOk (w : Settings) (model : Model) (events : List BehaviorEvent) (cam : String) (k : Int)
    (st : TrackRiskState) : Prop where
  state : StateOk st
  cached : st.lastShopformerScore = 0 ∨ ∃ sc, Scored w model events sc ∧ sc.cameraId = cam ∧ sc.trackId = k ∧
    sc.anomalyScore = st.lastShopformerScore ∧ sc.timestamp = st.lastShopformerTs

def TracksOk (w : Settings) (model : Model) (events : List BehaviorEvent) (cam : String) (e : RiskEngine) : Prop :=
  ∀ k st, e.states.get? k = some st → TrackOk w model events cam k st

theorem TrackOk.mono {st : TrackRiskState} (hst : TrackOk w model events cam k st) (more : List BehaviorEvent) :
    TrackOk w model (events ++ more) cam k st := by
  refine ⟨hst.state, hst.cached.imp_right ?_⟩
  rintro ⟨sc, hsc, hrest⟩
  exact ⟨sc, hsc.mono more, hrest⟩

/-- What the risk worker does to the engine of camera `cam`. -/
def OpOk (w : Settings) (model : Model) (frames : List DetectionEvent) (events : List BehaviorEvent) (cam : String) :
    RiskOp → Prop
  | .shopformer sc => Scored w model events sc ∧ sc.cameraId = cam
  | .behavior c => BehaviorOk frames c.bev ∧ c.bev.cameraId = cam ∧ c.interactionEventCount = 0
  | .prune _ => True

theorem trackOk_getD {e : RiskEngine} (he : TracksOk w model events cam e) (k : Int) :
    TrackOk w model events cam k ((e.states.get? k).getD {}) := by
  cases hst : e.states.get? k with
  | none => exact ⟨stateOk_fresh, .inl rfl⟩
  | some st => exact he k st hst

theorem tracksOk_step {e : RiskEngine} {op : RiskOp} (he : TracksOk w model events cam e)
    (hop : OpOk w model frames events cam op) : TracksOk w model events cam (Risk.step h w e op).1 := by
  intro k st hst
  have hs := step_cases (h := h) (w := w) e op k
  rw [hst] at hs
  generalize ho : some st = o at hs
  cases hs with
  | other _ => exact he k st ho.symm
  | score hk hst' =>
    cases ho
    obtain ⟨hsc, hcam⟩ := hop
    have hold := trackOk_getD he k
    rw [← hst'] at hold
    exact ⟨⟨hold.state.1, hsc.unit⟩, .inr ⟨_, hsc, hcam, hk, rfl, rfl⟩⟩
  | quiet hk hst' _ | raised hk hst' _ =>
    cases ho
    subst hst' hk
    exact ⟨stateOk_stateFor (fun k st hst => (he k st hst).state) hop.2.2, (trackOk_getD he _).cached⟩
  | dropped => cases ho

theorem tracksOk_after {e : RiskEngine} {ops : List RiskOp} (he : TracksOk w model events cam e)
    (hops : ∀ op ∈ ops, OpOk w model frames events cam op) :
    TracksOk w model events cam (Mealy.after (Risk.step h w) e ops) := by
  induction ops generalizing e with
  | nil => exact he
  | cons op ops ih =>
    exact ih (tracksOk_step he (hops op List.mem_cons_self)) fun o ho => hops o (List.mem_cons_of_mem _ ho)

/-! ### An incident -/

/-- What the threshold takes: 0.335 / 0.45 of the FSM's maximum, and 0.185 / 0.30 of the
model's. -/
theorem terms_of_raise (hw : DefaultWeights w) {st : TrackRiskState} (hst : StateOk st) {bev : BehaviorEvent}
    (hr : w.riskAlertThreshold ≤ riskScore h w st bev) :
    14.88 ≤ bev.fsmScore ∧ 0.616 ≤ sfScore st bev.timestamp := by
  have hnorm := normaliseFsm_le_one bev.fsmScore 20
  have hsf := sfScore_le_one hst bev.timestamp
  have hcontext := context_le h bev.timestamp
  -- nothing was ever counted
  have hcount : min 1 ((st.interactionCount : ℚ) / 10) = 0 := by
    rw [hst.1]
    norm_num
  rw [riskScore, hcount, hw.fsm, hw.shopformer, hw.context, hw.threshold, mul_zero, add_zero] at hr
  have hfsm : 0.744 ≤ normaliseFsm bev.fsmScore 20 := by
    norm_num at hr hcontext ⊢
    linarith
  constructor
  · have hscaled : (0.744 : ℚ) ≤ max 0 (bev.fsmScore / 20) := hfsm.trans (min_le_right _ _)
    rcases le_max_iff.1 hscaled with hzero | hscaled
    · norm_num at hzero
    · norm_num at hscaled ⊢
      linarith
  · norm_num at hr hcontext ⊢
    linarith

/-- A fresh positive score is the cached one. -/
theorem sfScore_pos {st : TrackRiskState} {t : ℚ} (hpos : 0 < sfScore st t) :
    t - st.lastShopformerTs < 5 ∧ sfScore st t = st.lastShopformerScore ∧ st.lastShopformerScore ≠ 0 := by
  unfold sfScore at hpos ⊢
  split at hpos
  · rename_i hfresh
    exact ⟨hfresh, if_pos hfresh, ne_of_gt hpos⟩
  · exact absurd hpos (lt_irrefl 0)

theorem grounds_of_raise (hw : DefaultWeights w) {e : RiskEngine} (he : TracksOk w model events cam e)
    {c : BehaviorCall} (hop : OpOk w model frames events cam (.behavior c)) (hr : Raises h w e c) :
    Grounds w model frames events (incidentOf h w (stateFor e c) c) := by
  obtain ⟨hbev, hcam, hcount⟩ := hop
  have hst : StateOk (stateFor e c) := stateOk_stateFor (fun k st hst => (he k st hst).state) hcount
  obtain ⟨hstage, hsf⟩ := terms_of_raise hw hst hr.1
  have hpos : 0 < sfScore (stateFor e c) c.bev.timestamp := lt_of_lt_of_le (by norm_num) hsf
  obtain ⟨hfresh, hcached, hne⟩ := sfScore_pos hpos
  obtain ⟨sc, hsc, hsccam, hsck, hscore, hts⟩ := (trackOk_getD he c.bev.trackId).cached.resolve_left hne
  refine ⟨hbev.seen, hstage, hbev.goods (lt_of_lt_of_le (by norm_num) hstage), hsf, sc, hsc, hsccam.trans hcam.symm,
    hsck, hscore.trans hcached.symm, ?_⟩
  have hlast : sc.timestamp = (stateFor e c).lastShopformerTs := hts
  have hi : (incidentOf h w (stateFor e c) c).timestamp = c.bev.timestamp := rfl
  rw [hi, hlast]
  linarith

/-! ### A turn -/

def EnginesOk (w : Settings) (model : Model) (events : List BehaviorEvent) (v : Risk.Worker) : Prop :=
  ∀ cam, TracksOk w model events cam (v.engine cam)

theorem enginesOk_init (w : Settings) (model : Model) (events : List BehaviorEvent) (lastPrune : ℚ) :
    EnginesOk w model events { lastPrune } := by
  intro cam k st hst
  simp [Risk.Worker.engine, RiskEngine.init] at hst

theorem risk_turn (hw : DefaultWeights w) {v : Risk.Worker} (hv : EnginesOk w model events v) {x : HostCalls}
    {i : Item ShopFormerScore BehaviorEvent}
    (hi : Consumer.ItemOk (Scored w model events) (BehaviorOk frames) i) :
    EnginesOk w model events (v.turn h w (x, i)).1 ∧
      ∀ inc ∈ (v.turn h w (x, i)).2.incident, Grounds w model frames events inc := by
  have hops (cam : String) : ∀ op ∈ Risk.Worker.opsOf cam v (x, i), OpOk w model frames events cam op := by
    intro op hop
    unfold Risk.Worker.opsOf at hop
    cases i with
    | side e =>
      obtain ⟨hcam, hop⟩ := List.mem_ite_nil_right.1 hop
      exact List.mem_singleton.1 hop ▸ ⟨hi, hcam⟩
    | main e =>
      obtain ⟨hcam, hop⟩ := List.mem_ite_nil_right.1 hop
      exact List.mem_singleton.1 hop ▸ ⟨hi, hcam, rfl⟩
    | idle =>
      obtain ⟨-, hop⟩ := List.mem_ite_nil_right.1 hop
      exact List.mem_singleton.1 hop ▸ trivial
  constructor
  · intro cam
    rw [Risk.Worker.engine_turn]
    exact tracksOk_after (hv cam) (hops cam)
  · intro inc hinc
    cases i with
    | side e => cases hinc
    | idle => cases hinc
    | main e =>
      obtain ⟨hr, rfl⟩ := (updateBehavior_out _ _ _).1 hinc
      exact grounds_of_raise hw (hv e.data.cameraId) (hops e.data.cameraId _ (by simp [Risk.Worker.opsOf])) hr

end

/-! ## The services together -/

/-- Every registry is what its camera has shown. -/
def RegistriesOk (frames : List DetectionEvent) (engines : Engines) : Prop :=
  ∀ cam e, engines.get? cam = some e → RegistryOf frames cam e

/-- What is in the streams, in hand and in the locals of the services, when `frames` and
`events` were published. -/
structure Sound (w : Settings) (model : Model) (frames : List DetectionEvent) (events : List BehaviorEvent)
    (s : System) : Prop where
  association : Group.Fed (· ∈ frames) (RegistriesOk frames) s.association
  behavior : Consumer.Fed (EventOk frames) (· ∈ frames) (WorkerOk w frames) s.behavior
  shopformer : s.shopformer.stream.Every (BehaviorOk frames) ∧ WindowsOk s.shopformer
  risk : Consumer.Fed (Scored w model events) (BehaviorOk frames) (EnginesOk w model events) s.risk
  incidents : ∀ i ∈ s.incidents, Grounds w model frames events i

section
variable {h : Host} {w : Settings} {loadZones : String → List ZoneConfig} {py : PyText} {model : Model}
  {frames frames' : List DetectionEvent} {events : List BehaviorEvent} {s : System}

theorem registriesOk_init (frames : List DetectionEvent) : RegistriesOk frames Dict.empty := by
  intro cam e he
  cases he

theorem registries_turn {engines : Engines} (he : RegistriesOk frames engines) {d : DetectionEvent} (hd : d ∈ frames) :
    RegistriesOk frames (runConsumer h w loadZones engines d).1 ∧
      ∀ ev ∈ (runConsumer h w loadZones engines d).2, EventOk frames ev := by
  obtain ⟨hreg, hevents⟩ : RegistryOf frames d.cameraId
      (engineTurn h w loadZones (engines.get? d.cameraId) d).1 ∧ _ := goods_engine hd (he d.cameraId)
  refine ⟨fun cam e hget => ?_, hevents⟩
  unfold runConsumer Mealy.keyed at hget
  dsimp only at hget
  rw [Dict.get?_set] at hget
  split at hget
  · rename_i hcam
    subst hcam
    obtain rfl := Option.some.inj hget
    exact hreg
  · exact he cam e hget

theorem Sound.moreFrames (hs : Sound w model frames events s) (hsub : frames ⊆ frames') :
    Sound w model frames' events s where
  association := hs.association.mono (fun _ hd => hsub hd) fun _ hv cam e he => (hv cam e he).mono hsub
  behavior := hs.behavior.mono (fun _ hev => hev.mono hsub) (fun _ hd => hsub hd) fun _ hv => hv.mono hsub
  shopformer := ⟨hs.shopformer.1.mono fun _ hbev => hbev.mono hsub, hs.shopformer.2⟩
  risk := hs.risk.mono (fun _ hsc => hsc) (fun _ hbev => hbev.mono hsub) fun _ hv => hv
  incidents i hi := List.append_nil events ▸ (hs.incidents i hi).mono hsub []

theorem Sound.moreEvents (hs : Sound w model frames events s) (more : List BehaviorEvent) :
    Sound w model frames (events ++ more) s where
  association := hs.association
  behavior := hs.behavior
  shopformer := hs.shopformer
  risk := hs.risk.mono (fun _ hsc => hsc.mono more) (fun _ hbev => hbev) fun _ hv cam k st hst =>
    (hv cam k st hst).mono more
  incidents i hi := (hs.incidents i hi).mono (List.Subset.refl _) more

theorem sound_start (w : Settings) (model : Model) (now : ℚ) : Sound w model [] [] (.start now) where
  association := ⟨Stream.every_empty, List.forall_mem_nil _, registriesOk_init []⟩
  behavior := ⟨Stream.every_empty, Stream.every_empty, trivial, workerOk_init w []⟩
  shopformer := ⟨Stream.every_empty, fun _ _ => List.nil_sublist _⟩
  risk := ⟨Stream.every_empty, Stream.every_empty, trivial, enginesOk_init w model [] now⟩
  incidents := List.forall_mem_nil _

/-! ### The moves -/

theorem sound_frame (hs : Sound w model s.frames s.events s) (d : DetectionEvent) :
    Sound w model (s.step h w loadZones py model (.frame d)).frames s.events
      (s.step h w loadZones py model (.frame d)) := by
  have hframes : (s.step h w loadZones py model (.frame d)).frames = s.frames ++ [d] := Stream.entries_addAll [d]
  rw [hframes]
  obtain ⟨hassoc, hbeh, hshop, hrisk, hinc⟩ := hs.moreFrames (List.subset_append_left s.frames [d])
  exact ⟨hassoc.addAll (by simp), hbeh.addMain (by simp), hshop, hrisk, hinc⟩

theorem sound_association (hs : Sound w model s.frames s.events s) :
    Sound w model (s.step h w loadZones py model .association).frames s.events
      (s.step h w loadZones py model .association) := by
  obtain ⟨hfed, hout⟩ := hs.association.work (G := System.associationGroup h w loadZones)
    (O := fun evs => ∀ ev ∈ evs, EventOk s.frames ev) () fun _ _ hv hd => registries_turn hv hd
  have hframes : (s.step h w loadZones py model .association).frames = s.frames := Group.entries_work _ _ _
  rw [hframes]
  refine ⟨hfed, hs.behavior.addSide fun ev hev => ?_, hs.shopformer, hs.risk, hs.incidents⟩
  cases hevs : ((System.associationGroup h w loadZones).work () s.association).2 with
  | none =>
    rw [hevs] at hev
    cases hev
  | some evs =>
    rw [hevs] at hev
    exact hout evs hevs ev hev

theorem sound_behavior (hrate : 1 / 2 ≤ w.fsmDecayRate) (hs : Sound w model s.frames s.events s) :
    Sound w model s.frames (s.step h w loadZones py model .behavior).events
      (s.step h w loadZones py model .behavior) := by
  obtain ⟨hfed, hout⟩ := hs.behavior.workOut (C := Behavior.Worker.run h w)
    (O := fun out => ∀ bev ∈ out.published, BehaviorOk s.frames bev) () fun _ _ hv hi => worker_turn hrate hv hi
  have hpub : ∀ bev ∈ ((Behavior.Worker.run h w).workOut () s.behavior).2.flatMap Behavior.WorkerOut.published,
      BehaviorOk s.frames bev := by
    intro bev hbev
    obtain ⟨out, hmem, hbev⟩ := List.mem_flatMap.1 hbev
    exact hout out hmem bev hbev
  have hevents : (s.step h w loadZones py model .behavior).events = s.events ++
      ((Behavior.Worker.run h w).workOut () s.behavior).2.flatMap Behavior.WorkerOut.published := Stream.entries_addAll _
  rw [hevents]
  have hmore := hs.moreEvents (((Behavior.Worker.run h w).workOut () s.behavior).2.flatMap Behavior.WorkerOut.published)
  exact ⟨hs.association, hfed, ⟨hs.shopformer.1.addAll hpub, hs.shopformer.2.addAll _⟩, hmore.risk.addMain hpub,
    hmore.incidents⟩

theorem sound_shopformer (hs : Sound w model s.frames s.events s) (x : Poll) :
    Sound w model s.frames (s.step h w loadZones py model (.shopformer x)).events
      (s.step h w loadZones py model (.shopformer x)) := by
  obtain ⟨hwindows, hentries, hscores⟩ : WindowsOk (System.shopformerWork w py model x s.shopformer).1 ∧ _ ∧ _ :=
    windowsOk_work hs.shopformer.2 x
  have hevents : (s.step h w loadZones py model (.shopformer x)).events = s.events := hentries
  rw [hevents]
  refine ⟨hs.association, hs.behavior, ⟨?_, hwindows⟩, hs.risk.addSide fun sc hsc => ?_, hs.incidents⟩
  · intro bev hbev
    exact hs.shopformer.1 bev (hentries ▸ hbev)
  · exact hscores sc (Option.mem_toList.1 hsc)

theorem sound_risk (hw : DefaultWeights w) (hs : Sound w model s.frames s.events s) (x : HostCalls) :
    Sound w model s.frames s.events (s.step h w loadZones py model (.risk x)) := by
  obtain ⟨hfed, hout⟩ := hs.risk.workOut (C := Risk.Worker.run h w)
    (O := fun out => ∀ i ∈ out.incident, Grounds w model s.frames s.events i) x fun _ _ hv hi => risk_turn hw hv hi
  refine ⟨hs.association, hs.behavior, hs.shopformer, hfed, fun i hi => ?_⟩
  rcases List.mem_append.1 hi with hi | hi
  · exact hs.incidents i hi
  · obtain ⟨out, hmem, hinc⟩ := List.mem_filterMap.1 hi
    exact hout out hmem i hinc

theorem sound_restart (hs : Sound w model s.frames s.events s) (now : ℚ) (service : Service) :
    Sound w model s.frames s.events (s.restart now service) := by
  obtain ⟨hassoc, hbeh, hshop, hrisk, hinc⟩ := hs
  cases service with
  | association => exact ⟨hassoc.restart (registriesOk_init _), hbeh, hshop, hrisk, hinc⟩
  | behavior => exact ⟨hassoc, hbeh.restart (workerOk_init w _), hshop, hrisk, hinc⟩
  | shopformer => exact ⟨hassoc, hbeh, ⟨hshop.1, windowsOk_restart _ now⟩, hrisk, hinc⟩
  | risk => exact ⟨hassoc, hbeh, hshop, hrisk.restart (enginesOk_init w model _ now), hinc⟩

theorem sound_trim (hs : Sound w model s.frames s.events s) (maxLen cut : Nat) (topic : Topic) :
    Sound w model s.frames s.events (s.trim maxLen cut topic) := by
  obtain ⟨hassoc, hbeh, hshop, hrisk, hinc⟩ := hs
  cases topic with
  | detection => exact ⟨hassoc.trim maxLen cut, hbeh.trimMain maxLen cut, hshop, hrisk, hinc⟩
  | association => exact ⟨hassoc, hbeh.trimSide maxLen cut, hshop, hrisk, hinc⟩
  | behavior => exact ⟨hassoc, hbeh, ⟨hshop.1, hshop.2.trim maxLen cut⟩, hrisk.trimMain maxLen cut, hinc⟩
  | shopformer => exact ⟨hassoc, hbeh, hshop, hrisk.trimSide maxLen cut, hinc⟩

theorem sound_step (hw : DefaultWeights w) (hs : Sound w model s.frames s.events s) (a : SystemAction) :
    Sound w model (s.step h w loadZones py model a).frames (s.step h w loadZones py model a).events
      (s.step h w loadZones py model a) := by
  have hrate : 1 / 2 ≤ w.fsmDecayRate := by
    rw [hw.decay]
    norm_num
  cases a with
  | frame d => exact sound_frame hs d
  | association => exact sound_association hs
  | behavior => exact sound_behavior hrate hs
  | shopformer x => exact sound_shopformer hs x
  | risk x => exact sound_risk hw hs x
  | restart service now =>
    have hsame := sound_restart hs now service
    cases service <;> exact hsame
  | trim topic maxLen cut =>
    have hsame := sound_trim hs maxLen cut topic
    cases topic <;> exact hsame

theorem sound_after (hw : DefaultWeights w) (now : ℚ) (acts : List SystemAction) :
    Sound w model (System.after h w loadZones py model now acts).frames
      (System.after h w loadZones py model now acts).events (System.after h w loadZones py model now acts) := by
  induction acts using List.reverseRecOn with
  | nil => exact sound_start w model now
  | append_singleton acts a ih =>
    rw [System.after, List.foldl_append, List.foldl_cons, List.foldl_nil, ← System.after]
    exact sound_step hw ih a

/-- What the services have published, each item with what it rests on. -/
structure Backed (w : Settings) (model : Model) (s : System) : Prop where
  associations : ∀ ev ∈ s.behavior.side.entries, EventOk s.frames ev
  behaviors : ∀ bev ∈ s.events, BehaviorOk s.frames bev
  scores : ∀ sc ∈ s.risk.side.entries, Scored w model s.events sc
  incidents : ∀ i ∈ s.incidents, Grounds w model s.frames s.events i

/-- In every run of the services everything they publish has its grounds. -/
theorem incidents_grounded (h : Host) {w : Settings} (hw : DefaultWeights w) (loadZones : String → List ZoneConfig)
    (py : PyText) (model : Model) (now : ℚ) (acts : List SystemAction) :
    Backed w model (System.after h w loadZones py model now acts) := by
  have hs : Sound w model _ _ (System.after h w loadZones py model now acts) := sound_after hw now acts
  exact ⟨hs.behavior.side, hs.shopformer.1, hs.risk.side, hs.incidents⟩

/-! ## A run that raises one

Decoding what was encoded gives it back, so where a track's pose is always the same the
ShopFormer worker can be run on the events themselves. -/

/-- `System.shopformerTurn`, where the track's pose is `xy`. -/
def posedTurn (w : Settings) (model : Model) (xy : List (Json × Json)) (v : Shopformer.Worker) (now : ℚ)
    (bev : BehaviorEvent) : Shopformer.Worker × Option ShopFormerScore :=
  if bev.suspicious then
    let b := v.poseBuffer.push w bev.cameraId bev.trackId (bev.timestamp, xy)
    if b.ready w bev.cameraId bev.trackId now then
      let (b, sequence) := (b.touch bev.cameraId bev.trackId).getSequence bev.cameraId bev.trackId now
      (⟨b, v.lastEvict⟩, (model.score sequence).map fun (anomalyScore, reconstructionError, embedding) =>
        { cameraId := bev.cameraId
          trackId := bev.trackId
          anomalyScore
          reconstructionError
          embedding
          poseSequenceLen := sequence.length
          timestamp := bev.timestamp })
    else (⟨b.touch bev.cameraId bev.trackId, v.lastEvict⟩, none)
  else (v, none)

def posedGroup (w : Settings) (model : Model) (xy : List (Json × Json)) (now : ℚ) :
    Group Shopformer.Worker Poll BehaviorEvent (Option ShopFormerScore) where
  count := 20
  turn v x := posedTurn w model xy v x.1.now x.2.data
  restart _ := .start now

section
variable (h : Host) (w : Settings) (loadZones : String → List ZoneConfig) (py : PyText) (model : Model)
  (xy : List (Json × Json))

/-- `System.step`, with `posedTurn` for the turns of the ShopFormer worker. -/
def posedStep (s : System) : SystemAction → System
  | .shopformer x =>
    let r :=
      if s.shopformer.batch = [] ∧ s.shopformer.stream.pending = [] then System.shopformerWork w py model x s.shopformer
      else
        let r := (posedGroup w model xy x.now).work x s.shopformer
        (r.1, r.2.join)
    ({ s with shopformer := r.1 }).addShopformer r.2.toList
  | a => s.step h w loadZones py model a

end

section
variable {h : Host} {w : Settings} {loadZones : String → List ZoneConfig} {py : PyText} {model : Model}
  {xy : List (Json × Json)} {pose : Json}

/-- What Redis has under the key of every track. -/
def Posed (py : PyText) (pose : Json) (x : Poll) : Prop := ∀ key, x.redis key = some (py.dumps pose)

theorem shopformerTurn_posed (hwf : pose.WellFormed) (htext : py.dumps pose ≠ "")
    (hxy : (Shopformer.iter pose).bind (·.mapM Shopformer.xyOf) = some xy) {x : Poll} (hx : Posed py pose x)
    (v : Shopformer.Worker) (bev : BehaviorEvent) :
    System.shopformerTurn w py model v x bev = posedTurn w model xy v x.now bev := by
  obtain ⟨bev', hbev', hcam, hk, hsuspicious, htime⟩ : ∃ bev', Wire.decodeBehaviorEvent py
      (System.entryOf py model x bev).data = some bev' ∧ bev'.cameraId = bev.cameraId ∧ bev'.trackId = bev.trackId ∧
        bev'.suspicious = bev.suspicious ∧ bev'.timestamp = bev.timestamp :=
    ⟨_, Wire.decode_encodeBehaviorEvent py bev, rfl, rfl, rfl, rfl⟩
  have hpose : Shopformer.poseOf py (System.entryOf py model x bev) bev' = some (some (bev.timestamp, xy)) := by
    have hread : py.loads (py.dumps pose) = some pose := py.loads_dumps pose hwf
    rw [Shopformer.poseOf, show (System.entryOf py model x bev).redis = x.redis from rfl, hx]
    dsimp only
    rw [if_neg htext, hread]
    simp only [Option.bind_eq_bind, Option.bind_some]
    rw [← Option.bind_assoc, hxy, htime]
    rfl
  rw [System.shopformerTurn, posedTurn, Shopformer.turn, Shopformer.handle, hbev']
  dsimp only
  rw [hsuspicious]
  split
  · rw [hpose]
    dsimp only
    rw [Shopformer.pushed, Shopformer.scoreIfReady, hcam, hk, htime,
      show (System.entryOf py model x bev).now = x.now from rfl,
      show (System.entryOf py model x bev).score = model.score from rfl]
    by_cases hready : (v.poseBuffer.push w bev.cameraId bev.trackId (bev.timestamp, xy)).ready w bev.cameraId
      bev.trackId x.now = true
    · rw [if_pos hready, if_pos hready]
      dsimp only
      cases model.score _ with
      | none => rfl
      | some r => rw [Option.map_some, Option.bind_some, Wire.decode_encodeShopFormerScore, Option.map_some]
    · rw [if_neg hready, if_neg hready]
      rfl
  · rfl

theorem step_posed (hwf : pose.WellFormed) (htext : py.dumps pose ≠ "")
    (hxy : (Shopformer.iter pose).bind (·.mapM Shopformer.xyOf) = some xy) (s : System) (a : SystemAction)
    (ha : ∀ x, a = .shopformer x → Posed py pose x) :
    s.step h w loadZones py model a = posedStep h w loadZones py model xy s a := by
  cases a with
  | shopformer x =>
    unfold System.step posedStep
    dsimp only
    split
    · rfl
    · rename_i hmore
      have hwork : (System.shopformerGroup w py model x.now).work x s.shopformer =
          (posedGroup w model xy x.now).work x s.shopformer := by
        unfold Group.work Group.step
        dsimp only
        split
        · rfl
        · rename_i e batch _
          have hturn : System.shopformerTurn w py model s.shopformer.vars x e.data =
              posedTurn w model xy s.shopformer.vars x.now e.data := shopformerTurn_posed hwf htext hxy (ha x rfl) _ _
          simp only [System.shopformerGroup, posedGroup, Option.map_some, hturn]
      rw [System.shopformerWork, if_neg hmore, hwork]
  | _ => rfl

theorem after_posed (hwf : pose.WellFormed) (htext : py.dumps pose ≠ "")
    (hxy : (Shopformer.iter pose).bind (·.mapM Shopformer.xyOf) = some xy) (now : ℚ) {acts : List SystemAction}
    (hacts : ∀ x, .shopformer x ∈ acts → Posed py pose x) :
    System.after h w loadZones py model now acts =
      acts.foldl (posedStep h w loadZones py model xy) (.start now) :=
  List.foldl_ext _ _ _ fun s a ha => step_posed hwf htext hxy s a fun x he => hacts x (he ▸ ha)

end

/-- A model that is sure of every window. -/
def sure : Model where
  score _ := some (0.95, 1, [])
  unit := by
    intro poses a e emb hscore
    obtain ⟨rfl, -, -⟩ : a = 0.95 ∧ e = 1 ∧ emb = [] := by simpa [eq_comm] using hscore
    norm_num

/-- The default weights, and windows of two poses. -/
def twoPoses : Settings := { shopformerSeqLen := 2 }

/-- Track 7 with a hand at the hip, `i` tenths of a second after an item was last seen next
to it. -/
def pocketing (i : Nat) : DetectionEvent where
  cameraId := "cam-01"
  persons := [{ trackId := 7, cameraId := "cam-01", bbox := ⟨80, 100, 120, 300⟩, confidence := 1
                keypoints := List.replicate 9 ⟨0, 0, 0⟩ ++
                  [⟨105, 200, 1⟩, ⟨130, 200, 1⟩, ⟨100, 200, 1⟩, ⟨100, 200, 1⟩]
                timestamp := 1000 + i / 10 }]
  items := if i = 0 then [{ itemId := 1, cameraId := "cam-01", bbox := ⟨100, 180, 120, 220⟩, className := "bottle"
                            confidence := 1, timestamp := 1000 }] else []
  frameSeq := i
  timestamp := 1000 + i / 10

def hipPose : Json := .arr [.arr [.float 105, .float 200, .float 1]]

noncomputable def posedPoll : Poll := ⟨"1-0", fun _ => some (PyText.reference.dumps hipPose), 1001⟩

/-- Five frames, through one service after the other; the risk worker is restarted before
it reads anything. -/
noncomputable def pocketed : List SystemAction :=
  (List.range 5).map (fun i => .frame (pocketing i)) ++ List.replicate 6 .association ++
    List.replicate 13 .behavior ++ List.replicate 6 (.shopformer posedPoll) ++ .restart .risk 1000 ::
      List.replicate 9 (.risk ⟨1001, "inc-1"⟩)

theorem after_pocketed : System.after .reference twoPoses (fun _ => []) .reference sure 999 pocketed =
    pocketed.foldl (posedStep .reference twoPoses (fun _ => []) .reference sure [(.float 105, .float 200)])
      (.start 999) := by
  have hwf : hipPose.WellFormed := .arr (by simp [Json.WellFormed.arr, Json.WellFormed.float])
  have htext : PyText.reference.dumps hipPose ≠ "" := fun he =>
    PyJson.reference.dumps_ne hipPose (congrArg String.toList he)
  refine after_posed hwf htext rfl 999 fun x hx => ?_
  have hpoll : x = posedPoll := by simpa [pocketed] using hx
  exact fun key => by rw [hpoll, posedPoll]

theorem incidents_pocketed :
    (System.after .reference twoPoses (fun _ => []) .reference sure 999 pocketed).incidents.map
      (fun i => (i.cameraId, i.trackId, i.shopformerScore)) = [("cam-01", 7, 0.95)] := by
  rw [after_pocketed]
  decide +kernel

/-- Its one incident has the score the model gave two poses. -/
theorem incidents_grounded_pocketed :
    ∃ i ∈ (System.after .reference twoPoses (fun _ => []) .reference sure 999 pocketed).incidents,
      i.shopformerScore = 0.95 ∧
        Grounds twoPoses sure (System.after .reference twoPoses (fun _ => []) .reference sure 999 pocketed).frames
          (System.after .reference twoPoses (fun _ => []) .reference sure 999 pocketed).events i := by
  have hbacked := incidents_grounded .reference (w := twoPoses) ⟨rfl, rfl, rfl, rfl, rfl⟩ (fun _ => []) .reference sure
    999 pocketed
  have hmem : ("cam-01", (7 : Int), (0.95 : ℚ)) ∈
      (System.after .reference twoPoses (fun _ => []) .reference sure 999 pocketed).incidents.map
        (fun i => (i.cameraId, i.trackId, i.shopformerScore)) := by
    rw [incidents_pocketed]
    exact List.mem_singleton_self _
  obtain ⟨i, hi, he⟩ := List.mem_map.1 hmem
  have hscore : i.shopformerScore = 0.95 := congrArg (·.2.2) he
  exact ⟨i, hi, hscore, hbacked.incidents i hi⟩

end

end Netra.Pipeline
