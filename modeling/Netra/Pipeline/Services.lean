import Netra.Behavior.Delivery
import Netra.Lib.Noninterference
import Netra.Pipeline.Isolation
import Netra.Risk.Worker
/-!
# Cameras do not interfere

One worker of each service serves all cameras. What it publishes for a camera
depends only on that camera's messages, in their order, and on the empty polls
among them (`services_isolated`). The live score that the risk worker sets under
`netra:track_risk` is left out.
-/
namespace Netra.Pipeline

open PyLib RedisStream Association Behavior Risk

/-! ## The association worker -/

/-- `engines` of `run_consumer` (`backend/services/association/main.py`). -/
abbrev Engines := Dict String AssociationEngine

section
variable (h : Host) (w : Settings) (loadZones : String → List ZoneConfig)

/-- A frame, for the engine of its camera; a new engine loads the zones of its camera. -/
def engineTurn (engine : Option AssociationEngine) (d : DetectionEvent) :
    AssociationEngine × List AssociationEvent :=
  processFrame h w (engine.getD (.init d.cameraId (loadZones d.cameraId))) d.persons d.items d.timestamp

/-- An entry of `netra:detection`, and the events published. -/
def runConsumer : Engines → DetectionEvent → Engines × List AssociationEvent :=
  Mealy.keyed (·.cameraId) (engineTurn h w loadZones)

end

variable {h : Host} {w : Settings} {loadZones : String → List ZoneConfig}

theorem speedSpike_camera {e : AssociationEngine} {st : PersonState} {p : PersonDetection} {t : ℚ} :
    ∀ ev ∈ (speedSpike h w e st p t).2, ev.cameraId = e.cameraId := by
  intro ev hev
  unfold speedSpike at hev
  split at hev
  · cases hev
  · dsimp only at hev
    split at hev
    · split at hev
      · rw [List.mem_singleton.1 hev]
      · cases hev
    · cases hev

theorem updatePerson_camera {e : AssociationEngine} {st : PersonState} {p : PersonDetection}
    {items : List ItemDetection} {gone : List Int} {t : ℚ} :
    ∀ ev ∈ (updatePerson h w e st p items gone t).2, ev.cameraId = e.cameraId := by
  intro ev hev
  simp only [updatePerson, List.mem_append] at hev
  rcases hev with ((hev | hev) | hev) | hev
  · obtain ⟨zone, -, hzone⟩ := List.mem_filterMap.1 hev
    split at hzone <;> split at hzone <;> cases hzone <;> rfl
  · unfold shelfEvents at hev
    rcases List.mem_append.1 hev with hev | hev
    · split at hev
      · rw [List.mem_singleton.1 hev]
      · cases hev
    · split at hev
      · rw [List.mem_singleton.1 hev]
      · cases hev
  · obtain ⟨item, -, rfl⟩ := List.mem_map.1 hev
    rfl
  · exact speedSpike_camera ev hev

/-- The events of a frame are of the engine's camera. -/
theorem processFrame_camera {e : AssociationEngine} {persons : List PersonDetection} {items : List ItemDetection}
    {t : ℚ} : ∀ ev ∈ (processFrame h w e persons items t).2, ev.cameraId = e.cameraId := by
  intro ev hev
  obtain ⟨o, ho, hmem⟩ := List.mem_flatten.1 hev
  obtain ⟨pre, p, post, -, rfl⟩ := (Mealy.mem_outs _ _ _ _).1 ho
  exact updatePerson_camera (e := registered e items t) ev hmem

/-- Each engine is that of its camera. -/
def Own (cam : String) (engine : Option AssociationEngine) : Prop := ∀ e, engine = some e → e.cameraId = cam

theorem own_getD {cam : String} {engine : Option AssociationEngine} (ho : Own cam engine) (zones : List ZoneConfig) :
    (engine.getD (.init cam zones)).cameraId = cam := by
  cases engine with
  | none => rfl
  | some e => exact ho e rfl

theorem published_association (cam : String) (frames : List DetectionEvent) :
    (Mealy.outs (runConsumer h w loadZones) Dict.empty frames).flatten.filter (·.cameraId = cam) =
      (Mealy.outs (Mealy.single (engineTurn h w loadZones)) none (frames.filter (·.cameraId = cam))).flatten := by
  refine Mealy.outs_keyed_inv (I := Own) (·.cameraId) (engineTurn h w loadZones) (·.cameraId) (fun o d ho => ?_)
    (fun o d ho ev hev => ?_) Dict.empty (fun _ _ he => by cases he) frames cam
  · rintro e he
    obtain rfl := Option.some.inj he
    exact own_getD ho _
  · exact (processFrame_camera ev hev).trans (own_getD ho _)

/-! ## What a camera sees -/

/-- What a camera sees of the turns of a worker: its own messages, without the ids of their
entries, and the empty polls, with what the host says there. -/
inductive Sight (ε α β : Type) where
  | side (a : α)
  | main (x : ε) (b : β)
  | idle (x : ε)

section
variable {ε α β : Type} (camα : α → String) (camβ : β → String) (cam : String)

def sight : ε × Item α β → Option (Sight ε α β)
  | (_, .side e) => if camα e.data = cam then some (.side e.data) else none
  | (x, .main e) => if camβ e.data = cam then some (.main x e.data) else none
  | (x, .idle) => some (.idle x)

variable {camα camβ cam}

theorem sight_none {i : ε × Item α β} (hi : sight camα camβ cam i = none) :
    (∃ x e, i = (x, .side e) ∧ camα e.data ≠ cam) ∨ (∃ x e, i = (x, .main e) ∧ camβ e.data ≠ cam) := by
  obtain ⟨x, item⟩ := i
  cases item with
  | side e => exact .inl ⟨x, e, rfl, fun heq => by simp [sight, heq] at hi⟩
  | main e => exact .inr ⟨x, e, rfl, fun heq => by simp [sight, heq] at hi⟩
  | idle => cases hi

theorem sight_some {i : ε × Item α β} {a : Sight ε α β} (hi : sight camα camβ cam i = some a) :
    (∃ x e, i = (x, .side e) ∧ camα e.data = cam ∧ a = .side e.data) ∨
      (∃ x e, i = (x, .main e) ∧ camβ e.data = cam ∧ a = .main x e.data) ∨ (∃ x, i = (x, .idle) ∧ a = .idle x) := by
  obtain ⟨x, item⟩ := i
  cases item with
  | side e =>
    obtain ⟨hcam, ha⟩ := Option.ite_none_right_eq_some.1 hi
    exact .inl ⟨x, e, rfl, hcam, (Option.some.inj ha).symm⟩
  | main e =>
    obtain ⟨hcam, ha⟩ := Option.ite_none_right_eq_some.1 hi
    exact .inr (.inl ⟨x, e, rfl, hcam, (Option.some.inj ha).symm⟩)
  | idle => exact .inr (.inr ⟨x, rfl, (Option.some.inj hi).symm⟩)

/-- Two turns that the camera sees, and that look the same to it. -/
theorem sight_same {i j : ε × Item α β} {a : Sight ε α β} (hi : sight camα camβ cam i = some a)
    (hj : sight camα camβ cam j = some a) :
    (∃ x x' e e', i = (x, .side e) ∧ j = (x', .side e') ∧ e.data = e'.data ∧ camα e.data = cam) ∨
      (∃ x e e', i = (x, .main e) ∧ j = (x, .main e') ∧ e.data = e'.data ∧ camβ e.data = cam) ∨
      (∃ x, i = (x, .idle) ∧ j = (x, .idle)) := by
  rcases sight_some hi with ⟨x, e, rfl, hcam, rfl⟩ | ⟨x, e, rfl, hcam, rfl⟩ | ⟨x, rfl, rfl⟩
  · rcases sight_some hj with ⟨x', e', rfl, -, ha⟩ | ⟨x', e', -, -, ha⟩ | ⟨x', -, ha⟩
    · exact .inl ⟨x, x', e, e', rfl, rfl, Sight.side.inj ha, hcam⟩
    · cases ha
    · cases ha
  · rcases sight_some hj with ⟨x', e', -, -, ha⟩ | ⟨x', e', rfl, -, ha⟩ | ⟨x', -, ha⟩
    · cases ha
    · obtain ⟨rfl, hdata⟩ := Sight.main.inj ha
      exact .inr (.inl ⟨x, e, e', rfl, rfl, hdata, hcam⟩)
    · cases ha
  · rcases sight_some hj with ⟨x', e', -, -, ha⟩ | ⟨x', e', -, -, ha⟩ | ⟨x', rfl, ha⟩
    · cases ha
    · cases ha
    · obtain rfl := Sight.idle.inj ha
      exact .inr (.inr ⟨x, rfl, rfl⟩)

end

/-! ## The behaviour worker -/

/-- Workers that camera `cam` cannot tell apart. -/
structure SameBehavior (cam : String) (s t : Behavior.Worker) : Prop where
  confirmer : s.confirmers.get? cam = t.confirmers.get? cam
  buffered : (s.buffered cam).map (·.data) = (t.buffered cam).map (·.data)
  latest : s.latestEventTs.get? cam = t.latestEventTs.get? cam

theorem watermark_self (s : Behavior.Worker) (cam : String) (t : ℚ) :
    (Behavior.Worker.watermark s.latestEventTs cam t).get? cam =
      if (s.latestEventTs.get? cam).getD 0 < t then some t else s.latestEventTs.get? cam := by
  unfold Behavior.Worker.watermark
  split
  · rw [Dict.get?_set_self]
  · rfl

theorem watermark_ne (s : Behavior.Worker) {cam cam' : String} (hne : cam ≠ cam') (t : ℚ) :
    (Behavior.Worker.watermark s.latestEventTs cam' t).get? cam = s.latestEventTs.get? cam := by
  unfold Behavior.Worker.watermark
  split
  · rw [Dict.get?_set_ne _ _ hne]
  · rfl

theorem filter_data (p : AssociationEvent → Bool) (es : List (Entry AssociationEvent)) :
    (es.filter fun e => p e.data).map (·.data) = (es.map (·.data)).filter p :=
  (List.filter_map ..).symm

theorem sameBehavior_equiv (cam : String) : Equivalence (SameBehavior cam) where
  refl _ := ⟨rfl, rfl, rfl⟩
  symm hst := ⟨hst.1.symm, hst.2.symm, hst.3.symm⟩
  trans hst htu := ⟨hst.1.trans htu.1, hst.2.trans htu.2, hst.3.trans htu.3⟩

theorem same_onAssoc {cam : String} {s t : Behavior.Worker} (hst : SameBehavior cam s t) {e e' : Entry AssociationEvent}
    (he : e.data = e'.data) (hcam : e.data.cameraId = cam) : SameBehavior cam (s.onAssoc e) (t.onAssoc e') := by
  subst hcam
  have hown (s : Behavior.Worker) (e : Entry AssociationEvent) :
      (s.onAssoc e).buffered e.data.cameraId = s.buffered e.data.cameraId ++ [e] := by
    rw [Behavior.Worker.buffered, Behavior.Worker.onAssoc]
    dsimp only
    rw [Dict.get?_set_self, Option.getD_some]
  refine ⟨hst.confirmer, ?_, hst.latest⟩
  have hown' := hown t e'
  rw [← he] at hown'
  rw [hown, hown', List.map_append, List.map_append, hst.buffered, List.map_singleton, List.map_singleton, he]

theorem same_onDetection {cam : String} {s t : Behavior.Worker} (hst : SameBehavior cam s t) {d : DetectionEvent}
    (hcam : d.cameraId = cam) : SameBehavior cam (s.onDetection h w d).1 (t.onDetection h w d).1 := by
  subst hcam
  have hconfirmer (s : Behavior.Worker) : (s.onDetection h w d).1.confirmers.get? d.cameraId =
      some (((s.confirmers.get? d.cameraId).getD (.ofSettings w)).filter ((s.buffered d.cameraId).map (·.data))
        d.cameraId d.timestamp).1 := Dict.get?_set_self ..
  have hbuffered (s : Behavior.Worker) : (s.onDetection h w d).1.buffered d.cameraId = [] := by
    rw [Behavior.Worker.buffered, Behavior.Worker.onDetection]
    dsimp only
    rw [Dict.get?_erase_self, Option.getD_none]
  have hlatest (s : Behavior.Worker) := watermark_self s d.cameraId d.timestamp
  refine ⟨?_, by rw [hbuffered, hbuffered], ?_⟩
  · rw [hconfirmer, hconfirmer, hst.confirmer, hst.buffered]
  · refine (hlatest s).trans ?_
    rw [hst.latest]
    exact (hlatest t).symm

theorem same_onIdle {cam : String} {s t : Behavior.Worker} (hst : SameBehavior cam s t) :
    SameBehavior cam s.onIdle t.onIdle := by
  refine ⟨hst.confirmer, ?_, hst.latest⟩
  rw [Behavior.Worker.buffered_onIdle, Behavior.Worker.buffered_onIdle, hst.latest]
  cases t.latestEventTs.get? cam with
  | none => exact hst.buffered
  | some refTs =>
    dsimp only
    rw [filter_data (fun ev => refTs - ev.timestamp < 2), filter_data (fun ev => refTs - ev.timestamp < 2),
      hst.buffered]

/-- What the worker does for its other cameras. -/
theorem same_hidden {cam : String} (s : Behavior.Worker) {i : Unit × Item AssociationEvent DetectionEvent}
    (hi : sight (·.cameraId) (·.cameraId) cam i = none) :
    SameBehavior cam s (s.turn h w i).1 ∧ Behavior.Worker.callsOf w cam s i = [] := by
  rcases sight_none hi with ⟨x, e, rfl, hne⟩ | ⟨x, e, rfl, hne⟩
  · refine ⟨⟨rfl, ?_, rfl⟩, rfl⟩
    rw [Behavior.Worker.buffered, Behavior.Worker.buffered]
    dsimp only [Behavior.Worker.turn, Behavior.Worker.onAssoc]
    rw [Dict.get?_set_ne _ _ (Ne.symm hne)]
  · refine ⟨⟨(Dict.get?_set_ne _ _ (Ne.symm hne)).symm, ?_, (watermark_ne s (Ne.symm hne) _).symm⟩, ?_⟩
    · rw [Behavior.Worker.buffered, Behavior.Worker.buffered]
      dsimp only [Behavior.Worker.turn, Behavior.Worker.onDetection]
      rw [Dict.get?_erase_ne _ (Ne.symm hne)]
    · dsimp only [Behavior.Worker.callsOf]
      rw [if_neg hne]

/-- The calls of a camera's FSM, and what the camera can tell of the worker, depend on what
it sees. -/
theorem unwinding_behavior (h : Host) (w : Settings) (cam : String) :
    Mealy.Unwinding (fun s i => ((s.turn h w i).1, Behavior.Worker.callsOf w cam s i))
      (sight (·.cameraId) (·.cameraId) cam) some (SameBehavior cam) where
  equiv := sameBehavior_equiv cam
  hidden s i hi := by
    obtain ⟨hsame, hcalls⟩ := same_hidden (h := h) (w := w) s hi
    exact ⟨hsame, by rw [hcalls]; rfl⟩
  seen s t i j a hst hi hj := by
    rcases sight_same hi hj with
      ⟨x, x', e, e', rfl, rfl, hdata, hcam⟩ | ⟨x, e, e', rfl, rfl, hdata, hcam⟩ | ⟨x, rfl, rfl⟩
    · exact ⟨same_onAssoc hst hdata hcam, rfl⟩
    · have hsame := same_onDetection (h := h) (w := w) hst hcam
      refine ⟨?_, ?_⟩
      · dsimp only [Behavior.Worker.turn]
        rw [← hdata]
        exact hsame
      · dsimp only [Behavior.Worker.callsOf]
        rw [← hdata, if_pos hcam, if_pos hcam, hst.confirmer, hst.buffered]
    · exact ⟨same_onIdle hst, rfl⟩

/-- The calls of a run, made one turn at a time. -/
theorem flatten_callsOf (h : Host) (w : Settings) (cam : String) (s : Behavior.Worker)
    (is : List (Unit × Item AssociationEvent DetectionEvent)) :
    (Mealy.outs (fun s i => ((s.turn h w i).1, Behavior.Worker.callsOf w cam s i)) s is).flatten =
      Behavior.Worker.fsmCalls h w cam s is := by
  induction is generalizing s with
  | nil => rfl
  | cons i is ih => rw [Mealy.outs_cons, List.flatten_cons, ih, Behavior.Worker.fsmCalls]

/-! ## The risk worker -/

/-- The operations of a camera's engine depend on what the camera sees: the worker keeps
nothing else of them than when it pruned. -/
theorem unwinding_risk (h : Host) (w : Settings) (cam : String) :
    Mealy.Unwinding (fun s i => ((s.turn h w i).1, Risk.Worker.opsOf cam s i))
      (sight (·.cameraId) (·.cameraId) cam) some (fun s t => s.lastPrune = t.lastPrune) where
  equiv := ⟨fun _ => rfl, Eq.symm, Eq.trans⟩
  hidden s i hi := by
    rcases sight_none hi with ⟨x, e, rfl, hne⟩ | ⟨x, e, rfl, hne⟩
    · refine ⟨rfl, ?_⟩
      dsimp only [Risk.Worker.opsOf]
      rw [if_neg hne]
      rfl
    · refine ⟨rfl, ?_⟩
      dsimp only [Risk.Worker.opsOf]
      rw [if_neg hne]
      rfl
  seen s t i j a hst hi hj := by
    rcases sight_same hi hj with
      ⟨x, x', e, e', rfl, rfl, hdata, hcam⟩ | ⟨x, e, e', rfl, rfl, hdata, hcam⟩ | ⟨x, rfl, rfl⟩
    · exact ⟨hst, by dsimp only [Risk.Worker.opsOf]; rw [hdata]⟩
    · exact ⟨hst, by dsimp only [Risk.Worker.opsOf]; rw [hdata]⟩
    · dsimp only [Risk.Worker.opsOf, Risk.Worker.turn, Risk.Worker.onIdle]
      rw [hst]
      refine ⟨?_, rfl⟩
      split
      · rfl
      · exact hst

theorem flatten_opsOf (h : Host) (w : Settings) (cam : String) (s : Risk.Worker)
    (is : List (HostCalls × Item ShopFormerScore BehaviorEvent)) :
    (Mealy.outs (fun s i => ((s.turn h w i).1, Risk.Worker.opsOf cam s i)) s is).flatten =
      Risk.Worker.ops h w cam s is := by
  induction is generalizing s with
  | nil => rfl
  | cons i is ih => rw [Mealy.outs_cons, List.flatten_cons, ih, Risk.Worker.ops]

/-! ## The services -/

/-- The behaviour events of camera `cam` that turns publish. -/
def behaviorEventsOf (cam : String) (outs : List Behavior.WorkerOut) : List BehaviorEvent :=
  (outs.flatMap (·.published)).filter (·.cameraId = cam)

/-- What each service publishes for camera `cam` is the same in any two runs in which the
camera sees the same. -/
structure Isolated (h : Host) (w : Settings) (loadZones : String → List ZoneConfig) (cam : String) : Prop where
  association : ∀ frames frames' : List DetectionEvent,
    frames.filter (·.cameraId = cam) = frames'.filter (·.cameraId = cam) →
    (Mealy.outs (runConsumer h w loadZones) Dict.empty frames).flatten.filter (·.cameraId = cam) =
      (Mealy.outs (runConsumer h w loadZones) Dict.empty frames').flatten.filter (·.cameraId = cam)
  behavior : ∀ is js : List (Unit × Item AssociationEvent DetectionEvent),
    is.filterMap (sight (·.cameraId) (·.cameraId) cam) = js.filterMap (sight (·.cameraId) (·.cameraId) cam) →
    behaviorEventsOf cam (Mealy.outs (Behavior.Worker.turn h w) {} is) =
      behaviorEventsOf cam (Mealy.outs (Behavior.Worker.turn h w) {} js)
  risk : ∀ (lastPrune : ℚ) (is js : List (HostCalls × Item ShopFormerScore BehaviorEvent)),
    is.filterMap (sight (·.cameraId) (·.cameraId) cam) = js.filterMap (sight (·.cameraId) (·.cameraId) cam) →
    Risk.Worker.published cam (Mealy.outs (Risk.Worker.turn h w) { lastPrune } is) =
      Risk.Worker.published cam (Mealy.outs (Risk.Worker.turn h w) { lastPrune } js)

/-- No camera changes what another one is told. -/
theorem services_isolated (h : Host) (w : Settings) (loadZones : String → List ZoneConfig) (cam : String) :
    Isolated h w loadZones cam := by
  constructor
  · intro frames frames' hframes
    rw [published_association, published_association, hframes]
  · intro is js hsight
    have hcalls := ((unwinding_behavior h w cam).run ((sameBehavior_equiv cam).refl {}) hsight).2
    rw [List.filterMap_some, List.filterMap_some, flatten_callsOf, flatten_callsOf] at hcalls
    rw [behaviorEventsOf, behaviorEventsOf, (Behavior.Worker.run_fsm Behavior.Worker.named_init is cam).2,
      (Behavior.Worker.run_fsm Behavior.Worker.named_init js cam).2, hcalls]
  · intro lastPrune is js hsight
    have hops := ((unwinding_risk h w cam).run (s := { lastPrune }) (t := { lastPrune }) rfl hsight).2
    rw [List.filterMap_some, List.filterMap_some, flatten_opsOf, flatten_opsOf] at hops
    rw [(Risk.Worker.run_engine _ is cam).2, (Risk.Worker.run_engine _ js cam).2, hops]

end Netra.Pipeline
