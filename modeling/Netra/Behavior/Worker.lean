import Netra.Lib.Consumer
import Netra.Behavior.Confirmation
import Netra.Behavior.Runs
/-!
# The behaviour worker (`backend/services/behavior/main.py`)

`run` buffers association events per camera and gives them, with the next
detection frame of the camera, to the confirmation buffer and the FSM. In the
buffers every event keeps the entry it came in; nothing reads the id. `run_fsm`
says that what the worker does for one camera is a run of that camera's FSM.
-/
namespace Netra.Behavior

open PyLib RedisStream

/-- A decoded detection message. -/
structure DetectionEvent where
  cameraId : String
  persons : List PersonDetection
  items : List ItemDetection
  frameSeq : Int
  timestamp : ℚ

/-- The locals of `run`. -/
structure Worker where
  fsms : Dict String TheftRiskFSM := Dict.empty
  confirmers : Dict String SignalConfirmationBuffer := Dict.empty
  assocBuffer : Dict String (List (Entry AssociationEvent)) := Dict.empty
  latestEventTs : Dict String ℚ := Dict.empty

/-- What a turn hands to `_update`, call by call, and publishes. -/
structure WorkerOut where
  calls : List (PersonDetection × List (Entry AssociationEvent)) := []
  published : List BehaviorEvent := []

namespace SignalConfirmationBuffer

/-- `eventTurn`, on the event of an entry. -/
def entryTurn (cameraId : String) (now : ℚ) (b : SignalConfirmationBuffer) (e : Entry AssociationEvent) :
    SignalConfirmationBuffer × List (Entry AssociationEvent) :=
  let r := eventTurn cameraId now b e.data
  (r.1, r.2.map fun _ => e)

/-- `filter`, on the events of entries. -/
def filterEntries (b : SignalConfirmationBuffer) (entries : List (Entry AssociationEvent)) (cameraId : String)
    (eventTime : ℚ) : SignalConfirmationBuffer × List (Entry AssociationEvent) :=
  ((b.filter (entries.map (·.data)) cameraId eventTime).1,
   if b.required ≤ 1 then entries else (Mealy.outs (entryTurn cameraId eventTime) b entries).flatten)

theorem entryTurn_data (cameraId : String) (now : ℚ) (b : SignalConfirmationBuffer) (e : Entry AssociationEvent) :
    (entryTurn cameraId now b e).2.map (·.data) = (eventTurn cameraId now b e.data).2 := by
  have hpass (c : Prop) [Decidable c] :
      ((if c then [e.data] else []).map fun _ => e).map (·.data) = if c then [e.data] else [] := by
    split <;> rfl
  exact hpass _

/-- The entries that pass carry the events that pass. -/
theorem filterEntries_data (b : SignalConfirmationBuffer) (entries : List (Entry AssociationEvent))
    (cameraId : String) (eventTime : ℚ) :
    (b.filterEntries entries cameraId eventTime).2.map (·.data) =
      (b.filter (entries.map (·.data)) cameraId eventTime).2 := by
  have hvotes : (Mealy.outs (entryTurn cameraId eventTime) b entries).flatten.map (·.data) =
      (Mealy.outs (eventTurn cameraId eventTime) b (entries.map (·.data))).flatten := by
    induction entries generalizing b with
    | nil => rfl
    | cons e entries ih =>
      have hnext : (entryTurn cameraId eventTime b e).1 = (eventTurn cameraId eventTime b e.data).1 := rfl
      rw [List.map_cons, Mealy.outs_cons, Mealy.outs_cons, List.flatten_cons, List.flatten_cons, List.map_append,
        entryTurn_data, ih, hnext]
  unfold filterEntries filter
  split
  · rfl
  · exact hvotes

end SignalConfirmationBuffer

namespace Worker

/-- `assoc_buffer[camera_id]`, empty where there is none. -/
def buffered (s : Worker) (cameraId : String) : List (Entry AssociationEvent) :=
  (s.assocBuffer.get? cameraId).getD []

def onAssoc (s : Worker) (e : Entry AssociationEvent) : Worker :=
  { s with assocBuffer := s.assocBuffer.set e.data.cameraId (s.buffered e.data.cameraId ++ [e]) }

/-- The latest event time seen per camera. -/
def watermark (latestEventTs : Dict String ℚ) (cameraId : String) (timestamp : ℚ) : Dict String ℚ :=
  -- `latest_event_ts.get(camera_id, 0.0)`; it never goes back.
  if (latestEventTs.get? cameraId).getD 0 < timestamp then latestEventTs.set cameraId timestamp
  else latestEventTs

/-- An empty poll: drop what is 2 s or more behind the watermark. -/
def onIdle (s : Worker) : Worker :=
  { s with assocBuffer := s.assocBuffer.mapValues fun cam buf =>
      match s.latestEventTs.get? cam with
      | some refTs => buf.filter fun e => refTs - e.data.timestamp < 2
      | none => buf }

section
variable (h : Host) (w : Settings)

def onDetection (s : Worker) (d : DetectionEvent) : Worker × WorkerOut :=
  let fsm := (s.fsms.get? d.cameraId).getD { cameraId := d.cameraId }
  -- Take the buffered events of this camera, flush the buffer.
  let assoc := s.buffered d.cameraId
  let confirmer := (s.confirmers.get? d.cameraId).getD (.ofSettings w)
  let (confirmer, confirmed) := confirmer.filterEntries assoc d.cameraId d.timestamp
  let (fsm, events) := fsm.process h w d.persons (confirmed.map (·.data)) d.timestamp
  ({ fsms := s.fsms.set d.cameraId fsm
     confirmers := s.confirmers.set d.cameraId confirmer
     assocBuffer := s.assocBuffer.erase d.cameraId
     latestEventTs := watermark s.latestEventTs d.cameraId d.timestamp },
   { calls := d.persons.map fun p => (p, confirmed.filter (·.data.trackId = p.trackId)), published := events })

def turn (s : Worker) : Unit × Item AssociationEvent DetectionEvent → Worker × WorkerOut
  | (_, .side e) => (s.onAssoc e, {})
  | (_, .main e) => s.onDetection h w e.data
  | (_, .idle) => (s.onIdle, {})

/-- `run`, on `netra:association` and `netra:detection`. -/
def run : Consumer Worker Unit AssociationEvent DetectionEvent WorkerOut where
  sideCount := 50
  mainCount := 10
  turn := turn h w

end

/-! ## The FSM of one camera -/

/-- `fsms.setdefault(camera_id, TheftRiskFSM(camera_id))` -/
def fsm (s : Worker) (cameraId : String) : TheftRiskFSM := (s.fsms.get? cameraId).getD { cameraId }

/-- What a turn is to the FSM of camera `cam`. -/
def callsOf (w : Settings) (cam : String) (s : Worker) :
    Unit × Item AssociationEvent DetectionEvent → List TheftRiskFSM.Call
  | (_, .main e) =>
    if e.data.cameraId = cam then
      let confirmer := (s.confirmers.get? cam).getD (.ofSettings w)
      [⟨e.data.persons, (confirmer.filter ((s.buffered cam).map (·.data)) cam e.data.timestamp).2,
        e.data.timestamp⟩]
    else []
  | _ => []

/-- What the turns `is` are to it, from `s` on. -/
def fsmCalls (h : Host) (w : Settings) (cam : String) (s : Worker) :
    List (Unit × Item AssociationEvent DetectionEvent) → List TheftRiskFSM.Call
  | [] => []
  | i :: is => callsOf w cam s i ++ fsmCalls h w cam (s.turn h w i).1 is

/-- Every FSM of the worker has the id of its camera. -/
def Named (s : Worker) : Prop := ∀ cam, (s.fsm cam).cameraId = cam

theorem named_init : ({} : Worker).Named := fun _ => rfl

variable {h : Host} {w : Settings}

/-- A frame of camera `cam` is one call of `process`. -/
theorem onDetection_fsm (s : Worker) (d : DetectionEvent) :
    let confirmer := (s.confirmers.get? d.cameraId).getD (.ofSettings w)
    let call : TheftRiskFSM.Call :=
      ⟨d.persons, (confirmer.filter ((s.buffered d.cameraId).map (·.data)) d.cameraId d.timestamp).2, d.timestamp⟩
    (∀ cam, (s.onDetection h w d).1.fsm cam =
      if d.cameraId = cam then ((s.fsm d.cameraId).step h w call).1 else s.fsm cam) ∧
      (s.onDetection h w d).2.published = ((s.fsm d.cameraId).step h w call).2 := by
  intro confirmer call
  have hcall : call.assoc =
      (confirmer.filterEntries (s.buffered d.cameraId) d.cameraId d.timestamp).2.map (·.data) :=
    (SignalConfirmationBuffer.filterEntries_data ..).symm
  unfold TheftRiskFSM.step
  rw [hcall]
  constructor
  · intro cam
    -- the FSM of the frame's camera is stored, the others stay
    unfold fsm onDetection
    dsimp only
    rw [Dict.get?_set]
    by_cases hcam : d.cameraId = cam
    · subst hcam
      rw [if_pos rfl, if_pos rfl]
      rfl
    · rw [if_neg hcam, if_neg (Ne.symm hcam)]
  · rfl

theorem named_turn {s : Worker} (hs : s.Named) (i : Unit × Item AssociationEvent DetectionEvent) :
    (s.turn h w i).1.Named := by
  obtain ⟨x, item⟩ := i
  cases item with
  | side e => exact hs
  | idle => exact hs
  | main e =>
    intro cam
    have hfsm : (s.turn h w (x, .main e)).1.fsm cam = _ := (onDetection_fsm s e.data).1 cam
    rw [hfsm]
    split
    · rename_i hcam
      exact (hs e.data.cameraId).trans hcam
    · exact hs cam

/-- What the worker does for camera `cam` is a run of the camera's FSM. -/
theorem run_fsm {s : Worker} (hs : s.Named) (is : List (Unit × Item AssociationEvent DetectionEvent))
    (cam : String) :
    (Mealy.after (turn h w) s is).fsm cam =
        Mealy.after (TheftRiskFSM.step h w) (s.fsm cam) (s.fsmCalls h w cam is) ∧
      ((Mealy.outs (turn h w) s is).flatMap (·.published)).filter (·.cameraId = cam) =
        (Mealy.outs (TheftRiskFSM.step h w) (s.fsm cam) (s.fsmCalls h w cam is)).flatten := by
  induction is generalizing s with
  | nil => exact ⟨rfl, rfl⟩
  | cons i is ih =>
    have hturn : (s.turn h w i).1.fsm cam =
          Mealy.after (TheftRiskFSM.step h w) (s.fsm cam) (callsOf w cam s i) ∧
        (s.turn h w i).2.published.filter (·.cameraId = cam) =
          (Mealy.outs (TheftRiskFSM.step h w) (s.fsm cam) (callsOf w cam s i)).flatten := by
      obtain ⟨x, item⟩ := i
      cases item with
      | side e => exact ⟨rfl, rfl⟩
      | idle => exact ⟨rfl, rfl⟩
      | main e =>
        obtain ⟨hfsm, hpub⟩ := onDetection_fsm (h := h) (w := w) s e.data
        -- a frame publishes under its own camera only
        have htag : ∀ bev ∈ (s.onDetection h w e.data).2.published, bev.cameraId = e.data.cameraId := by
          rw [hpub]
          intro bev hbev
          rw [TheftRiskFSM.cameraId_of_mem hbev]
          exact hs e.data.cameraId
        have hfsm' : (s.turn h w (x, .main e)).1.fsm cam = _ := hfsm cam
        have hpub' : (s.turn h w (x, .main e)).2.published = (s.onDetection h w e.data).2.published := rfl
        unfold callsOf
        dsimp only
        rw [hfsm', hpub']
        by_cases hcam : e.data.cameraId = cam
        · subst hcam
          rw [if_pos rfl, if_pos rfl, List.filter_eq_self.2 (by simpa using htag), hpub]
          exact ⟨rfl, (List.append_nil _).symm⟩
        · have hnone : (s.onDetection h w e.data).2.published.filter (·.cameraId = cam) = [] := by
            refine List.filter_eq_nil_iff.2 fun bev hbev => ?_
            simpa [htag bev hbev] using hcam
          rw [if_neg hcam, if_neg hcam, hnone]
          exact ⟨rfl, rfl⟩
    obtain ⟨hfsm, hpub⟩ := ih (named_turn (h := h) (w := w) hs i)
    rw [hturn.1] at hfsm hpub
    constructor
    · rw [Mealy.after_cons, hfsm, fsmCalls, Mealy.after_append]
    · rw [Mealy.outs_cons, List.flatMap_cons, List.filter_append, hpub, hturn.2, fsmCalls, Mealy.outs_append,
        List.flatten_append]

end Worker

end Netra.Behavior
