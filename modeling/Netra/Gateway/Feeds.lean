import Netra.Lib.Feed
import Netra.Wire.Reference
/-!
# The live feeds

`WebSocketManager._reader_loop` (`backend/gateway/ws_router.py`) reads the
behaviour events and the incidents in turn, an error of a read like an empty
answer. The `event_generator` of `stream_incidents` (`backend/gateway/main.py`)
reads the incidents, and an error ends it. An incident appended while the id is
still `$` and no read is in progress is in no later answer.
-/
namespace Netra

open PyLib Wire

namespace Gateway

section
variable (py : PyText)

/-! ## What is made of an entry -/

/-- The `msg` of an incident. -/
def incidentMessage (ev : IncidentEvent) : Json := .obj [
  ("type", .str "incident"),
  ("camera_id", .str ev.cameraId),
  ("track_id", .int ev.trackId),
  ("risk", .float ev.riskScore),
  ("fsm_state", .str (StrEnum.value ev.theftStage)),
  ("ts", .float ev.timestamp),
  ("incident_id", .str ev.incidentId),
  ("severity", .str (StrEnum.value ev.severity)),
  ("theft_stage", .str (StrEnum.value ev.theftStage)),
  ("concealment", .str (StrEnum.value ev.concealmentType))]

/-- The arguments of `_enqueue`, unless decoding raises. -/
def enqueueArgs (d : Message) : Option (Json × String) :=
  (decodeIncidentEvent py d).map fun ev => (incidentMessage ev, ev.cameraId)

/-- The `payload` of an incident. -/
def incidentPayload (ev : IncidentEvent) : Json := .obj [
  ("incident_id", .str ev.incidentId),
  ("camera_id", .str ev.cameraId),
  ("track_id", .int ev.trackId),
  ("risk_score", .float ev.riskScore),
  ("severity", .str (StrEnum.value ev.severity)),
  ("theft_stage", .str (StrEnum.value ev.theftStage)),
  ("concealment", .str (StrEnum.value ev.concealmentType)),
  ("timestamp", .float ev.timestamp)]

/-- What is yielded, unless decoding raises. -/
def yielded (d : Message) : Option String :=
  (decodeIncidentEvent py d).map fun ev => "data: " ++ py.dumps (incidentPayload ev) ++ "\n\n"

/-! ## `_reader_loop` -/

/-- The `xread` the loop comes to next, or is in. -/
inductive Turn where
  | behavior
  | incidents

/-- `last_beh` and `last_inc` are the cursors of the two feeds. The risk score that
goes with a behaviour event is left out. -/
structure Reader where
  behavior : Feed.State Message BehaviorEvent
  incidents : Feed.State Message (Json × String)
  turn : Turn

namespace Reader

inductive Action where
  | appendBehavior (m : Message)
  | appendIncident (m : Message)
  /-- the next `xread` begins -/
  | call
  | reply
  /-- the `xread` raises, and its answer is taken to be `[]` -/
  | fail

def init : Reader := ⟨.init _ _, .init _ _, .behavior⟩

def behaviorStep : Feed.State Message BehaviorEvent → Feed.Action Message → Feed.State Message BehaviorEvent :=
  Feed.step 50 (decodeBehaviorEvent py)

def incidentsStep : Feed.State Message (Json × String) → Feed.Action Message → Feed.State Message (Json × String) :=
  Feed.step 20 (enqueueArgs py)

/-- The end of the `xread` in progress, and the other stream's turn. -/
def finish (a : Feed.Action Message) (r : Reader) : Reader :=
  match r.turn with
  | .behavior =>
    if r.behavior.waiting.isNone then r
    else { r with behavior := behaviorStep py r.behavior a, turn := .incidents }
  | .incidents =>
    if r.incidents.waiting.isNone then r
    else { r with incidents := incidentsStep py r.incidents a, turn := .behavior }

def step (r : Reader) : Action → Reader × Unit
  | .appendBehavior m => ({ r with behavior := behaviorStep py r.behavior (.append m) }, ())
  | .appendIncident m => ({ r with incidents := incidentsStep py r.incidents (.append m) }, ())
  | .call =>
    match r.turn with
    | .behavior => ({ r with behavior := behaviorStep py r.behavior .call }, ())
    | .incidents => ({ r with incidents := incidentsStep py r.incidents .call }, ())
  | .reply => (r.finish py .reply, ())
  | .fail => (r.finish py .fail, ())

/-- `n` reads, each answered. -/
def readOn (n : Nat) : List Action := (List.replicate n [.call, .reply]).flatten

/-- What an action is to the incidents. -/
def incidentAction (r : Reader) : Action → Option (Feed.Action Message)
  | .appendBehavior _ => none
  | .appendIncident m => some (.append m)
  | .call => match r.turn with | .behavior => none | .incidents => some .call
  | .reply => match r.turn with | .behavior => none | .incidents => some .reply
  | .fail => match r.turn with | .behavior => none | .incidents => some .fail

/-- An action that loses no incident. -/
def Keeps (r : Reader) (a : Action) : Prop :=
  ∀ b, r.incidentAction a = some b → Feed.Keeps (enqueueArgs py) r.incidents b

/-- Once the loop reads on, every incident appended since its first read of them
has been passed to `_enqueue` if it can be decoded: once, and in order. -/
def MissesNothing (as : List Action) : Prop :=
  let r := Mealy.after (step py) init as
  (Mealy.after (step py) r (readOn (2 * r.incidents.log.length))).incidents.handed =
    Feed.due (enqueueArgs py) r.incidents

end Reader

/-! ## `event_generator` -/

namespace Generator

/-- Up to the end of the generator. -/
inductive Action where
  | append (m : Message)
  | call
  | reply

def Action.toFeed : Action → Feed.Action Message
  | .append m => .append m
  | .call => .call
  | .reply => .reply

def step (s : Feed.State Message String) (a : Action) : Feed.State Message String × Unit :=
  (Feed.step 10 (yielded py) s a.toFeed, ())

def readOn (n : Nat) : List Action := (List.replicate n [.call, .reply]).flatten

def Keeps (s : Feed.State Message String) (a : Action) : Prop := Feed.Keeps (yielded py) s a.toFeed

/-- Once the generator reads on, every incident appended since its first read has
been yielded if it can be decoded: once, and in order. -/
def MissesNothing (as : List Action) : Prop :=
  let s := Mealy.after (step py) (.init _ _) as
  (Mealy.after (step py) s (readOn s.log.length)).handed = Feed.due (yielded py) s

end Generator

end

variable {py : PyText}

/-! ## The reads of the reader loop -/

namespace Reader

theorem incidents_step (r : Reader) (a : Action) :
    (step py r a).1.incidents =
      match r.incidentAction a with
      | none => r.incidents
      | some b => incidentsStep py r.incidents b := by
  -- the end of a read that is not in progress changes nothing
  have hidle (b : Feed.Action Message) (hb : b = .reply ∨ b = .fail) (hw : r.incidents.waiting.isNone = true) :
      incidentsStep py r.incidents b = r.incidents := by
    rw [Option.isNone_iff_eq_none] at hw
    rcases hb with rfl | rfl
    · simp only [incidentsStep, Feed.step, hw]
    · rw [incidentsStep, Feed.step, ← hw]
  cases a with
  | appendBehavior m => rfl
  | appendIncident m => rfl
  | call => cases ht : r.turn <;> simp only [step, incidentAction, ht]
  | reply =>
    cases ht : r.turn with
    | behavior =>
      simp only [step, finish, incidentAction, ht]
      split <;> rfl
    | incidents =>
      simp only [step, finish, incidentAction, ht]
      split
      · rename_i hw
        exact (hidle _ (.inl rfl) hw).symm
      · rfl
  | fail =>
    cases ht : r.turn with
    | behavior =>
      simp only [step, finish, incidentAction, ht]
      split <;> rfl
    | incidents =>
      simp only [step, finish, incidentAction, ht]
      split
      · rename_i hw
        exact (hidle _ (.inr rfl) hw).symm
      · rfl

theorem grounded_step {r : Reader} (h : Feed.Grounded (enqueueArgs py) r.incidents) (a : Action) :
    Feed.Grounded (enqueueArgs py) (step py r a).1.incidents := by
  rw [incidents_step]
  cases r.incidentAction a with
  | none => exact h
  | some b => exact h.step (by decide) b

theorem settled_step {r : Reader} (h : Feed.Grounded (enqueueArgs py) r.incidents) (a : Action) :
    Feed.Settled (enqueueArgs py) (step py r a).1.incidents ↔
      Feed.Settled (enqueueArgs py) r.incidents ∧ r.Keeps py a := by
  rw [incidents_step, Keeps]
  cases ha : r.incidentAction a with
  | none => exact (and_iff_left nofun).symm
  | some b =>
    refine (Feed.settled_step (by decide) h b).trans (and_congr_right fun _ => ?_)
    exact ⟨fun hb b' he => Option.some.inj he ▸ hb, fun hb => hb b rfl⟩

theorem read_behavior {r : Reader} (ht : r.turn = .behavior) :
    Mealy.after (step py) r [.call, .reply] =
      ⟨r.behavior.turn 50 (decodeBehaviorEvent py), r.incidents, .incidents⟩ := by
  have hwait : (Feed.step 50 (decodeBehaviorEvent py) r.behavior .call).waiting = some r.behavior.next :=
    Feed.waiting_call
  simp only [Mealy.after_cons, Mealy.after_nil, step, finish, ht, behaviorStep, hwait]
  rfl

theorem read_incidents {r : Reader} (ht : r.turn = .incidents) :
    Mealy.after (step py) r [.call, .reply] =
      ⟨r.behavior, r.incidents.turn 20 (enqueueArgs py), .behavior⟩ := by
  have hwait : (Feed.step 20 (enqueueArgs py) r.incidents .call).waiting = some r.incidents.next :=
    Feed.waiting_call
  simp only [Mealy.after_cons, Mealy.after_nil, step, finish, ht, incidentsStep, hwait]
  rfl

/-- The next two reads of the loop, one of each stream. -/
theorem incidents_twoReads (r : Reader) :
    (Mealy.after (step py) r ([.call, .reply] ++ [.call, .reply])).incidents =
      r.incidents.turn 20 (enqueueArgs py) := by
  rw [Mealy.after_append]
  cases ht : r.turn with
  | behavior => rw [read_behavior ht, read_incidents rfl]
  | incidents => rw [read_incidents ht, read_behavior rfl]

theorem incidents_readOn (r : Reader) (n : Nat) :
    (Mealy.after (step py) r (readOn (2 * n))).incidents =
      Feed.after 20 (enqueueArgs py) r.incidents (Feed.readOn Message n) := by
  induction n generalizing r with
  | zero => rfl
  | succ n ih =>
    have htwo : readOn (2 * (n + 1)) = ([.call, .reply] ++ [.call, .reply]) ++ readOn (2 * n) := by
      rw [Nat.mul_succ, readOn, readOn, List.replicate_succ, List.replicate_succ]
      rfl
    rw [htwo, Mealy.after_append, ih, incidents_twoReads, Feed.readOn_succ]
    rfl

/-- Incidents are missed in just the runs in which one that can be decoded is
appended while the loop, after its first read of them, holds no id and is not
reading them, or such a read fails over one. -/
theorem missesNothing_iff (py : PyText) (as : List Action) :
    MissesNothing py as ↔ Mealy.Always (step py) (Keeps py) init as := by
  have hgrounded : Feed.Grounded (enqueueArgs py) (Mealy.after (step py) init as).incidents :=
    Mealy.after_inv (step py) (fun r => Feed.Grounded (enqueueArgs py) r.incidents) init Feed.Grounded.init
      (fun _ a h => grounded_step h a) as
  have hsettled : Feed.Settled (enqueueArgs py) init.incidents := rfl
  unfold MissesNothing
  dsimp only
  rw [incidents_readOn, Feed.handed_readOn_iff (by decide) hgrounded]
  exact Mealy.always_iff (I := fun r : Reader => Feed.Settled (enqueueArgs py) r.incidents)
    (fun _ a h => grounded_step h a)
    (fun _ a h => settled_step h a) Feed.Grounded.init hsettled as

end Reader

/-! ## The reads of the generator -/

namespace Generator

theorem after_readOn (s : Feed.State Message String) (n : Nat) :
    Mealy.after (step py) s (readOn n) = Feed.after 10 (yielded py) s (Feed.readOn Message n) := by
  induction n generalizing s with
  | zero => rfl
  | succ n ih =>
    have hone : readOn (n + 1) = [.call, .reply] ++ readOn n := by
      rw [readOn, readOn, List.replicate_succ]
      rfl
    rw [hone, Mealy.after_append, ih, Feed.readOn_succ]
    rfl

theorem missesNothing_iff (py : PyText) (as : List Action) :
    MissesNothing py as ↔ Mealy.Always (step py) (Keeps py) (.init _ _) as := by
  have hstep (s : Feed.State Message String) (a : Action) (h : Feed.Grounded (yielded py) s) :
      Feed.Grounded (yielded py) (step py s a).1 := h.step (by decide) a.toFeed
  unfold MissesNothing
  dsimp only
  rw [after_readOn, Feed.handed_readOn_iff (by decide) (Mealy.after_inv (step py) _ _ Feed.Grounded.init hstep as)]
  exact Mealy.always_iff (I := Feed.Settled (yielded py)) hstep
    (fun _ a h => Feed.settled_step (by decide) h a.toFeed) Feed.Grounded.init rfl as

end Generator

/-- The reader loop and the generator miss an incident in just the runs in which
one that can be decoded is appended in a gap of `$`. -/
theorem feeds_miss_nothing_iff (py : PyText) :
    (∀ as, Reader.MissesNothing py as ↔ Mealy.Always (Reader.step py) (Reader.Keeps py) Reader.init as) ∧
      ∀ as, Generator.MissesNothing py as ↔ Mealy.Always (Generator.step py) (Generator.Keeps py) (.init _ _) as :=
  ⟨Reader.missesNothing_iff py, Generator.missesNothing_iff py⟩

/-- An incident as the risk service writes it. -/
def concealed : IncidentEvent := {
  incidentId := "inc_1", cameraId := "cam-01", trackId := 1, riskScore := 1, fsmScore := 1, shopformerScore := 1,
  theftStage := .concealment, concealmentType := .none, severity := .high, timestamp := 1 }

/-- A round of the loop without an entry, and then an incident while it reads the
behaviour events. -/
def incidentInGap (d : Message) : List Reader.Action := [.call, .reply, .call, .reply, .call, .appendIncident d]

theorem feeds_miss_nothing_fails :
    (¬ ∀ (py : PyText) (as : List Reader.Action), Reader.MissesNothing py as) ∧
      ¬ ∀ (py : PyText) (as : List Generator.Action), Generator.MissesNothing py as := by
  have hdecodes : decodeIncidentEvent .reference (encodeIncidentEvent .reference concealed) ≠ none := by
    rw [decode_encodeIncidentEvent]
    exact Option.some_ne_none _
  constructor
  · intro hall
    have hkeeps := (Reader.missesNothing_iff .reference _).1
      (hall .reference (incidentInGap (encodeIncidentEvent .reference concealed)))
    have happend := hkeeps.2.2.2.2.2.1 _ rfl ⟨nofun, rfl, rfl⟩
    exact hdecodes (Option.map_eq_none_iff.1 happend)
  · intro hall
    have hkeeps := (Generator.missesNothing_iff .reference _).1
      (hall .reference [.call, .reply, .append (encodeIncidentEvent .reference concealed)])
    have happend := hkeeps.2.2.1 ⟨nofun, rfl, rfl⟩
    exact hdecodes (Option.map_eq_none_iff.1 happend)

end Gateway

end Netra
