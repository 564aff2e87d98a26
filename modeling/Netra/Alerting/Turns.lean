import Netra.Alerting.Worker
/-!
# The turns of the alerting worker

The worker one `await` at a time: the call of `try_dispatch`, each `ch.send` and the
`xack` are a step each, and a restart (SIGTERM cancels `run` wherever it waits) can come
between any two. It leaves the entry in hand unacknowledged, and an alert that the
limiter has counted may not have reached every channel (`alerting_run`). With nothing in
between the steps come to a turn of `Worker` (`turn_steps`).
-/
namespace Netra

open PyLib Wire RedisStream

namespace Alerting

/-- What is next in the turn of an entry. -/
inductive Phase where
  /-- the rest of `dispatch` -/
  | sending (incident : IncidentEvent) (todo : List Channel)
  /-- `xack`, with nothing sent -/
  | silent
  deriving DecidableEq

/-- A turn that is under way. -/
structure InTurn where
  entry : Entry Message
  phase : Phase

structure Sys where
  worker : Worker
  inTurn : Option InTurn
  /-- the entries read and not begun -/
  batch : List (Entry Message)
  stream : Stream Message

def Sys.init : Sys := ⟨.init, none, [], .empty⟩

inductive Action where
  /-- the next `await` of `run`, and what it meets -/
  | work (x : Meets)
  /-- a producer's `xadd` -/
  | add (m : Message)
  | restart

inductive Event where
  | nothing
  /-- `decode_incident_event` raised, and the entry is acknowledged -/
  | unreadable (e : Entry Message)
  /-- `try_dispatch` raised -/
  | raised (e : Entry Message)
  | called (e : Entry Message) (incident : IncidentEvent) (c : Call) (allowed : Bool)
  | sent (s : Send)
  | acked (t : InTurn)
  /-- a restart ended the turn -/
  | cut (t : InTurn)

section
variable (py : PyText) (cd : CameraAlertCooldown) (channels : List Channel)

/-- The turn of the entry `e` up to its first `await`. -/
def Sys.start (s : Sys) (x : Meets) (e : Entry Message) (batch : List (Entry Message)) : Sys × Event :=
  match decodeIncidentEvent py e.data with
  | none => ({ s with worker := s.worker.ack e.id, batch }, .unreadable e)
  | some incident =>
    match x.script with
    | none => ({ s with inTurn := some ⟨e, .silent⟩, batch }, .raised e)
    | some (now, serverMs, random) =>
      let c : Call := ⟨incident.severity = .critical, now, serverMs, random⟩
      let (key, allowed) := cd.tryDispatch (s.worker.key incident.cameraId) c
      ({ s with
        worker := { s.worker with keys := s.worker.keys.set incident.cameraId key }
        inTurn := some ⟨e, if allowed then .sending incident channels else .silent⟩
        batch }, .called e incident c allowed)

def Sys.step (s : Sys) : Action → Sys × Event
  | .work x =>
    match s.inTurn with
    | none =>
      match s.batch with
      | [] => ({ s with batch := (s.stream.read 5).2, stream := (s.stream.read 5).1 }, .nothing)
      | e :: batch => s.start py cd channels x e batch
    | some ⟨e, .sending incident (ch :: todo)⟩ =>
      let send : Send := ⟨ch, incident, x.replies ch⟩
      ({ s with
        worker := { s.worker with sends := s.worker.sends ++ [send] }
        inTurn := some ⟨e, .sending incident todo⟩ }, .sent send)
    | some t => ({ s with worker := s.worker.ack t.entry.id, inTurn := none }, .acked t)
  | .add m => ({ s with stream := s.stream.add m }, .nothing)
  | .restart =>
    ({ s with inTurn := none, batch := [] }, match s.inTurn with
      | some t => .cut t
      | none => .nothing)

def Sys.after (acts : List Action) : Sys := Mealy.after (Sys.step py cd channels) .init acts

def Sys.events (acts : List Action) : List Event := Mealy.outs (Sys.step py cd channels) .init acts

end

/-! ## What a run leaves -/

namespace Phase

/-- The incident, if it is an alert. -/
def alert? : Phase → Option IncidentEvent
  | .sending incident _ => some incident
  | .silent => none

/-- The alert that the channel has been sent. -/
def heard? (channels : List Channel) (ch : Channel) : Phase → Option IncidentEvent
  | .sending incident todo => if ch ∈ channels ∧ ch ∉ todo then some incident else none
  | .silent => none

end Phase

namespace Event

/-- The entry whose turn begins. -/
def begun? : Event → Option (Entry Message)
  | .unreadable e | .raised e | .called e .. => some e
  | _ => none

/-- The entry whose turn ends. -/
def ended? : Event → Option (Entry Message)
  | .unreadable e => some e
  | .acked t | .cut t => some t.entry
  | _ => none

def acked? : Event → Option Nat
  | .unreadable e => some e.id
  | .acked t => some t.entry.id
  | _ => none

/-- The phase in which a turn ends. -/
def phase? : Event → Option Phase
  | .acked t | .cut t => some t.phase
  | _ => none

/-- The call of `try_dispatch` for a camera. -/
def callFor (cameraId : String) : Event → Option Call
  | .called _ incident c _ => if incident.cameraId = cameraId then some c else none
  | _ => none

/-- What the limiter let through. -/
def alert? : Event → Option (IncidentEvent × Call)
  | .called _ incident c true => some (incident, c)
  | _ => none

end Event

def begun (es : List Event) : List (Entry Message) := es.filterMap Event.begun?

def ended (es : List Event) : List (Entry Message) := es.filterMap Event.ended?

/-- The phases in which the turns ended. -/
def phases (es : List Event) : List Phase := es.filterMap Event.phase?

/-- The calls of `try_dispatch` for a camera, in order. -/
def callsFor (cameraId : String) (es : List Event) : List Call := es.filterMap (·.callFor cameraId)

def alerts (es : List Event) : List (IncidentEvent × Call) := es.filterMap Event.alert?

/-- The times of a camera's alerts. -/
def alertTimes (cameraId : String) (es : List Event) : List ℚ :=
  ((alerts es).filter (·.1.cameraId = cameraId)).map (·.2.now)

/-- What `ch.send` was called with, in order. -/
def sentOn (ch : Channel) (sends : List Send) : List IncidentEvent := (sends.filter (·.channel = ch)).map (·.incident)

/-- How far the turns so far came, the one under way included. -/
def reached (es : List Event) (s : Sys) : List Phase := phases es ++ (s.inTurn.map (·.phase)).toList

/-- What was begun, read or is still to be read. -/
def entries (es : List Event) (s : Sys) : List (Entry Message) := begun es ++ s.batch ++ s.stream.pending

/-! ## What a step can do -/

section
variable (py : PyText) (cd : CameraAlertCooldown) (channels : List Channel)

/-- `Sys.step` as a relation. -/
inductive Sys.Moves (s : Sys) : Action → Sys × Event → Prop
  | read {x : Meets} (hin : s.inTurn = none) (hbatch : s.batch = []) :
    Moves s (.work x) ({ s with batch := (s.stream.read 5).2, stream := (s.stream.read 5).1 }, .nothing)
  | unreadable {x : Meets} {e : Entry Message} {batch : List (Entry Message)} (hin : s.inTurn = none)
      (hbatch : s.batch = e :: batch) :
    Moves s (.work x) ({ s with worker := s.worker.ack e.id, batch }, .unreadable e)
  | raised {x : Meets} {e : Entry Message} {batch : List (Entry Message)} (hin : s.inTurn = none)
      (hbatch : s.batch = e :: batch) :
    Moves s (.work x) ({ s with inTurn := some ⟨e, .silent⟩, batch }, .raised e)
  | called {x : Meets} {e : Entry Message} {batch : List (Entry Message)} {incident : IncidentEvent} {c : Call}
      {key : WindowKey} {allowed : Bool} (hin : s.inTurn = none) (hbatch : s.batch = e :: batch)
      (hcall : cd.tryDispatch (s.worker.key incident.cameraId) c = (key, allowed)) :
    Moves s (.work x)
      ({ s with
        worker := { s.worker with keys := s.worker.keys.set incident.cameraId key }
        inTurn := some ⟨e, if allowed then .sending incident channels else .silent⟩
        batch }, .called e incident c allowed)
  | sent {x : Meets} {e : Entry Message} {incident : IncidentEvent} {ch : Channel} {todo : List Channel}
      (hin : s.inTurn = some ⟨e, .sending incident (ch :: todo)⟩) :
    Moves s (.work x)
      ({ s with
        worker := { s.worker with sends := s.worker.sends ++ [⟨ch, incident, x.replies ch⟩] }
        inTurn := some ⟨e, .sending incident todo⟩ }, .sent ⟨ch, incident, x.replies ch⟩)
  | acked {x : Meets} {t : InTurn} (hin : s.inTurn = some t)
      (hdone : ∀ incident todo, t.phase = .sending incident todo → todo = []) :
    Moves s (.work x) ({ s with worker := s.worker.ack t.entry.id, inTurn := none }, .acked t)
  | add {m : Message} : Moves s (.add m) ({ s with stream := s.stream.add m }, .nothing)
  | cut {t : InTurn} (hin : s.inTurn = some t) : Moves s .restart ({ s with inTurn := none, batch := [] }, .cut t)
  | restart (hin : s.inTurn = none) : Moves s .restart ({ s with inTurn := none, batch := [] }, .nothing)

theorem Sys.step_moves (s : Sys) (a : Action) : Moves cd channels s a (step py cd channels s a) := by
  cases a with
  | work x =>
    unfold step
    dsimp only
    split
    · split
      · exact .read ‹_› ‹_›
      · unfold start
        split
        · exact .unreadable ‹_› ‹_›
        · split
          · exact .raised ‹_› ‹_›
          · exact .called ‹_› ‹_› rfl
    · exact .sent ‹_›
    · rename_i t hno hin
      refine .acked hin fun incident todo hphase => ?_
      cases todo with
      | nil => rfl
      | cons ch todo => exact (hno t.entry incident ch todo (by rw [← hphase])).elim
  | add m => exact .add
  | restart =>
    unfold step
    dsimp only
    split
    · exact .cut ‹_›
    · exact .restart ‹_›

end

/-! ## A turn left alone -/

section
variable (py : PyText) (cd : CameraAlertCooldown) (channels : List Channel)

theorem dispatch_steps (w : Worker) (e : Entry Message) (incident : IncidentEvent) (todo : List Channel)
    (batch : List (Entry Message)) (stream : Stream Message) (x : Meets) :
    Mealy.after (Sys.step py cd channels) ⟨w, some ⟨e, .sending incident todo⟩, batch, stream⟩
        (List.replicate todo.length (.work x)) =
      ⟨{ w with sends := w.sends ++ Worker.dispatch todo incident x.replies }, some ⟨e, .sending incident []⟩, batch,
        stream⟩ := by
  induction todo generalizing w with
  | nil => simp [Worker.dispatch]
  | cons ch todo ih =>
    rw [List.length_cons, List.replicate_succ, Mealy.after_cons]
    have hstep : (Sys.step py cd channels ⟨w, some ⟨e, .sending incident (ch :: todo)⟩, batch, stream⟩ (.work x)).1 =
        ⟨{ w with sends := w.sends ++ [⟨ch, incident, x.replies ch⟩] }, some ⟨e, .sending incident todo⟩, batch,
          stream⟩ := rfl
    rw [hstep, ih]
    simp [Worker.dispatch]

/-- With nothing in between, the steps of a turn come to `Worker.turn`. -/
theorem turn_steps (w : Worker) (e : Entry Message) (batch : List (Entry Message)) (stream : Stream Message)
    (x : Meets) :
    ∃ n, Mealy.after (Sys.step py cd channels) ⟨w, none, e :: batch, stream⟩ (List.replicate n (.work x)) =
      ⟨(Worker.turn py cd channels w (x, e)).1, none, batch, stream⟩ := by
  cases hdecode : decodeIncidentEvent py e.data with
  | none => exact ⟨1, by simp [Sys.step, Sys.start, Worker.turn, hdecode]⟩
  | some incident =>
    cases hscript : x.script with
    | none => exact ⟨2, by simp [List.replicate_succ, Sys.step, Sys.start, Worker.turn, hdecode, hscript]⟩
    | some script =>
      obtain ⟨now, serverMs, random⟩ := script
      cases hcall : cd.tryDispatch (w.key incident.cameraId) ⟨incident.severity = .critical, now, serverMs, random⟩ with
      | mk key allowed =>
        cases allowed with
        | false =>
          exact ⟨2, by simp [List.replicate_succ, Sys.step, Sys.start, Worker.turn, hdecode, hscript, hcall]⟩
        | true =>
          refine ⟨1 + (channels.length + 1), ?_⟩
          rw [List.replicate_add, Mealy.after_append, List.replicate_add, Mealy.after_append]
          have hstart : Mealy.after (Sys.step py cd channels) ⟨w, none, e :: batch, stream⟩
                (List.replicate 1 (.work x)) =
              ⟨{ w with keys := w.keys.set incident.cameraId key }, some ⟨e, .sending incident channels⟩, batch,
                stream⟩ := by
            simp [Sys.step, Sys.start, hdecode, hscript, hcall]
          rw [hstart, dispatch_steps]
          simp [Sys.step, Worker.turn, hdecode, hscript, hcall, Worker.ack]

end

/-! ## One step -/

section
variable {py : PyText} {cd : CameraAlertCooldown} {channels : List Channel} {es : List Event} {s : Sys} {a : Action}

/-- A step moves entries along; a restart drops those in hand. -/
theorem entries_step (py : PyText) (cd : CameraAlertCooldown) (channels : List Channel) (es : List Event) (s : Sys)
    (a : Action) :
    (entries (es ++ [(s.step py cd channels a).2]) (s.step py cd channels a).1 = entries es s ∧
        (s.step py cd channels a).1.stream.all = s.stream.all) ∨
      (∃ e, entries (es ++ [(s.step py cd channels a).2]) (s.step py cd channels a).1 = entries es s ++ [e] ∧
        (s.step py cd channels a).1.stream.all = s.stream.all ++ [e]) ∨
      (a = .restart ∧
        (entries (es ++ [(s.step py cd channels a).2]) (s.step py cd channels a).1).Sublist (entries es s) ∧
        (s.step py cd channels a).1.stream.all = s.stream.all) := by
  have hmoves := s.step_moves py cd channels a
  generalize s.step py cd channels a = next at hmoves
  cases hmoves with
  | read hin hbatch =>
    left
    simp only [entries, begun, Mealy.filterMap_concat, Event.begun?, Option.toList_none, List.append_nil, hbatch]
    rw [List.append_assoc, Stream.read_pending]
    exact ⟨rfl, rfl⟩
  | unreadable hin hbatch | raised hin hbatch | called hin hbatch =>
    left
    simp only [entries, begun, Mealy.filterMap_concat, Event.begun?, Option.toList_some, hbatch]
    exact ⟨by simp, trivial⟩
  | sent hin | acked hin =>
    left
    simp only [entries, begun, Mealy.filterMap_concat, Event.begun?, Option.toList_none, List.append_nil]
    exact ⟨trivial, trivial⟩
  | @add m =>
    right
    left
    refine ⟨_, ?_, Stream.add_all s.stream m⟩
    simp only [entries, begun, Mealy.filterMap_concat, Event.begun?, Option.toList_none, List.append_nil]
    rw [Stream.add_pending, ← List.append_assoc]
  | cut hin | restart hin =>
    right
    right
    simp only [entries, begun, Mealy.filterMap_concat, Event.begun?, Option.toList_none, List.append_nil]
    exact ⟨trivial, (List.sublist_append_left _ _).append_right _, trivial⟩

theorem key_set (w : Worker) (sends : List Send) (acked : List Nat) (cam cam' : String) (key : WindowKey) :
    (⟨w.keys.set cam key, sends, acked⟩ : Worker).key cam' = if cam = cam' then key else w.key cam' := by
  by_cases h : cam = cam'
  · subst h
    simp [Worker.key]
  · rw [if_neg h, Worker.key, Dict.get?_set_ne _ _ (Ne.symm h), ← Worker.key]

/-- A channel has been sent the alert once it is no longer to come. -/
theorem heard_cons {ch : Channel} {todo : List Channel} (hnodup : channels.Nodup) (htodo : ch :: todo <:+ channels)
    (incident : IncidentEvent) (ch' : Channel) :
    (Phase.sending incident todo).heard? channels ch' =
      if ch = ch' then some incident else (Phase.sending incident (ch :: todo)).heard? channels ch' := by
  have hmem : ch ∈ channels := htodo.subset List.mem_cons_self
  have hnot : ch ∉ todo := (List.nodup_cons.1 (hnodup.sublist htodo.sublist)).1
  by_cases h : ch = ch'
  · subst h
    rw [if_pos rfl]
    exact if_pos ⟨hmem, hnot⟩
  · rw [if_neg h]
    simp only [Phase.heard?, List.mem_cons, Ne.symm h, false_or]

theorem begun_concat (es : List Event) (e : Event) : begun (es ++ [e]) = begun es ++ e.begun?.toList :=
  Mealy.filterMap_concat ..

theorem ended_concat (es : List Event) (e : Event) : ended (es ++ [e]) = ended es ++ e.ended?.toList :=
  Mealy.filterMap_concat ..

theorem phases_concat (es : List Event) (e : Event) : phases (es ++ [e]) = phases es ++ e.phase?.toList :=
  Mealy.filterMap_concat ..

/-- What the worker has done, and where it is, against what happened so far. -/
structure Turned (cd : CameraAlertCooldown) (channels : List Channel) (es : List Event) (s : Sys) : Prop where
  turns : begun es = ended es ++ (s.inTurn.map (·.entry)).toList
  acked : s.worker.acked = es.filterMap Event.acked?
  alerts : (alerts es).map Prod.fst = (reached es s).filterMap Phase.alert?
  sent : ∀ ch, sentOn ch s.worker.sends = (reached es s).filterMap (Phase.heard? channels ch)
  todo : ∀ e incident todo, s.inTurn = some ⟨e, .sending incident todo⟩ → todo <:+ channels
  key : ∀ cam, s.worker.key cam = cd.keyAfter (callsFor cam es)
  times : ∀ cam, alertTimes cam es = cd.allowedTimes (callsFor cam es)

/-- A step that does not come to the limiter. -/
theorem Turned.uncalled (h : Turned cd channels es s) {e : Event} {s' : Sys} (halert : e.alert? = none)
    (hcall : ∀ cam, e.callFor cam = none) (hkeys : s'.worker.keys = s.worker.keys)
    (hturns : begun (es ++ [e]) = ended (es ++ [e]) ++ (s'.inTurn.map (·.entry)).toList)
    (hacked : s'.worker.acked = (es ++ [e]).filterMap Event.acked?)
    (halerts : (reached (es ++ [e]) s').filterMap Phase.alert? = (reached es s).filterMap Phase.alert?)
    (hsent : ∀ ch, sentOn ch s'.worker.sends = (reached (es ++ [e]) s').filterMap (Phase.heard? channels ch))
    (htodo : ∀ e incident todo, s'.inTurn = some ⟨e, .sending incident todo⟩ → todo <:+ channels) :
    Turned cd channels (es ++ [e]) s' := by
  have hsame : Alerting.alerts (es ++ [e]) = Alerting.alerts es := by
    rw [Alerting.alerts, Mealy.filterMap_concat, halert, Option.toList_none, List.append_nil, Alerting.alerts]
  have hcalls (cam : String) : callsFor cam (es ++ [e]) = callsFor cam es := by
    rw [callsFor, Mealy.filterMap_concat, hcall, Option.toList_none, List.append_nil, callsFor]
  refine ⟨hturns, hacked, ?_, hsent, htodo, fun cam => ?_, fun cam => ?_⟩
  · rw [hsame, halerts]
    exact h.alerts
  · rw [hcalls, ← h.key, Worker.key, Worker.key, hkeys]
  · rw [alertTimes, hsame, hcalls]
    exact h.times cam

/-- A step of neither the limiter nor a channel. -/
theorem Turned.quiet (h : Turned cd channels es s) {e : Event} {s' : Sys} (halert : e.alert? = none)
    (hcall : ∀ cam, e.callFor cam = none) (hkeys : s'.worker.keys = s.worker.keys)
    (hsends : s'.worker.sends = s.worker.sends)
    (hturns : begun (es ++ [e]) = ended (es ++ [e]) ++ (s'.inTurn.map (·.entry)).toList)
    (hacked : s'.worker.acked = (es ++ [e]).filterMap Event.acked?)
    (hreached : reached (es ++ [e]) s' = reached es s)
    (htodo : ∀ e incident todo, s'.inTurn = some ⟨e, .sending incident todo⟩ → todo <:+ channels) :
    Turned cd channels (es ++ [e]) s' := by
  refine h.uncalled halert hcall hkeys hturns hacked (by rw [hreached]) (fun ch => ?_) htodo
  rw [hsends, hreached]
  exact h.sent ch

/-- The next channel is sent the alert. -/
theorem Turned.send (h : Turned cd channels es s) (hnodup : channels.Nodup) {e : Entry Message}
    {incident : IncidentEvent} {ch : Channel} {todo : List Channel}
    (hin : s.inTurn = some ⟨e, .sending incident (ch :: todo)⟩) (reply : Reply) :
    Turned cd channels (es ++ [.sent ⟨ch, incident, reply⟩])
      { s with
        worker := { s.worker with sends := s.worker.sends ++ [⟨ch, incident, reply⟩] }
        inTurn := some ⟨e, .sending incident todo⟩ } := by
  have htodo := h.todo e incident (ch :: todo) hin
  refine h.uncalled rfl (fun _ => rfl) rfl ?_ ?_ ?_ (fun ch' => ?_) ?_
  · rw [begun_concat, ended_concat, h.turns, hin]
    simp [Event.begun?, Event.ended?]
  · rw [Mealy.filterMap_concat, ← h.acked]
    simp [Event.acked?]
  · rw [reached, phases_concat, reached, hin]
    simp [Event.phase?, Phase.alert?]
  · have hbefore := h.sent ch'
    have hheard := heard_cons hnodup htodo incident ch'
    rw [reached, hin, Option.map_some, Option.toList_some, Mealy.filterMap_concat] at hbefore
    rw [reached, phases_concat, sentOn, List.filter_append, List.map_append, ← sentOn, hbefore]
    simp only [Event.phase?, Option.toList_none, List.append_nil, Option.map_some, Option.toList_some]
    rw [Mealy.filterMap_concat, hheard, List.append_assoc]
    by_cases hch : ch = ch'
    · subst hch
      simp [Phase.heard?]
    · simp [hch]
  · intro e' incident' todo' he
    cases he
    exact (List.suffix_cons ch todo).trans htodo

/-- The limiter is asked. -/
theorem Turned.call (h : Turned cd channels es s) (hin : s.inTurn = none) {incident : IncidentEvent} {c : Call}
    {key : WindowKey} {allowed : Bool} (hcall : cd.tryDispatch (s.worker.key incident.cameraId) c = (key, allowed))
    (e : Entry Message) (batch : List (Entry Message)) :
    Turned cd channels (es ++ [.called e incident c allowed])
      { s with
        worker := { s.worker with keys := s.worker.keys.set incident.cameraId key }
        inTurn := some ⟨e, if allowed then .sending incident channels else .silent⟩
        batch } := by
  have hcalls (cam : String) : callsFor cam (es ++ [.called e incident c allowed]) =
      callsFor cam es ++ if incident.cameraId = cam then [c] else [] := by
    rw [callsFor, Mealy.filterMap_concat, ← callsFor]
    by_cases hcam : incident.cameraId = cam <;> simp [Event.callFor, hcam]
  have halerts : Alerting.alerts (es ++ [.called e incident c allowed]) =
      Alerting.alerts es ++ if allowed then [(incident, c)] else [] := by
    rw [Alerting.alerts, Mealy.filterMap_concat, ← Alerting.alerts]
    cases allowed <;> rfl
  have hreached {s' : Sys} {t : InTurn} (ht : s'.inTurn = some t) :
      reached (es ++ [.called e incident c allowed]) s' = reached es s ++ [t.phase] := by
    rw [reached, phases_concat, reached, hin, ht]
    simp [Event.phase?]
  refine ⟨?_, ?_, ?_, fun ch => ?_, fun e' incident' todo he => ?_, fun cam => ?_, fun cam => ?_⟩
  · rw [begun_concat, ended_concat, h.turns, hin]
    simp [Event.begun?, Event.ended?]
  · rw [Mealy.filterMap_concat, ← h.acked]
    simp [Event.acked?]
  · rw [halerts, List.map_append, h.alerts, hreached rfl, List.filterMap_append]
    cases allowed <;> simp [Phase.alert?]
  · rw [h.sent, hreached rfl, List.filterMap_append]
    cases allowed <;> simp [Phase.heard?]
  · cases allowed with
    | true =>
      cases he
      exact List.suffix_refl _
    | false => cases he
  · rw [key_set, hcalls]
    split
    · rename_i hcam
      subst hcam
      rw [CameraAlertCooldown.keyAfter_concat, ← h.key, hcall]
    · rw [List.append_nil]
      exact h.key cam
  · rw [alertTimes, halerts, List.filter_append, List.map_append, ← alertTimes, h.times, hcalls]
    by_cases hcam : incident.cameraId = cam
    · rw [if_pos hcam, CameraAlertCooldown.allowedTimes_concat, ← h.key, ← hcam, hcall]
      cases allowed <;> simp
    · cases allowed <;> simp [hcam]

section
variable (py cd)

theorem after_concat (acts : List Action) (a : Action) :
    Sys.after py cd channels (acts ++ [a]) = ((Sys.after py cd channels acts).step py cd channels a).1 :=
  Mealy.after_concat ..

end

end

end Alerting

end Netra
