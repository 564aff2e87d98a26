import Netra.Dashboard.Incidents
import Netra.Dashboard.Sse
import Netra.Gateway.Access
import Netra.Gateway.Feeds
import Netra.Risk.Overlay
import Netra.Wire.Reference
/-!
# The live events of the dashboard

The components that listen with `useSSE`: `useIncidents` and the badge to the incidents,
each card (`useCameraRiskScore`) to the risk of its camera. What they are sent is what the
gateway answers a request for their `url` with, and an `EventSource` sends no token. The
incidents are never sent, as `/api/stream/{camera_id}` takes the request; a risk is sent
without the `camera_id` and `risk_score` that the card reads. So the page of incidents
changes by its fetches alone, and every card shows a risk of 0 (`live_silent`).
-/
namespace Netra

open PyLib Wire

/-! ## `stream_risk` -/

namespace Gateway

/-- The `payload` of a behaviour event. -/
def riskPayload (bev : BehaviorEvent) (risk : ℚ) : Json := .obj [
  ("track_id", .int bev.trackId),
  ("risk", .float risk),
  ("fsm_state", .str (StrEnum.value bev.fsmState)),
  ("ts", .float bev.timestamp)]

/-- The payload that is yielded for an entry, unless it is of another camera or something raises. -/
def riskYielded (py : PyText) (redis : Dict String String) (cameraId : String) (d : Message) : Option Json := do
  let bev ← decodeBehaviorEvent py d
  if bev.cameraId ≠ cameraId then none
  else
    -- `or "0"`
    let risk := match redis.get? (Inference.trackRisk py cameraId bev.trackId) with
      | some "" | none => "0"
      | some risk => risk
    return riskPayload bev (← py.float risk)

end Gateway

namespace Dashboard

/-! ## What is sent -/

/-- What the browser does: the path of a `url`, and the text of a value that is no text. -/
structure Browser where
  path : String → List String
  text : Json → String
  path_incidents : path "/api/stream/incidents" = ["api", "stream", "incidents"]

/-- An entry of the stream the gateway reads, and what it finds in Redis then. -/
structure Entry where
  data : Message
  redis : Dict String String

section
variable (pydantic : Gateway.Pydantic) (settings : Gateway.AuthSettings) (jwt : Option Gateway.Jwt) (py : PyText)
  (browser : Browser)

/-- What is sent over the `EventSource` of `url` for an entry; an answer that is no event
stream closes it. -/
def sent (url : String) (now : ℚ) (e : Entry) : Option Json :=
  let path := browser.path url
  match Gateway.respond pydantic settings jwt { now, method := .get, path } with
  | .served .streamIncidents _ => (decodeIncidentEvent py e.data).map Gateway.incidentPayload
  | .served .streamRisk _ => Gateway.riskYielded py e.redis ((Gateway.argsOf .get path).headD "") e.data
  | _ => none

end

/-! ## What is made of it -/

/-- `value.key`; `none` is `undefined`. -/
def field (key : String) : Json → Option Json
  | .obj kvs => kvs.lookup key
  | _ => none

def textField (key : String) (j : Json) : Option String :=
  match field key j with
  | some (.str s) => some s
  | _ => none

/-- An `Incident`, as far as it is modelled. -/
def readIncident (j : Json) : Option Incident := do
  return {
    id := ← textField "id" j
    cameraId := ← textField "camera_id" j
    severity := ← (textField "severity" j).bind StrEnum.ofValue
    status := ← (textField "status" j).bind StrEnum.ofValue }

inductive Listener where
  /-- `useIncidents`, `OpenIncidentBadge` -/
  | incidents
  /-- `useCameraRiskScore` -/
  | risk (cameraId : String)

/-- `getIncidentStreamUrl`, `getRiskStreamUrl` -/
def Listener.url : Listener → String
  | .incidents => "/api/stream/incidents"
  | .risk cameraId => s!"/api/stream/risk/{cameraId}"

/-- The stores, and the components in the order of their mounting. -/
structure Live where
  page : Page := {}
  riskScores : Dict String (Option Json) := .empty
  components : List (Listener × UseSSE) := []

namespace Live

/-- The text of a computed key. -/
def propertyKey (browser : Browser) : Option Json → String
  | none => "undefined"
  | some (.str s) => s
  | some j => browser.text j

def setRiskScore (browser : Browser) (cameraId score : Option Json) (s : Live) : Live :=
  { s with riskScores := s.riskScores.set (propertyKey browser cameraId) score }

/-- `riskScores[cameraId]?.score ?? 0` -/
def riskScore (cameraId : String) (s : Live) : Json :=
  match s.riskScores.get? cameraId with
  | some (some .null) | some none | none => .int 0
  | some (some score) => score

def onMessage (browser : Browser) (event : Json) (s : Live) : Listener → Live
  | .incidents =>
    match textField "type" event, (field "incident" event).bind readIncident with
    | some type, some incident =>
      if type = "new_incident" ∨ type = "incident_updated" then { s with page := step s.page (.live incident) } else s
    | _, _ => s
  | .risk _ => s.setRiskScore browser (field "camera_id" event) (field "risk_score" event)

end Live

/-- What changes the page of incidents besides live events. -/
inductive PageEvent where
  | change (c : Change)
  | refetch
  | answer (n : Nat) (result : Except Thrown IncidentListResponse)

def PageEvent.event : PageEvent → Event
  | .change c => .change c
  | .refetch => .refetch
  | .answer n result => .answer n result

/-- A move of a component. -/
inductive Move where
  | render
  | unmount
  | error (i : Nat)
  | fire (k : Nat)
  | elapse (dt : ℚ≥0)
  /-- the gateway reads an entry for the `i`-th `EventSource` -/
  | entry (i : Nat) (e : Entry)

namespace Live

inductive Action where
  | page (e : PageEvent)
  | mount (l : Listener)
  | move (k : Nat) (m : Move)

section
variable (pydantic : Gateway.Pydantic) (settings : Gateway.AuthSettings) (jwt : Option Gateway.Jwt) (py : PyText)
  (browser : Browser)

def action (l : Listener) (c : UseSSE) : Move → UseSSE.Action Json
  | .render => .render l.url true
  | .unmount => .unmount
  | .error i => .error i
  | .fire k => .fire k
  | .elapse dt => .elapse dt
  | .entry i e => .message i (c.sources[i]?.bind fun es => sent pydantic settings jwt py browser es.url c.now e)

def step (s : Live) : Action → Live × Unit
  | .page e => ({ s with page := Dashboard.step s.page e.event }, ())
  | .mount l => ({ s with components := s.components ++ [(l, UseSSE.render l.url true {})] }, ())
  | .move k m =>
    match s.components[k]? with
    | none => (s, ())
    | some (l, c) =>
      let (c', heard) := UseSSE.step c (action pydantic settings jwt py browser l c m)
      let s := { s with components := s.components.set k (l, c') }
      match heard with
      | none => (s, ())
      | some (_, event) => (s.onMessage browser event l, ())

def after (as : List Action) : Live := Mealy.after (step pydantic settings jwt py browser) {} as

end

/-- What is done to the page, without the live events. -/
def pageEvents (as : List Action) : List Event :=
  as.filterMap fun
    | .page e => some e.event
    | _ => none

/-! ## What a card reads -/

section
variable {pydantic : Gateway.Pydantic} {settings : Gateway.AuthSettings} {jwt : Option Gateway.Jwt} {py : PyText}
  {browser : Browser}

/-- A request for the incidents is taken for one for the pictures of a camera. -/
theorem sent_incidents (now : ℚ) (e : Entry) :
    sent pydantic settings jwt py browser Listener.incidents.url now e = none := by
  have hh : Gateway.handlerOf .get ["api", "stream", "incidents"] = some .mjpegStream := by decide
  simp only [sent, Listener.url, browser.path_incidents, Gateway.respond, hh]
  rfl

/-- What is sent is never what a card reads. -/
theorem sent_fields {url : String} {now : ℚ} {e : Entry} {event : Json}
    (h : sent pydantic settings jwt py browser url now e = some event) :
    field "camera_id" event = none ∧ field "risk_score" event = none := by
  simp only [sent] at h
  split at h
  · rename_i hserved
    exact absurd (Gateway.respond_served hserved) (Gateway.handlerOf_ne_streamIncidents _ _)
  · unfold Gateway.riskYielded at h
    simp only [Option.bind_eq_bind, Option.bind_eq_some_iff] at h
    obtain ⟨bev, -, h⟩ := h
    split at h
    · cases h
    · obtain ⟨risk, -, rfl⟩ : ∃ risk, _ ∧ Gateway.riskPayload bev risk = event := by
        simpa [Option.bind_eq_some_iff] using h
      exact ⟨rfl, rfl⟩
  · cases h

/-! ## Every run -/

/-- No score was ever read. -/
def NoScore (s : Live) : Prop := ∀ cameraId, s.riskScores.get? cameraId = none ∨ s.riskScores.get? cameraId = some none

structure Silent (events : List Event) (s : Live) : Prop where
  components : ∀ c ∈ s.components, UseSSE.Of c.1.url c.2
  page : s.page = Dashboard.after events
  noScore : NoScore s

theorem noScore_setRiskScore {s : Live} (h : NoScore s) (cameraId : Option Json) :
    NoScore (s.setRiskScore browser cameraId none) := by
  intro c
  simp only [setRiskScore, Dict.get?_set]
  split
  · exact .inr rfl
  · exact h c

theorem action_render (l : Listener) (c : UseSSE) (m : Move) :
    ∀ u enabled, action pydantic settings jwt py browser l c m = .render u enabled → u = l.url := by
  intro u enabled h
  cases m <;> simp_all [action]

/-- What a component hears is what was sent over one of its connections. -/
theorem heard_sent {l : Listener} {c : UseSSE} {m : Move} {url : String} {event : Json} (hc : UseSSE.Of l.url c)
    (h : (UseSSE.step c (action pydantic settings jwt py browser l c m)).2 = some (url, event)) :
    ∃ now e, sent pydantic settings jwt py browser l.url now e = some event := by
  cases m with
  | entry i e =>
    simp only [action, UseSSE.step, UseSSE.received] at h
    split at h
    · rename_i es d hes hd
      split at h
      · cases h
      · obtain ⟨-, rfl⟩ := Prod.mk.inj (Option.some.inj h)
        rw [hes, Option.bind_some, hc.sources es (List.mem_of_getElem? hes)] at hd
        exact ⟨c.now, e, hd⟩
    · cases h
  | _ => cases h

theorem Silent.step {events : List Event} {s : Live} (h : Silent events s) (a : Action) :
    Silent (events ++ pageEvents [a]) (step pydantic settings jwt py browser s a).1 := by
  cases a with
  | page e =>
    refine ⟨h.components, ?_, h.noScore⟩
    simp [Live.step, pageEvents, Dashboard.after, h.page]
  | mount l =>
    refine ⟨?_, by simpa [pageEvents, Live.step] using h.page, h.noScore⟩
    intro c hc
    rcases List.mem_append.1 hc with hc | hc
    · exact h.components c hc
    · obtain rfl := List.mem_singleton.1 hc
      exact (⟨by simp, by simp⟩ : UseSSE.Of l.url {}).step (.render l.url true : UseSSE.Action Json) (by simp_all)
  | move k m =>
    have hevents : events ++ pageEvents [.move k m] = events := by simp [pageEvents]
    rw [hevents]
    simp only [Live.step]
    split
    · exact h
    · rename_i l c hk
      have hc : UseSSE.Of l.url c := h.components _ (List.mem_of_getElem? hk)
      have hcomponents : ∀ c' ∈ s.components.set k
          (l, (UseSSE.step c (action pydantic settings jwt py browser l c m)).1), UseSSE.Of c'.1.url c'.2 := by
        intro c' hc'
        rcases List.mem_or_eq_of_mem_set hc' with hc' | rfl
        · exact h.components c' hc'
        · exact hc.step _ (action_render l c m)
      split
      · exact ⟨hcomponents, h.page, h.noScore⟩
      · rename_i url event heard
        obtain ⟨now, e, hsent⟩ := heard_sent hc heard
        cases l with
        | incidents =>
          rw [sent_incidents] at hsent
          cases hsent
        | risk cameraId =>
          obtain ⟨hcamera, hscore⟩ := sent_fields hsent
          simp only [onMessage, hcamera, hscore]
          exact ⟨hcomponents, h.page, noScore_setRiskScore h.noScore none⟩

theorem silent_after (as : List Action) : Silent (pageEvents as) (after pydantic settings jwt py browser as) := by
  refine Mealy.after_history (step pydantic settings jwt py browser) (fun as s => Silent (pageEvents as) s) {} ?_ ?_ as
  · exact ⟨by simp, rfl, fun _ => .inl rfl⟩
  · intro as s a h
    simpa [pageEvents] using h.step a

end

/-- Whatever the gateway reads and whenever components come, break off and go: the page of
incidents is what its own changes and fetches make it, and each card shows a risk of 0. -/
theorem live_silent (pydantic : Gateway.Pydantic) (settings : Gateway.AuthSettings) (jwt : Option Gateway.Jwt)
    (py : PyText) (browser : Browser) (as : List Action) :
    (after pydantic settings jwt py browser as).page = Dashboard.after (pageEvents as) ∧
      ∀ cameraId, (after pydantic settings jwt py browser as).riskScore cameraId = .int 0 := by
  have h : Silent (pageEvents as) (after pydantic settings jwt py browser as) := silent_after as
  refine ⟨h.page, ?_⟩
  intro cameraId
  rw [riskScore]
  rcases h.noScore cameraId with hc | hc <;> rw [hc]

/-! ## A card that listens -/

/-- A `url` is its path; no other value than a text comes up as a key. -/
def plainBrowser : Browser where
  path url := (url.toList.splitOn '/').tail.map .ofList
  text _ := "[object Object]"
  path_incidents := by decide

def concealing : BehaviorEvent where
  cameraId := "cam_1"
  trackId := 1
  fsmState := .concealment
  fsmScore := 12
  suspicious := true
  timestamp := 1000

/-- The event of a track whose risk is 1. -/
noncomputable def riskEntry : Entry where
  data := encodeBehaviorEvent .reference concealing
  redis := Dict.empty.set (Inference.trackRisk .reference "cam_1" 1) "1.0"

/-- The page of incidents and a card, whose connection breaks off and comes again; both are
sent what there is. -/
noncomputable def watching : List Action := [.mount .incidents, .mount (.risk "cam_1"), .page .refetch,
  .move 0 (.entry 0 riskEntry), .move 1 (.entry 0 riskEntry), .move 1 (.error 0), .move 1 (.elapse 3),
  .move 1 (.fire 0), .move 1 (.entry 1 riskEntry)]

theorem sent_riskEntry (now : ℚ) :
    sent Gateway.plainPydantic {} none .reference plainBrowser (Listener.risk "cam_1").url now riskEntry =
      some (Gateway.riskPayload concealing 1) := by
  have hpath : plainBrowser.path (Listener.risk "cam_1").url = ["api", "stream", "risk", "cam_1"] := by decide
  have hh : Gateway.handlerOf .get ["api", "stream", "risk", "cam_1"] = some .streamRisk := by decide
  have hserved : Gateway.respond Gateway.plainPydantic {} none
      { now, method := .get, path := ["api", "stream", "risk", "cam_1"] } =
        .served .streamRisk (some Gateway.devUser) := by
    simp only [Gateway.respond, hh]
    rfl
  have hargs : (Gateway.argsOf .get ["api", "stream", "risk", "cam_1"]).headD "" = "cam_1" := by decide
  have hfloat : PyText.reference.float "1.0" = some 1 := by
    have htext : PyText.reference.strFloat 1 = "1.0" := text_one.2.1
    rw [← htext, PyText.float_strFloat]
  simp only [sent, hpath, hserved, hargs, Gateway.riskYielded, riskEntry, decode_encodeBehaviorEvent]
  simp [concealing, hfloat, Gateway.riskPayload]

/-- What the card reads of it. -/
theorem riskScores_watching :
    (after Gateway.plainPydantic {} none .reference plainBrowser watching).riskScores.get? "undefined" = some none := by
  simp [after, watching, step, action, UseSSE.step, UseSSE.render, UseSSE.connect, UseSSE.cleanup, UseSSE.closeRef,
    UseSSE.onerror, UseSSE.fire, UseSSE.close, UseSSE.received, sent_incidents, sent_riskEntry, onMessage, setRiskScore,
    propertyKey, field, Gateway.riskPayload]

/-- The card is sent a risk of 1, keeps `undefined` under `"undefined"`, and shows 0. -/
theorem live_silent_watching :
    (∀ now, sent Gateway.plainPydantic {} none .reference plainBrowser (Listener.risk "cam_1").url now riskEntry =
      some (Gateway.riskPayload concealing 1)) ∧
    (after Gateway.plainPydantic {} none .reference plainBrowser watching).riskScores.get? "undefined" = some none ∧
    (after Gateway.plainPydantic {} none .reference plainBrowser watching).page = Dashboard.after [.refetch] ∧
    (after Gateway.plainPydantic {} none .reference plainBrowser watching).riskScore "cam_1" = .int 0 := by
  have hsilent := live_silent Gateway.plainPydantic {} none .reference plainBrowser watching
  exact ⟨sent_riskEntry, riskScores_watching, hsilent.1, hsilent.2 "cam_1"⟩

end Live

end Dashboard

end Netra
