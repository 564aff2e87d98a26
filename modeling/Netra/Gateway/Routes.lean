import Netra.Lib.Routes
import Mathlib.Data.String.Lemmas
/-!
# The routes of the gateway

The routes of `backend/gateway/main.py` in the order of their registration, those of the
streaming and WebSocket routers first, with what each asks of the caller. FastAPI gives
a request to the first that fits. `GET /api/stream/incidents` fits
`/api/stream/{camera_id}`, which is registered before it: `stream_incidents` is the one
handler that no request reaches (`reached_iff_ne_streamIncidents`).
-/
namespace Netra.Gateway

open Routes

/-- A WebSocket has routes of its own. -/
inductive Method where
  | get
  | post
  | patch
  | websocket
  deriving DecidableEq

inductive Handler where
  | mjpegStream | snapshot | wsAllEvents | wsCameraEvents
  | login
  | listCameras | createCamera
  | listIncidents | getIncident | reviewIncident
  | health
  | streamIncidents | streamRisk
  | incidentTimeline | streamClip | getHeatmap
  | correlatedIncidents | incidentGroups
  | accuracyMetrics | exportLabels | storeAnalytics | analyticsOverview
  | listUsers | createUser | updateUserRole
  | listStores | createStore | getStore
  | pendingAlerts | escalatedAlerts | acknowledgeAlert
  | calibrateCamera | getCalibration | calibrateAllCameras
  | listModels | modelHistory | deployModel | rollbackModel
  | collectDataset
  | demoStatus | demoStart | demoStop
  | evalIncidents | evalUpdateIncident
  deriving DecidableEq

/-- What a handler depends on. -/
inductive Guard where
  | none
  /-- `Depends(get_current_user)` -/
  | user
  /-- `Depends(require_role(minimum_role))` -/
  | role (minimum : String)
  deriving DecidableEq

def Handler.guard : Handler → Guard
  | mjpegStream | snapshot | wsAllEvents | wsCameraEvents | login | health => .none
  | listCameras | createCamera | listIncidents | getIncident | reviewIncident | streamIncidents | streamRisk
  | incidentTimeline | streamClip | getHeatmap | correlatedIncidents | incidentGroups | accuracyMetrics
  | exportLabels | storeAnalytics | analyticsOverview => .user
  | listUsers | createUser | updateUserRole | createStore | deployModel | rollbackModel | demoStart | demoStop =>
    .role "admin"
  | listStores | getStore | calibrateCamera | calibrateAllCameras | listModels | modelHistory | collectDataset =>
    .role "manager"
  | pendingAlerts | escalatedAlerts | acknowledgeAlert | getCalibration | demoStatus | evalIncidents
  | evalUpdateIncident => .role "operator"

/-- The segments of `/api/...`. -/
def api (path : List (Segment String)) : List (Segment String) := .lit "api" :: path

/-- Without the ASGI application that is mounted at `/metrics`. -/
def routes : List (Route String Method Handler) := [
  -- `streaming_router`
  ⟨.get, api [.lit "stream", .param], .mjpegStream⟩,
  ⟨.get, api [.lit "snapshot", .param], .snapshot⟩,
  -- `ws_router`
  ⟨.websocket, [.lit "ws", .lit "events"], .wsAllEvents⟩,
  ⟨.websocket, [.lit "ws", .lit "events", .param], .wsCameraEvents⟩,
  -- `app`
  ⟨.post, api [.lit "auth", .lit "login"], .login⟩,
  ⟨.get, api [.lit "cameras"], .listCameras⟩,
  ⟨.post, api [.lit "cameras"], .createCamera⟩,
  ⟨.get, api [.lit "incidents"], .listIncidents⟩,
  ⟨.get, api [.lit "incidents", .param], .getIncident⟩,
  ⟨.post, api [.lit "incidents", .param, .lit "review"], .reviewIncident⟩,
  ⟨.get, api [.lit "health"], .health⟩,
  ⟨.get, api [.lit "stream", .lit "incidents"], .streamIncidents⟩,
  ⟨.get, api [.lit "stream", .lit "risk", .param], .streamRisk⟩,
  ⟨.get, api [.lit "incidents", .param, .lit "timeline"], .incidentTimeline⟩,
  ⟨.get, api [.lit "incidents", .param, .lit "clip"], .streamClip⟩,
  ⟨.get, api [.lit "cameras", .param, .lit "heatmap"], .getHeatmap⟩,
  ⟨.get, api [.lit "incidents", .param, .lit "correlated"], .correlatedIncidents⟩,
  ⟨.get, api [.lit "analytics", .lit "incident-groups"], .incidentGroups⟩,
  ⟨.get, api [.lit "analytics", .lit "accuracy"], .accuracyMetrics⟩,
  ⟨.post, api [.lit "analytics", .lit "export-labels"], .exportLabels⟩,
  ⟨.get, api [.lit "analytics", .lit "stores"], .storeAnalytics⟩,
  ⟨.get, api [.lit "analytics", .lit "overview"], .analyticsOverview⟩,
  ⟨.get, api [.lit "users"], .listUsers⟩,
  ⟨.post, api [.lit "users"], .createUser⟩,
  ⟨.patch, api [.lit "users", .param, .lit "role"], .updateUserRole⟩,
  ⟨.get, api [.lit "stores"], .listStores⟩,
  ⟨.post, api [.lit "stores"], .createStore⟩,
  ⟨.get, api [.lit "stores", .param], .getStore⟩,
  ⟨.get, api [.lit "alerts", .lit "pending"], .pendingAlerts⟩,
  ⟨.get, api [.lit "alerts", .lit "escalations"], .escalatedAlerts⟩,
  ⟨.post, api [.lit "alerts", .param, .lit "acknowledge"], .acknowledgeAlert⟩,
  ⟨.post, api [.lit "cameras", .param, .lit "calibrate"], .calibrateCamera⟩,
  ⟨.get, api [.lit "cameras", .param, .lit "calibration"], .getCalibration⟩,
  ⟨.post, api [.lit "analytics", .lit "calibrate-all"], .calibrateAllCameras⟩,
  ⟨.get, api [.lit "models"], .listModels⟩,
  ⟨.get, api [.lit "models", .param, .lit "history"], .modelHistory⟩,
  ⟨.post, api [.lit "models", .lit "deploy"], .deployModel⟩,
  ⟨.post, api [.lit "models", .param, .lit "rollback"], .rollbackModel⟩,
  ⟨.post, api [.lit "data", .lit "collect-dataset"], .collectDataset⟩,
  ⟨.get, api [.lit "demo", .lit "status"], .demoStatus⟩,
  ⟨.post, api [.lit "demo", .lit "start"], .demoStart⟩,
  ⟨.post, api [.lit "demo", .lit "stop"], .demoStop⟩,
  ⟨.get, api [.lit "eval", .lit "incidents"], .evalIncidents⟩,
  ⟨.patch, api [.lit "eval", .lit "incidents", .param], .evalUpdateIncident⟩]

/-- The handler of a request; without one the answer is 404, or 405 where the path fits a
route of another method. -/
def handlerOf (m : Method) (path : List String) : Option Handler := (dispatch "" routes m path).map (·.handler)

/-- The parameters of the path, in order. -/
def argsOf (m : Method) (path : List String) : List String :=
  match dispatch "" routes m path with
  | none => []
  | some r => args r.path path

theorem handlers_nodup : (routes.map Route.handler).Nodup := by decide

theorem exists_route (h : Handler) : ∃ r ∈ routes, r.handler = h := by
  cases h <;> decide

/-- No two routes have one handler. -/
theorem route_unique {r r' : Route String Method Handler} (hr : r ∈ routes) (hr' : r' ∈ routes)
    (h : r.handler = r'.handler) : r = r' :=
  List.inj_on_of_nodup_map handlers_nodup hr hr' h

theorem shadowed_routes :
    shadowed "" [] routes = [⟨.get, api [.lit "stream", .lit "incidents"], .streamIncidents⟩] := by
  decide

theorem handlerOf_eq_some {m : Method} {path : List String} {h : Handler} :
    handlerOf m path = some h ↔
      ∃ r ∈ routes, r.handler = h ∧ r.method = m ∧ dispatch "" routes r.method path = some r := by
  rw [handlerOf, Option.map_eq_some_iff]
  constructor
  · rintro ⟨r, hr, rfl⟩
    have htakes := List.find?_some hr
    simp only [Route.takes, Bool.and_eq_true, decide_eq_true_eq] at htakes
    exact ⟨r, List.mem_of_find?_eq_some hr, rfl, htakes.1, htakes.1 ▸ hr⟩
  · rintro ⟨r, -, rfl, rfl, hr⟩
    exact ⟨r, hr, rfl⟩

theorem mem_shadowed_iff {r : Route String Method Handler} (hr : r ∈ routes) :
    r ∈ shadowed "" [] routes ↔ r.handler = .streamIncidents := by
  rw [shadowed_routes, List.mem_singleton]
  constructor
  · rintro rfl
    rfl
  · intro h
    exact route_unique hr (by decide) h

/-- A handler is out of reach when its route is shadowed. -/
theorem reached_iff_not_shadowed {r : Route String Method Handler} (hr : r ∈ routes) :
    (∃ m path, handlerOf m path = some r.handler) ↔ r ∉ shadowed "" [] routes := by
  have hnodup : ([] ++ routes).Nodup := List.Nodup.of_map _ handlers_nodup
  rw [mem_shadowed "" hnodup hr]
  constructor
  · rintro ⟨m, path, hpath⟩ h
    obtain ⟨r', hr', hhandler, -, hdispatch⟩ := handlerOf_eq_some.1 hpath
    obtain rfl := route_unique hr' hr hhandler
    exact h path hdispatch
  · intro h
    simp only [ne_eq, not_forall, not_not] at h
    obtain ⟨path, hpath⟩ := h
    exact ⟨r.method, path, handlerOf_eq_some.2 ⟨r, hr, rfl, rfl, hpath⟩⟩

theorem handlerOf_ne_streamIncidents (m : Method) (path : List String) : handlerOf m path ≠ some .streamIncidents := by
  intro h
  have hr : (⟨.get, api [.lit "stream", .lit "incidents"], .streamIncidents⟩ : Route String Method Handler) ∈ routes := by
    decide
  exact (reached_iff_not_shadowed hr).1 ⟨m, path, h⟩ ((mem_shadowed_iff hr).2 rfl)

/-- Every handler is reached by some request, but for the live incidents. -/
theorem reached_iff_ne_streamIncidents (h : Handler) :
    (∃ m path, handlerOf m path = some h) ↔ h ≠ .streamIncidents := by
  obtain ⟨r, hr, rfl⟩ := exists_route h
  rw [reached_iff_not_shadowed hr, mem_shadowed_iff hr]

end Netra.Gateway
