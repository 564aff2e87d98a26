import Netra.Gateway.Routes
import Netra.Wire.Codecs
/-!
# What a request must bring

The handlers of `backend/gateway/main.py` declare what they take from the query and, as a
`BaseModel`, from the body. FastAPI parses the body of a handler that takes one before it
looks at anything else, and checks the declarations after the dependencies. What pydantic
takes for a number or a truth value is left to it.
-/
namespace Netra.Gateway

open Wire

/-! ## Declarations -/

structure Parameter (κ : Type) where
  name : String
  kind : κ
  required : Bool

/-- What the query is read as. -/
inductive QueryKind where
  | str
  | int

/-- What a field of a body is read as. -/
inductive BodyKind where
  | str
  | bool

def mandatory {κ : Type} (name : String) (kind : κ) : Parameter κ := ⟨name, kind, true⟩

/-- A parameter with a default. -/
def optional {κ : Type} (name : String) (kind : κ) : Parameter κ := ⟨name, kind, false⟩

namespace Handler

def query : Handler → List (Parameter QueryKind)
  | listIncidents =>
    [optional "limit" .int, optional "offset" .int, optional "severity" .str, optional "camera_id" .str,
      optional "status" .str]
  | incidentGroups | pendingAlerts | evalIncidents => [optional "limit" .int]
  | accuracyMetrics | storeAnalytics | analyticsOverview | calibrateCamera | calibrateAllCameras =>
    [optional "days" .int]
  | exportLabels => [optional "output_path" .str, optional "days" .int]
  | updateUserRole => [mandatory "role" .str]
  | collectDataset => [optional "output_dir" .str, optional "days" .int]
  | _ => []

/-- The fields of the `BaseModel` that a handler takes. -/
def body? : Handler → Option (List (Parameter BodyKind))
  | login => some [mandatory "username" .str, mandatory "password" .str]
  | createCamera => some [mandatory "id" .str, mandatory "display_name" .str, optional "location" .str,
      optional "rtsp_url" .str, optional "source_type" .str, optional "enabled" .bool]
  | reviewIncident | evalUpdateIncident => some [mandatory "verdict" .str, optional "notes" .str]
  | createUser => some [mandatory "username" .str, mandatory "password" .str, optional "role" .str]
  | createStore => some [mandatory "store_id" .str, mandatory "org_id" .str, mandatory "display_name" .str,
      optional "address" .str, optional "timezone" .str, optional "plan" .str]
  | deployModel => some [mandatory "model_name" .str, mandatory "model_version" .str, mandatory "path" .str,
      optional "notes" .str]
  | _ => none

end Handler

/-! ## Requests -/

inductive Body where
  | empty
  | json (j : Json)
  /-- sent as JSON, and none -/
  | broken
  /-- sent as JSON, and no text: `request.json()` raises something else -/
  | undecodable
  /-- not sent as JSON -/
  | other

/-- What of a request matters here: its credentials are those of a `Bearer` header. -/
structure Request where
  now : ℚ
  method : Method
  path : List String
  query : List (String × String) := []
  creds : Option String := none
  body : Body := .empty

/-- What pydantic takes for an `int` in a query and for a `bool` in a body. -/
structure Pydantic where
  int : String → Bool
  bool : Json → Bool

/-- `QueryParams.get`: the last one counts. -/
def Request.param (r : Request) (name : String) : Option String := r.query.reverse.lookup name

namespace Body

def field (b : Body) (name : String) : Option Json :=
  match b with
  | .json j => get j name
  | _ => none

def isObject : Body → Bool
  | .json (.obj _) => true
  | _ => false

def parsed : Body → Bool
  | .broken | .undecodable => false
  | _ => true

end Body

section
variable (py : Pydantic)

def QueryKind.takes : QueryKind → String → Bool
  | .str, _ => true
  | .int, s => py.int s

def BodyKind.takes : BodyKind → Json → Bool
  | .str, .str _ => true
  | .str, _ => false
  | .bool, j => py.bool j

def Parameter.valid {κ α : Type} (takes : κ → α → Bool) (find : String → Option α) (p : Parameter κ) : Bool :=
  match find p.name with
  | none => !p.required
  | some a => takes p.kind a

/-- Validation finds no error. -/
def Handler.accepts (h : Handler) (r : Request) : Bool :=
  h.query.all (·.valid (·.takes py) r.param) &&
    h.body?.all fun fields => r.body.isObject && fields.all (·.valid (·.takes py) r.body.field)

/-- The body can be parsed, if the handler takes one. -/
def Handler.parses (h : Handler) (b : Body) : Bool := h.body?.isNone || b.parsed

end

/-! ## `LoginRequest` -/

structure LoginRequest where
  username : String
  password : String
  deriving DecidableEq

def loginRequest (b : Body) : Option LoginRequest := do
  return ⟨← (b.field "username").bind asStr, ← (b.field "password").bind asStr⟩

/-- `login` is called with a `LoginRequest`. -/
theorem accepts_login (py : Pydantic) (r : Request) :
    Handler.login.accepts py r = (loginRequest r.body).isSome := by
  have hstr (find : String → Option Json) (name : String) :
      (mandatory name BodyKind.str).valid (·.takes py) find = ((find name).bind asStr).isSome := by
    rw [Parameter.valid, mandatory]
    cases find name with
    | none => rfl
    | some j => cases j <;> rfl
  have hobject : r.body.isObject = false → r.body.field "username" = none := by
    cases r.body with
    | json j => cases j <;> simp [Body.isObject, Body.field, Wire.get]
    | _ => simp [Body.field]
  have hquery : Handler.login.query = [] := rfl
  have hbody : Handler.login.body? = some [mandatory "username" .str, mandatory "password" .str] := rfl
  rw [Handler.accepts, hquery, hbody, List.all_nil, Bool.true_and, Option.all_some, List.all_cons, List.all_cons,
    List.all_nil, hstr, hstr, loginRequest]
  cases hb : r.body.isObject with
  | false => simp [hobject hb]
  | true =>
    cases (r.body.field "username").bind asStr with
    | none => rfl
    | some username => cases (r.body.field "password").bind asStr <;> rfl

end Netra.Gateway
