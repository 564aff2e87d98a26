import Netra.Types
/-!
# Events on the wire (`shared/netra/events.py`)

Every message is a flat dict of strings. `PyText` is Python's text forms of
numbers and JSON; the encoders and decoders are written over it. `none` is a
decoder that raises.
-/
namespace Netra

open PyLib

/-- A value JSON can hold: no object has a key twice. -/
inductive Json.WellFormed : Json → Prop where
  | null : WellFormed .null
  | bool (b : Bool) : WellFormed (.bool b)
  | int (n : Int) : WellFormed (.int n)
  | float (q : ℚ) : WellFormed (.float q)
  | str (s : String) : WellFormed (.str s)
  | arr {xs : List Json} : (∀ x ∈ xs, WellFormed x) → WellFormed (.arr xs)
  | obj {kvs : List (String × Json)} : (kvs.map Prod.fst).Nodup → (∀ kv ∈ kvs, WellFormed kv.2) →
      WellFormed (.obj kvs)

/-- `str` and `int` on integers, `str` and `float` on floats, `json.dumps` and
`json.loads`: what is written is read back. -/
structure PyText where
  strInt : Int → String
  int : String → Option Int
  strFloat : ℚ → String
  float : String → Option ℚ
  dumps : Json → String
  loads : String → Option Json
  int_strInt : ∀ n, int (strInt n) = some n
  /-- `int("")` raises. -/
  int_empty : int "" = none
  float_strFloat : ∀ q, float (strFloat q) = some q
  loads_dumps : ∀ j, j.WellFormed → loads (dumps j) = some j

namespace Wire

/-- `dict[str, str]`, as a Redis entry holds it. -/
abbrev Message := List (String × String)

/-! ## Values inside JSON -/

/-- `v[k]` on an object. -/
def get (v : Json) (k : String) : Option Json :=
  match v with
  | .obj kvs => kvs.lookup k
  | _ => none

def asInt : Json → Option Int
  | .int n => some n
  | _ => none

/-- A number where a float is declared; `1` and `1.0` are equal in Python. -/
def asFloat : Json → Option ℚ
  | .int n => some n
  | .float q => some q
  | _ => none

def asStr : Json → Option String
  | .str s => some s
  | _ => none

def asList : Json → Option (List Json)
  | .arr xs => some xs
  | _ => none

/-- A dict, as the `metadata` of an association event. -/
def asDict : Json → Option (List (String × Json))
  | .obj kvs => some kvs
  | _ => none

def encBBox (b : BBox) : Json := .arr [.float b.x1, .float b.y1, .float b.x2, .float b.y2]

/-- `BBox(*b)` -/
def decBBox : Json → Option BBox
  | .arr [x1, y1, x2, y2] => do
    return { x1 := ← asFloat x1, y1 := ← asFloat y1, x2 := ← asFloat x2, y2 := ← asFloat y2 }
  | _ => none

def encKeypoint (kp : Keypoint) : Json := .arr [.float kp.x, .float kp.y, .float kp.conf]

/-- `Keypoint(k[0], k[1], k[2])` -/
def decKeypoint : Json → Option Keypoint
  | .arr (x :: y :: conf :: _) => do
    return { x := ← asFloat x, y := ← asFloat y, conf := ← asFloat conf }
  | _ => none

section
variable (py : PyText)

/-! ## Fields of a message -/

/-- `int(d[k])` -/
def intField (d : Message) (k : String) : Option Int := (d.lookup k).bind py.int

/-- `float(d[k])` -/
def floatField (d : Message) (k : String) : Option ℚ := (d.lookup k).bind py.float

/-- `json.loads(d[k])` -/
def jsonField (d : Message) (k : String) : Option Json := (d.lookup k).bind py.loads

/-- `E(d[k])` for an enumeration `E` -/
def enumField {α : Type} [DecidableEq α] [StrEnum α] (d : Message) (k : String) : Option α :=
  (d.lookup k).bind StrEnum.ofValue

/-- `d[k] or None` -/
def textOrNone (d : Message) (k : String) : Option (Option String) :=
  (d.lookup k).map fun s => if s = "" then none else some s

/-- `v or ""` -/
def orEmpty (v : Option String) : String := v.getD ""

/-! ## Frame pointers -/

def encodeFramePointer (fp : FramePointer) : Message := [
  ("camera_id", fp.cameraId),
  ("shm_name", fp.shmName),
  ("slot_index", py.strInt fp.slotIndex),
  ("generation", py.strInt fp.generation),
  ("width", py.strInt fp.width),
  ("height", py.strInt fp.height),
  ("channels", py.strInt fp.channels),
  ("timestamp", py.strFloat fp.timestamp),
  ("frame_seq", py.strInt fp.frameSeq)]

def decodeFramePointer (d : Message) : Option FramePointer := do
  return {
    cameraId := ← d.lookup "camera_id"
    shmName := ← d.lookup "shm_name"
    slotIndex := ← intField py d "slot_index"
    generation := ← intField py d "generation"
    width := ← intField py d "width"
    height := ← intField py d "height"
    channels := ← intField py d "channels"
    timestamp := ← floatField py d "timestamp"
    frameSeq := ← intField py d "frame_seq" }

/-! ## Detection events -/

/-- The arguments of `encode_detection_event`, less the `timestamp`, and the
result of `decode_detection_event`. -/
structure Detections where
  cameraId : String
  persons : List PersonDetection
  items : List ItemDetection
  frameSeq : Int
  deriving DecidableEq

def encPerson (p : PersonDetection) : Json := .obj [
  ("track_id", .int p.trackId),
  ("bbox", encBBox p.bbox),
  ("confidence", .float p.confidence),
  ("keypoints", .arr (p.keypoints.map encKeypoint)),
  ("frame_seq", .int p.frameSeq)]

def encItem (it : ItemDetection) : Json := .obj [
  ("item_id", .int it.itemId),
  ("bbox", encBBox it.bbox),
  ("class_name", .str it.className),
  ("confidence", .float it.confidence)]

/-- `timestamp or time.time()`, with `now` for the clock. -/
def stamp (timestamp : Option ℚ) (now : ℚ) : ℚ :=
  match timestamp with
  | none => now
  | some t => if t = 0 then now else t

/-- `encode_detection_event(camera_id, persons, items, frame_seq, timestamp)` at
the clock `now` -/
def encodeDetectionEvent (ev : Detections) (timestamp : Option ℚ) (now : ℚ) : Message := [
  ("camera_id", ev.cameraId),
  ("frame_seq", py.strInt ev.frameSeq),
  ("timestamp", py.strFloat (stamp timestamp now)),
  ("persons", py.dumps (.arr (ev.persons.map encPerson))),
  ("items", py.dumps (.arr (ev.items.map encItem)))]

def decPerson (cameraId : String) (timestamp : ℚ) (p : Json) : Option PersonDetection := do
  return {
    trackId := ← (get p "track_id").bind asInt
    cameraId
    bbox := ← (get p "bbox").bind decBBox
    confidence := ← (get p "confidence").bind asFloat
    keypoints := ← ((get p "keypoints").bind asList).bind (·.mapM decKeypoint)
    timestamp
    frameSeq := ← (get p "frame_seq").bind asInt }

def decItem (cameraId : String) (timestamp : ℚ) (it : Json) : Option ItemDetection := do
  return {
    itemId := ← (get it "item_id").bind asInt
    cameraId
    bbox := ← (get it "bbox").bind decBBox
    className := ← (get it "class_name").bind asStr
    confidence := ← (get it "confidence").bind asFloat
    timestamp }

def decodeDetectionEvent (d : Message) : Option (Detections × ℚ) := do
  let cameraId ← d.lookup "camera_id"
  let frameSeq ← intField py d "frame_seq"
  let timestamp ← floatField py d "timestamp"
  let persons ← ((jsonField py d "persons").bind asList).bind (·.mapM (decPerson cameraId timestamp))
  let items ← ((jsonField py d "items").bind asList).bind (·.mapM (decItem cameraId timestamp))
  return ({ cameraId, persons, items, frameSeq }, timestamp)

/-! ## Association events -/

/-- `str(ev.item_id) if ev.item_id is not None else ""` -/
def encodeItemId : Option Int → String
  | none => ""
  | some n => py.strInt n

/-- `int(d["item_id"]) if d["item_id"] else None` -/
def decodeItemId (s : String) : Option (Option Int) := if s = "" then some none else (py.int s).map some

def encodeAssociationEvent (ev : AssociationEvent) : Message := [
  ("camera_id", ev.cameraId),
  ("track_id", py.strInt ev.trackId),
  ("event_type", StrEnum.value ev.eventType),
  ("item_id", encodeItemId py ev.itemId),
  ("zone_name", orEmpty ev.zoneName),
  ("confidence", py.strFloat ev.confidence),
  ("metadata", py.dumps (.obj ev.metadata)),
  ("timestamp", py.strFloat ev.timestamp)]

def decodeAssociationEvent (d : Message) : Option AssociationEvent := do
  return {
    cameraId := ← d.lookup "camera_id"
    trackId := ← intField py d "track_id"
    eventType := ← enumField d "event_type"
    itemId := ← (d.lookup "item_id").bind (decodeItemId py)
    zoneName := ← textOrNone d "zone_name"
    confidence := ← floatField py d "confidence"
    metadata := ← (jsonField py d "metadata").bind asDict
    timestamp := ← floatField py d "timestamp" }

/-! ## Behaviour events -/

def encSignal (s : BehaviorSignal) : Json := .obj [
  ("signal_name", .str s.signalName),
  ("weight", .float s.weight),
  ("fsm_state", .str (StrEnum.value s.fsmState)),
  ("concealment_type", .str (StrEnum.value s.concealmentType))]

def encodeBehaviorEvent (ev : BehaviorEvent) : Message := [
  ("camera_id", ev.cameraId),
  ("track_id", py.strInt ev.trackId),
  ("fsm_state", StrEnum.value ev.fsmState),
  ("fsm_score", py.strFloat ev.fsmScore),
  ("signals", py.dumps (.arr (ev.signals.map encSignal))),
  ("concealment_type", StrEnum.value ev.concealmentType),
  ("suspicious", if ev.suspicious then "1" else "0"),
  ("timestamp", py.strFloat ev.timestamp)]

/-- A signal has its camera, track, score and time from the envelope. -/
def decSignal (d : Message) (s : Json) : Option BehaviorSignal := do
  return {
    cameraId := ← d.lookup "camera_id"
    trackId := ← intField py d "track_id"
    signalName := ← (get s "signal_name").bind asStr
    weight := ← (get s "weight").bind asFloat
    fsmState := ← ((get s "fsm_state").bind asStr).bind StrEnum.ofValue
    cumulativeFsmScore := ← floatField py d "fsm_score"
    concealmentType := ← ((get s "concealment_type").bind asStr).bind StrEnum.ofValue
    timestamp := ← floatField py d "timestamp" }

def decodeBehaviorEvent (d : Message) : Option BehaviorEvent := do
  let signals ← ((jsonField py d "signals").bind asList).bind (·.mapM (decSignal py d))
  return {
    cameraId := ← d.lookup "camera_id"
    trackId := ← intField py d "track_id"
    fsmState := ← enumField d "fsm_state"
    fsmScore := ← floatField py d "fsm_score"
    signals
    concealmentType := ← enumField d "concealment_type"
    suspicious := (← d.lookup "suspicious") = "1"
    timestamp := ← floatField py d "timestamp" }

/-! ## ShopFormer scores -/

def encodeShopFormerScore (s : ShopFormerScore) : Message := [
  ("camera_id", s.cameraId),
  ("track_id", py.strInt s.trackId),
  ("anomaly_score", py.strFloat s.anomalyScore),
  ("reconstruction_error", py.strFloat s.reconstructionError),
  ("embedding", py.dumps (.arr (s.embedding.map .float))),
  ("pose_sequence_len", py.strInt s.poseSequenceLen),
  ("timestamp", py.strFloat s.timestamp)]

def decodeShopFormerScore (d : Message) : Option ShopFormerScore := do
  return {
    cameraId := ← d.lookup "camera_id"
    trackId := ← intField py d "track_id"
    anomalyScore := ← floatField py d "anomaly_score"
    reconstructionError := ← floatField py d "reconstruction_error"
    embedding := ← ((jsonField py d "embedding").bind asList).bind (·.mapM asFloat)
    poseSequenceLen := ← intField py d "pose_sequence_len"
    timestamp := ← floatField py d "timestamp" }

/-! ## Incidents -/

def encodeIncidentEvent (ev : IncidentEvent) : Message := [
  ("incident_id", ev.incidentId),
  ("camera_id", ev.cameraId),
  ("track_id", py.strInt ev.trackId),
  ("risk_score", py.strFloat ev.riskScore),
  ("fsm_score", py.strFloat ev.fsmScore),
  ("shopformer_score", py.strFloat ev.shopformerScore),
  ("theft_stage", StrEnum.value ev.theftStage),
  ("concealment_type", StrEnum.value ev.concealmentType),
  ("severity", StrEnum.value ev.severity),
  ("status", StrEnum.value ev.status),
  ("evidence_frame_paths", py.dumps (.arr (ev.evidenceFramePaths.map .str))),
  ("clip_path", orEmpty ev.clipPath),
  ("model_version", ev.modelVersion),
  ("logic_version", ev.logicVersion),
  ("timestamp", py.strFloat ev.timestamp)]

/-- `store_id` and `org_id` are not on the wire; they take their defaults. -/
def decodeIncidentEvent (d : Message) : Option IncidentEvent := do
  return {
    incidentId := ← d.lookup "incident_id"
    cameraId := ← d.lookup "camera_id"
    trackId := ← intField py d "track_id"
    riskScore := ← floatField py d "risk_score"
    fsmScore := ← floatField py d "fsm_score"
    shopformerScore := ← floatField py d "shopformer_score"
    theftStage := ← enumField d "theft_stage"
    concealmentType := ← enumField d "concealment_type"
    severity := ← enumField d "severity"
    status := ← enumField d "status"
    evidenceFramePaths := ← ((jsonField py d "evidence_frame_paths").bind asList).bind (·.mapM asStr)
    clipPath := ← textOrNone d "clip_path"
    modelVersion := ← d.lookup "model_version"
    logicVersion := ← d.lookup "logic_version"
    timestamp := ← floatField py d "timestamp" }

end

end Wire

end Netra
