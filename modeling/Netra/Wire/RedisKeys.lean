import Netra.Lib.Keys
import Mathlib.Data.Fintype.Sum
import Mathlib.Tactic.DeriveFintype
/-!
# Redis keys (`shared/netra/redis_keys.py`, `shared/netra/events.py`)

All key builders and constant keys share one namespace. No builder's fixed part
begins another's, so a key tells which builder made it and of what
(`text_injective`).
-/
namespace Netra.RedisKeys

open Keys

/-! ## The builders -/

def frameQueue (cameraId : String) : String := "netra:queue:frames:" ++ cameraId
def cameraConfig (cameraId : String) : String := "netra:config:camera:" ++ cameraId
def shopformerTrigger (cameraId : String) (trackId : Int) : String :=
  "netra:shopformer:trigger:" ++ key cameraId trackId
def trackRisk (cameraId : String) (trackId : Int) : String := "netra:risk:" ++ key cameraId trackId
def serviceHeartbeat (serviceName : String) : String := "netra:health:" ++ serviceName
def latestFrameJpeg (cameraId : String) : String := "netra:frame:jpeg:" ++ cameraId
def shopformerPoseBuffer (cameraId : String) (trackId : Int) : String :=
  "netra:shopformer:poses:" ++ key cameraId trackId
def overlayData (cameraId : String) : String := "netra:overlay:" ++ cameraId
def frameCounter (cameraId : String) : String := "netra:metrics:frames:" ++ cameraId
def inferenceLatency (cameraId : String) : String := "netra:metrics:latency:" ++ cameraId
def frameNotify (cameraId : String) : String := "netra:frame-notify:" ++ cameraId
def streamBehaviorCam (cameraId : String) : String := "netra:behavior:" ++ cameraId
def streamIncidentsCam (cameraId : String) : String := "netra:incidents:" ++ cameraId

/-! ## The constants -/

def activeCameras : String := "netra:cameras:active"
def wsClientsKey : String := "netra:metrics:ws_clients"
def streamFrames : String := "netra:frames"
def streamDetection : String := "netra:detection"
def streamAssociation : String := "netra:association"
def streamBehavior : String := "netra:behavior"
def streamShopformer : String := "netra:shopformer"
def streamIncidents : String := "netra:incidents"
def streamTelemetry : String := "netra:telemetry"

/-- `s.removeprefix(pre)` -/
def removeprefix (s pre : String) : String :=
  if pre.toList <+: s.toList then String.ofList (s.toList.drop pre.toList.length) else s

/-- The camera of a channel, in `FrameBroadcaster._producer`. -/
def notifiedCamera (channel : String) : String := removeprefix channel "netra:frame-notify:"

/-! ## All keys -/

/-- The builders of a camera id or a service name. -/
inductive Named where
  | frameQueue | cameraConfig | serviceHeartbeat | latestFrameJpeg | overlayData | frameCounter | inferenceLatency
  | frameNotify | streamBehaviorCam | streamIncidentsCam
  deriving DecidableEq

/-- The builders of a camera id and a track id. -/
inductive Tracked where
  | shopformerTrigger | trackRisk | shopformerPoseBuffer
  deriving DecidableEq

inductive Fixed where
  | activeCameras | wsClientsKey | streamFrames | streamDetection | streamAssociation | streamBehavior
  | streamShopformer | streamIncidents | streamTelemetry
  deriving DecidableEq

instance : Fintype Named :=
  .ofList [.frameQueue, .cameraConfig, .serviceHeartbeat, .latestFrameJpeg, .overlayData, .frameCounter,
    .inferenceLatency, .frameNotify, .streamBehaviorCam, .streamIncidentsCam] fun b => by cases b <;> decide

instance : Fintype Tracked :=
  .ofList [.shopformerTrigger, .trackRisk, .shopformerPoseBuffer] fun b => by cases b <;> decide

instance : Fintype Fixed :=
  .ofList [.activeCameras, .wsClientsKey, .streamFrames, .streamDetection, .streamAssociation, .streamBehavior,
    .streamShopformer, .streamIncidents, .streamTelemetry] fun c => by cases c <;> decide

def Named.build : Named → String → String
  | .frameQueue => RedisKeys.frameQueue
  | .cameraConfig => RedisKeys.cameraConfig
  | .serviceHeartbeat => RedisKeys.serviceHeartbeat
  | .latestFrameJpeg => RedisKeys.latestFrameJpeg
  | .overlayData => RedisKeys.overlayData
  | .frameCounter => RedisKeys.frameCounter
  | .inferenceLatency => RedisKeys.inferenceLatency
  | .frameNotify => RedisKeys.frameNotify
  | .streamBehaviorCam => RedisKeys.streamBehaviorCam
  | .streamIncidentsCam => RedisKeys.streamIncidentsCam

def Tracked.build : Tracked → String → Int → String
  | .shopformerTrigger => RedisKeys.shopformerTrigger
  | .trackRisk => RedisKeys.trackRisk
  | .shopformerPoseBuffer => RedisKeys.shopformerPoseBuffer

def Fixed.text : Fixed → String
  | .activeCameras => RedisKeys.activeCameras
  | .wsClientsKey => RedisKeys.wsClientsKey
  | .streamFrames => RedisKeys.streamFrames
  | .streamDetection => RedisKeys.streamDetection
  | .streamAssociation => RedisKeys.streamAssociation
  | .streamBehavior => RedisKeys.streamBehavior
  | .streamShopformer => RedisKeys.streamShopformer
  | .streamIncidents => RedisKeys.streamIncidents
  | .streamTelemetry => RedisKeys.streamTelemetry

/-- A constant, or a builder with its arguments. -/
inductive Key where
  | named (b : Named) (name : String)
  | tracked (b : Tracked) (cameraId : String) (trackId : Int)
  | fixed (c : Fixed)

def Key.text : Key → String
  | .named b name => b.build name
  | .tracked b cameraId trackId => b.build cameraId trackId
  | .fixed c => c.text

/-! ## What a key tells -/

/-- The fixed part of a builder. -/
def head : Named ⊕ Tracked → String
  | .inl b => b.build ""
  | .inr .shopformerTrigger => "netra:shopformer:trigger:"
  | .inr .trackRisk => "netra:risk:"
  | .inr .shopformerPoseBuffer => "netra:shopformer:poses:"

theorem Named.build_eq (b : Named) (name : String) : b.build name = head (.inl b) ++ name := by
  cases b <;> rfl

theorem Tracked.build_eq (b : Tracked) (cameraId : String) (trackId : Int) :
    b.build cameraId trackId = head (.inr b) ++ key cameraId trackId := by
  cases b <;> rfl

theorem prefixFree_head : PrefixFree head := by
  unfold PrefixFree
  decide +kernel

/-- No constant begins with the fixed part of a builder. -/
theorem head_ne_fixed (b : Named ⊕ Tracked) (s : String) (c : Fixed) : head b ++ s ≠ c.text := by
  have hall : ∀ (b : Named ⊕ Tracked) (c : Fixed), ¬ (head b).toList <+: c.text.toList := by decide +kernel
  intro h
  refine hall b c ?_
  rw [← h, String.toList_append]
  exact List.prefix_append _ _

theorem fixed_injective : Function.Injective Fixed.text := by
  intro c c' h
  revert c c'
  decide +kernel

/-- No two keys have one text. -/
theorem text_injective : Function.Injective Key.text := by
  intro k k' h
  cases k with
  | named b name =>
    cases k' with
    | named b' name' =>
      rw [Key.text, Key.text, Named.build_eq, Named.build_eq] at h
      obtain ⟨hb, rfl⟩ := prefixFree_head.append_inj h
      rw [Sum.inl.inj hb]
    | tracked b' cameraId' trackId' =>
      rw [Key.text, Key.text, Named.build_eq, Tracked.build_eq] at h
      exact absurd (prefixFree_head.append_inj h).1 Sum.inl_ne_inr
    | fixed c' =>
      rw [Key.text, Key.text, Named.build_eq] at h
      exact absurd h (head_ne_fixed _ _ _)
  | tracked b cameraId trackId =>
    cases k' with
    | named b' name' =>
      rw [Key.text, Key.text, Named.build_eq, Tracked.build_eq] at h
      exact absurd (prefixFree_head.append_inj h).1 Sum.inr_ne_inl
    | tracked b' cameraId' trackId' =>
      rw [Key.text, Key.text, Tracked.build_eq, Tracked.build_eq] at h
      obtain ⟨hb, hkey⟩ := prefixFree_head.append_inj h
      obtain ⟨rfl, rfl⟩ := key_inj.1 hkey
      rw [Sum.inr.inj hb]
    | fixed c' =>
      rw [Key.text, Key.text, Tracked.build_eq] at h
      exact absurd h (head_ne_fixed _ _ _)
  | fixed c =>
    cases k' with
    | named b' name' =>
      rw [Key.text, Key.text, Named.build_eq] at h
      exact absurd h.symm (head_ne_fixed _ _ _)
    | tracked b' cameraId' trackId' =>
      rw [Key.text, Key.text, Tracked.build_eq] at h
      exact absurd h.symm (head_ne_fixed _ _ _)
    | fixed c' => rw [fixed_injective h]

theorem removeprefix_append (pre s : String) : removeprefix (pre ++ s) pre = s := by
  have hlist : (pre ++ s).toList = pre.toList ++ s.toList := String.toList_append
  unfold removeprefix
  rw [hlist, if_pos (List.prefix_append _ _), List.drop_left, String.ofList_toList]

/-- Keys never collide, and a channel tells its camera. -/
theorem keys_never_collide :
    Function.Injective Key.text ∧ ∀ cameraId, notifiedCamera (frameNotify cameraId) = cameraId :=
  ⟨text_injective, fun _ => removeprefix_append _ _⟩

end Netra.RedisKeys
