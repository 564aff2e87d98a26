import Netra.Alerting.Cooldown
import Netra.Lib.Group
import Netra.Wire.Codecs
/-!
# The alerting worker

`run` (`backend/services/alerting/main.py`) and `AlertDispatcher` (`channels.py`).
The windows of the rate limit live in Redis and outlast a restart. A turn is taken
whole here, and one `await` at a time in `Turns`.
-/
namespace Netra

open PyLib Wire RedisStream

namespace Alerting

/-- The subclasses of `AlertChannel`. -/
inductive Channel where
  | telegram
  | email
  | sms
  | webhook
  deriving DecidableEq

structure ChannelSettings where
  telegramEnabled : Bool
  emailEnabled : Bool
  smsEnabled : Bool
  webhookEnabled : Bool

/-- The channels of an `AlertDispatcher`. -/
def ChannelSettings.channels (cs : ChannelSettings) : List Channel :=
  (if cs.telegramEnabled then [.telegram] else []) ++ (if cs.emailEnabled then [.email] else []) ++
    (if cs.smsEnabled then [.sms] else []) ++ (if cs.webhookEnabled then [.webhook] else [])

/-- How `ch.send(incident)` ends. -/
inductive Reply where
  | sent
  | refused
  | raised

/-- A call of `ch.send`. -/
structure Send where
  channel : Channel
  incident : IncidentEvent
  reply : Reply

/-- What a turn meets: the clocks and the random number of `try_dispatch`, unless it
raises, and what the channels answer. -/
structure Meets where
  script : Option (ℚ × Int × Nat)
  replies : Channel → Reply

structure Worker where
  /-- `netra:cooldown:window:{camera_id}` -/
  keys : Dict String WindowKey
  sends : List Send
  acked : List Nat

def Worker.init : Worker := ⟨.empty, [], []⟩

/-- How the turn of an entry ended. -/
inductive Outcome where
  | unreadable
  /-- `try_dispatch` raised -/
  | unlimited (incident : IncidentEvent)
  | suppressed (incident : IncidentEvent) (c : Call)
  | alerted (incident : IncidentEvent) (c : Call)

namespace Worker

def key (s : Worker) (cameraId : String) : WindowKey := (s.keys.get? cameraId).getD .missing

/-- `dispatch`: an error of a channel is logged, and the next one is tried. -/
def dispatch (channels : List Channel) (incident : IncidentEvent) (replies : Channel → Reply) : List Send :=
  channels.map fun ch => ⟨ch, incident, replies ch⟩

/-- `xack`, at the end of every turn. -/
def ack (id : Nat) (s : Worker) : Worker := { s with acked := s.acked ++ [id] }

section
variable (py : PyText) (cd : CameraAlertCooldown) (channels : List Channel)

def turn (s : Worker) (i : Meets × Entry Message) : Worker × Outcome :=
  match decodeIncidentEvent py i.2.data with
  | none => (s.ack i.2.id, .unreadable)
  | some incident =>
    match i.1.script with
    | none => (s.ack i.2.id, .unlimited incident)
    | some (now, serverMs, random) =>
      let c : Call := ⟨incident.severity = .critical, now, serverMs, random⟩
      let (key, allowed) := cd.tryDispatch (s.key incident.cameraId) c
      let s := { s with keys := s.keys.set incident.cameraId key }
      if allowed then
        let s := { s with sends := s.sends ++ dispatch channels incident i.1.replies }
        (s.ack i.2.id, .alerted incident c)
      else (s.ack i.2.id, .suppressed incident c)

/-- `run`, on `netra:incidents` -/
def run : Group Worker Meets Message Outcome where
  count := 5
  turn := turn py cd channels
  restart := id

end

end Worker

end Alerting

end Netra
