import Netra.Lib.Fed
import Netra.Pipeline.Services
import Netra.Shopformer.Windows
/-!
# The services together

The association, behaviour, ShopFormer and risk workers and the streams between them,
from the detection frames to the incidents. A step is one move of one worker, a new
frame, a restart or a trim; the order of steps is arbitrary. Messages are taken as what
the receiver decodes them to. What a restart leaves is what is in Redis. Demo mode, which
makes up behaviour events and incidents, is off.
-/
namespace Netra.Pipeline

open PyLib RedisStream Association Behavior Risk Wire

/-- `ShopFormerInference`: `score` is `none` where it raises. The anomaly score is a
sigmoid. -/
structure Model where
  score : List (List (Json × Json)) → Option (ℚ × ℚ × List ℚ)
  unit : ∀ poses a e emb, score poses = some (a, e, emb) → 0 ≤ a ∧ a ≤ 1

/-- What the ShopFormer worker asks the host for in a turn. -/
structure Poll where
  mid : String
  redis : String → Option String
  now : ℚ

structure System where
  association : Group.State Engines DetectionEvent
  behavior : State Behavior.Worker AssociationEvent DetectionEvent
  shopformer : Group.State Shopformer.Worker BehaviorEvent
  risk : State Risk.Worker ShopFormerScore BehaviorEvent
  /-- `netra:incidents` -/
  incidents : List IncidentEvent := []

inductive Service where
  | association | behavior | shopformer | risk
  deriving DecidableEq, Repr

/-- The streams that are read by a service. -/
inductive Topic where
  | detection | association | behavior | shopformer
  deriving DecidableEq, Repr

inductive SystemAction where
  /-- The inference worker publishes a frame. -/
  | frame (d : DetectionEvent)
  | association
  | behavior
  | shopformer (x : Poll)
  | risk (x : HostCalls)
  | restart (service : Service) (now : ℚ)
  | trim (topic : Topic) (maxLen cut : Nat)

namespace System

/-- `netra:detection`, all that was ever added. -/
def frames (s : System) : List DetectionEvent := s.association.stream.entries

/-- `netra:behavior`, all that was ever added. -/
def events (s : System) : List BehaviorEvent := s.shopformer.stream.entries

/-- The services, started at `now` on empty streams. -/
def start (now : ℚ) : System where
  association := { vars := Dict.empty }
  behavior := { vars := {} }
  shopformer := { vars := .start now }
  risk := { vars := { lastPrune := now } }

section
variable (h : Host) (w : Settings) (loadZones : String → List ZoneConfig) (py : PyText) (model : Model)

/-- `run_consumer` of the association service. -/
def associationGroup : Group Engines Unit DetectionEvent (List AssociationEvent) where
  count := 20
  turn engines x := runConsumer h w loadZones engines x.2.data
  restart _ := Dict.empty

/-- A behaviour event, as the ShopFormer worker gets it. -/
def entryOf (x : Poll) (bev : BehaviorEvent) : Shopformer.Entry where
  mid := x.mid
  data := encodeBehaviorEvent py bev
  redis := x.redis
  score := model.score
  now := x.now

/-- An entry of `netra:behavior` and the score published for it. -/
def shopformerTurn (v : Shopformer.Worker) (x : Poll) (bev : BehaviorEvent) :
    Shopformer.Worker × Option ShopFormerScore :=
  let r := Shopformer.turn w py v (.entry (entryOf py model x bev))
  (r.1, r.2.sent.bind (decodeShopFormerScore py))

/-- `run` of the ShopFormer service; `now` is the time of the next restart. -/
def shopformerGroup (now : ℚ) : Group Shopformer.Worker Poll BehaviorEvent (Option ShopFormerScore) where
  count := 20
  turn v x := shopformerTurn w py model v x.1 x.2.data
  restart _ := .start now

/-- A move of the ShopFormer worker: a poll that finds nothing evicts. -/
def shopformerWork (x : Poll) (s : Group.State Shopformer.Worker BehaviorEvent) :
    Group.State Shopformer.Worker BehaviorEvent × Option ShopFormerScore :=
  if s.batch = [] ∧ s.stream.pending = [] then
    ({ s with vars := (Shopformer.turn w py s.vars (.idle x.now)).1 }, none)
  else
    let r := (shopformerGroup w py model x.now).work x s
    (r.1, r.2.join)

def addAssociation (s : System) (events : List AssociationEvent) : System :=
  { s with behavior := { s.behavior with side := s.behavior.side.addAll events } }

def addBehavior (s : System) (events : List BehaviorEvent) : System :=
  { s with
    shopformer := { s.shopformer with stream := s.shopformer.stream.addAll events }
    risk := { s.risk with main := s.risk.main.addAll events } }

def addShopformer (s : System) (scores : List ShopFormerScore) : System :=
  { s with risk := { s.risk with side := s.risk.side.addAll scores } }

/-- A service loses its locals and what it had in hand. -/
def restart (s : System) (now : ℚ) : Service → System
  | .association => { s with association := { s.association with vars := Dict.empty, batch := [] } }
  | .behavior => { s with behavior := { s.behavior with vars := {}, pc := .readSide } }
  | .shopformer => { s with shopformer := { s.shopformer with vars := .start now, batch := [] } }
  | .risk => { s with risk := { s.risk with vars := { lastPrune := now }, pc := .readSide } }

def trim (s : System) (maxLen cut : Nat) : Topic → System
  | .detection =>
    { s with
      association := { s.association with stream := s.association.stream.trim maxLen cut }
      behavior := { s.behavior with main := s.behavior.main.trim maxLen cut } }
  | .association => { s with behavior := { s.behavior with side := s.behavior.side.trim maxLen cut } }
  | .behavior =>
    { s with
      shopformer := { s.shopformer with stream := s.shopformer.stream.trim maxLen cut }
      risk := { s.risk with main := s.risk.main.trim maxLen cut } }
  | .shopformer => { s with risk := { s.risk with side := s.risk.side.trim maxLen cut } }

def step (s : System) : SystemAction → System
  | .frame d =>
    { s with
      association := { s.association with stream := s.association.stream.addAll [d] }
      behavior := { s.behavior with main := s.behavior.main.addAll [d] } }
  | .association =>
    let r := (associationGroup h w loadZones).work () s.association
    ({ s with association := r.1 }).addAssociation (r.2.getD [])
  | .behavior =>
    let r := (Behavior.Worker.run h w).workOut () s.behavior
    ({ s with behavior := r.1 }).addBehavior (r.2.flatMap Behavior.WorkerOut.published)
  | .shopformer x =>
    let r := shopformerWork w py model x s.shopformer
    ({ s with shopformer := r.1 }).addShopformer r.2.toList
  | .risk x =>
    let r := (Risk.Worker.run h w).workOut x s.risk
    { s with risk := r.1, incidents := s.incidents ++ r.2.filterMap Risk.WorkerOut.incident }
  | .restart service now => s.restart now service
  | .trim topic maxLen cut => s.trim maxLen cut topic

/-- The services after `acts`, started at `now`. -/
def after (now : ℚ) (acts : List SystemAction) : System := acts.foldl (step h w loadZones py model) (start now)

end

end System

end Netra.Pipeline
