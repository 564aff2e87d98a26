import Netra.Lib.Keyed
import Netra.Lib.Numeric
import Netra.Settings
import Netra.Types
/-!
# The association engine (`backend/services/association/engine.py`)

One `AssociationEngine` per camera turns detections into association events.
-/
namespace Netra.Association

open PyLib

structure ZoneConfig where
  name : String
  polygon : List (ℚ × ℚ)
  deriving DecidableEq, Repr

namespace ZoneConfig

def containsPoint (h : Host) (z : ZoneConfig) (x y : ℚ) : Bool := h.contains z.polygon x y

def containsBBox (h : Host) (z : ZoneConfig) (b : BBox) : Bool := z.containsPoint h b.cx b.cy

end ZoneConfig

/-- Per-track state; the two sets are lists read through membership. -/
structure PersonState where
  trackId : Int
  cameraId : String
  lastBBox : Option BBox := none
  lastTs : ℚ
  activeZones : List String := []
  heldItems : List Int := []
  speedHistory : List ℚ := []
  baselineSpeed : ℚ := 0
  framesNearShelf : Nat := 0
  lastSpeedSpikeTs : ℚ := 0
  deriving DecidableEq, Repr

structure AssociationEngine where
  cameraId : String
  zones : List ZoneConfig
  persons : Dict Int PersonState := Dict.empty
  lastItems : Dict Int (BBox × ℚ) := Dict.empty

/-- `AssociationEngine(camera_id)` with the zones of the zone file. -/
def AssociationEngine.init (cameraId : String) (zones : List ZoneConfig) : AssociationEngine :=
  { cameraId, zones }

/-! ## Geometry helpers -/

def itemsNearBBox (personBBox : BBox) (items : List ItemDetection) (thresholdPx : ℚ) : List ItemDetection :=
  items.filter fun it =>
    let dx := personBBox.cx - it.bbox.cx
    let dy := personBBox.cy - it.bbox.cy
    dx * dx + dy * dy ≤ thresholdPx * thresholdPx

/-- Whether at least `threshold` of `b`'s area lies inside `a`. -/
def bboxOverlap (a b : BBox) (threshold : ℚ) : Bool :=
  let ix1 := max a.x1 b.x1
  let iy1 := max a.y1 b.y1
  let ix2 := min a.x2 b.x2
  let iy2 := min a.y2 b.y2
  if ix2 ≤ ix1 ∨ iy2 ≤ iy1 then false
  else
    let inter := (ix2 - ix1) * (iy2 - iy1)
    let bArea := b.width * b.height
    threshold ≤ (if 0 < bArea then inter / bArea else 0)

/-! ## `_update_person`, section by section -/

section
variable (h : Host) (w : Settings) (e : AssociationEngine)

/-- Zone intersection: one event for each zone entered or left. -/
def zoneEvents (st : PersonState) (person : PersonDetection) (timestamp : ℚ) : List AssociationEvent :=
  e.zones.filterMap fun zone =>
    if zone.containsBBox h person.bbox then
      if zone.name ∈ st.activeZones then none
      else some { cameraId := e.cameraId, trackId := person.trackId, eventType := .zoneEnter,
                  zoneName := zone.name, timestamp }
    else if zone.name ∈ st.activeZones then
      some { cameraId := e.cameraId, trackId := person.trackId, eventType := .zoneExit,
             zoneName := zone.name, timestamp }
    else none

def currentZones (bbox : BBox) : List String :=
  (e.zones.filter fun zone => zone.containsBBox h bbox).map (·.name)

/-- Shelf interaction: `frames_near_shelf` after the frame. -/
def nearShelf (st : PersonState) (bbox : BBox) (items : List ItemDetection) : Nat :=
  if itemsNearBBox bbox items 80 ≠ [] then st.framesNearShelf + 1 else 0

/-- The events for a track that has been near an item for `n` frames. -/
def shelfEvents (n : Nat) (person : PersonDetection) (timestamp : ℚ) : List AssociationEvent :=
  (if n = 1 then
    [{ cameraId := e.cameraId, trackId := person.trackId, eventType := .shelfApproach, timestamp }]
   else []) ++
  (if 0 < n ∧ w.nFramesHandInShelf ≤ n then
    [{ cameraId := e.cameraId, trackId := person.trackId, eventType := .shelfInteraction, timestamp,
       confidence := 0.8 }]
   else [])

/-- Whether the vanished `itemId` was last seen less than 1.5 s ago on this person. -/
def picked (lastItems : Dict Int (BBox × ℚ)) (bbox : BBox) (timestamp : ℚ) (itemId : Int) : Bool :=
  match lastItems.get? itemId with
  | none => false
  | some (lastBBox, lastTs) => timestamp - 1.5 < lastTs && bboxOverlap bbox lastBBox 0.3

def pickupEvents (lastItems : Dict Int (BBox × ℚ)) (disappeared : List Int) (person : PersonDetection)
    (timestamp : ℚ) : List AssociationEvent :=
  (disappeared.filter (picked lastItems person.bbox timestamp)).map fun itemId =>
    { cameraId := e.cameraId, trackId := person.trackId, eventType := .itemPickup, itemId := some itemId,
      confidence := 0.75, timestamp }

/-- Speed spike: the state with its speed history, and the event if there is one. -/
def speedSpike (st : PersonState) (person : PersonDetection) (timestamp : ℚ) :
    PersonState × List AssociationEvent :=
  match st.lastBBox with
  | none => (st, [])
  | some lastBBox =>
    let dt := max (timestamp - st.lastTs) 1e-6
    let dx := person.bbox.cx - lastBBox.cx
    let dy := person.bbox.cy - lastBBox.cy
    let speed := h.sqrt (dx * dx + dy * dy) / dt
    let speedHistory := push 10 st.speedHistory speed
    if 5 ≤ speedHistory.length then
      -- The median leaves out the newest speed.
      let baseline := median speedHistory.dropLast
      if 1 < baseline ∧ baseline * w.speedSpikeMultiplier < speed ∧ 2 < timestamp - st.lastSpeedSpikeTs then
        ({ st with speedHistory, baselineSpeed := baseline, lastSpeedSpikeTs := timestamp },
         [{ cameraId := e.cameraId, trackId := person.trackId, eventType := .speedSpike,
            confidence := min 1 (speed / (baseline * w.speedSpikeMultiplier)),
            metadata := [("speed", .float speed), ("baseline", .float baseline)], timestamp }])
      else ({ st with speedHistory, baselineSpeed := baseline }, [])
    else ({ st with speedHistory }, [])

/-- `_update_person`; `e.lastItems` is the registry after this frame's update. -/
def updatePerson (st : PersonState) (person : PersonDetection) (items : List ItemDetection)
    (disappeared : List Int) (timestamp : ℚ) : PersonState × List AssociationEvent :=
  let zoneEvs := zoneEvents h e st person timestamp
  let framesNearShelf := nearShelf st person.bbox items
  let shelfEvs := shelfEvents w e framesNearShelf person timestamp
  let pickupEvs := pickupEvents e e.lastItems disappeared person timestamp
  let st := { st with
    activeZones := currentZones h e person.bbox
    framesNearShelf
    heldItems := st.heldItems ++ pickupEvs.filterMap (·.itemId) }
  let (st, spikeEvs) := speedSpike h w e st person timestamp
  ({ st with lastBBox := some person.bbox, lastTs := timestamp }, zoneEvs ++ shelfEvs ++ pickupEvs ++ spikeEvs)

/-! ## `process_frame` -/

/-- The registry with this frame's items, less those not seen for 2 s. -/
def registerItems (lastItems : Dict Int (BBox × ℚ)) (items : List ItemDetection) (timestamp : ℚ) :
    Dict Int (BBox × ℚ) :=
  (items.foldl (fun d it => d.set it.itemId (it.bbox, timestamp)) lastItems).filter
    fun _ v => timestamp - v.2 < 2

/-- The state `_update_person` starts from. `last_ts` of a fresh state is the wall
clock in the source; `_update_person` overwrites it before anything reads it. -/
def stateOf (person : PersonDetection) (timestamp : ℚ) (st : Option PersonState) : PersonState :=
  st.getD { trackId := person.trackId, cameraId := e.cameraId, lastTs := timestamp }

/-- One turn of the person loop. -/
def personTurn (items : List ItemDetection) (disappeared : List Int) (timestamp : ℚ)
    (st : Option PersonState) (person : PersonDetection) : PersonState × List AssociationEvent :=
  updatePerson h w e (stateOf e person timestamp st) person items disappeared timestamp

def processFrame (persons : List PersonDetection) (items : List ItemDetection) (timestamp : ℚ) :
    AssociationEngine × List AssociationEvent :=
  -- Ids that were in the registry before this frame.
  let disappeared := h.setDiff e.lastItems.keys (items.map (·.itemId))
  let e := { e with lastItems := registerItems e.lastItems items timestamp }
  let turn := Mealy.keyed (·.trackId) (personTurn h w e items disappeared timestamp)
  let states := Mealy.after turn e.persons persons
  let events := (Mealy.outs turn e.persons persons).flatten
  let seenTrackIds := persons.map (·.trackId)
  -- Clean up tracks not seen in the last 5 s.
  let states := states.filter fun tid st => !(tid ∉ seenTrackIds && 5 < timestamp - st.lastTs)
  ({ e with persons := states }, events)

end

end Netra.Association
