import Netra.Lib.Dict
import Netra.Lib.Keys
import Netra.Lib.Machine
import Netra.Settings
import Netra.Wire.Codecs
/-!
# Pose windows (`backend/services/shopformer/main.py`)

`PoseBuffer` keeps the last `seq_len` poses of each track under the key
`camera:track`. `run` pushes the poses of suspicious tracks, hands a full window
to the model, and evicts stale windows when a poll finds nothing to read.
-/
namespace Netra

open PyLib Wire

namespace Shopformer

/-- `(timestamp, [[x, y], ...])` -/
abbrev Frame := ℚ × List (Json × Json)

/-! ## `PoseBuffer` -/

structure PoseBuffer where
  buffers : Dict String (List Frame)
  lastScored : Dict String ℚ

namespace PoseBuffer

def new : PoseBuffer := ⟨.empty, .empty⟩

/-- `self._buffers[key]` -/
def frames (b : PoseBuffer) (key : String) : List Frame := (b.buffers.get? key).getD []

variable (w : Settings)

def push (b : PoseBuffer) (cameraId : String) (trackId : Int) (x : Frame) : PoseBuffer :=
  let key := Keys.key cameraId trackId
  { b with buffers := b.buffers.set key (PyLib.push w.shopformerSeqLen (b.frames key) x) }

/-- What `ready` finds; a key it meets for the first time has an empty deque from then on. -/
def touch (b : PoseBuffer) (cameraId : String) (trackId : Int) : PoseBuffer :=
  let key := Keys.key cameraId trackId
  { b with buffers := b.buffers.set key (b.frames key) }

def ready (b : PoseBuffer) (cameraId : String) (trackId : Int) (now : ℚ) : Bool :=
  let key := Keys.key cameraId trackId
  if (b.frames key).length < w.shopformerSeqLen then false
  else (w.shopformerStride : ℚ) / 10 ≤ now - (b.lastScored.get? key).getD 0

/-- `get_sequence` -/
def getSequence (b : PoseBuffer) (cameraId : String) (trackId : Int) (now : ℚ) :
    PoseBuffer × List (List (Json × Json)) :=
  let key := Keys.key cameraId trackId
  ({ b with lastScored := b.lastScored.set key now }, (b.frames key).map Prod.snd)

/-- `buf and now - buf[-1][0] > max_age_sec` -/
def isStale (now maxAgeSec : ℚ) (buf : List Frame) : Bool := buf.getLast?.any fun x => maxAgeSec < now - x.1

/-- `evict_stale()` -/
def evictStale (b : PoseBuffer) (now : ℚ) (maxAgeSec : ℚ := 30) : PoseBuffer where
  buffers := b.buffers.filter fun _ buf => !isStale now maxAgeSec buf
  lastScored := b.lastScored.filter fun key _ => !isStale now maxAgeSec (b.frames key)

end PoseBuffer

/-! ## `run` -/

/-- One entry, and what its handling meets. -/
structure Entry where
  mid : String
  data : Message
  /-- `redis.get` -/
  redis : String → Option String
  /-- `model.score`; `none` when it raises -/
  score : List (List (Json × Json)) → Option (ℚ × ℚ × List ℚ)
  now : ℚ

inductive Turn where
  /-- A poll that finds nothing, at the time `now`. -/
  | idle (now : ℚ)
  | entry (e : Entry)

structure Worker where
  poseBuffer : PoseBuffer
  lastEvict : ℚ

/-- `last_evict = time.time()` -/
def Worker.start (now : ℚ) : Worker := ⟨.new, now⟩

/-- What a turn does besides: the sequence it hands to `model.score` and for whom,
the message it sends, the entry it acknowledges. -/
structure Effects where
  scored : Option (String × Int × List (List (Json × Json))) := none
  sent : Option Message := none
  acked : Option String := none

variable (w : Settings) (py : PyText)

/-- What iterating over a JSON value gives. -/
def iter : Json → Option (List Json)
  | .arr xs => some xs
  | .str s => some (s.toList.map fun c => .str (String.singleton c))
  | .obj kvs => some (kvs.map fun kv => .str kv.1)
  | _ => none

/-- `[kp[0], kp[1]]` -/
def xyOf : Json → Option (Json × Json)
  | .arr (x :: y :: _) => some (x, y)
  | .str s =>
    match s.toList with
    | x :: y :: _ => some (.str (String.singleton x), .str (String.singleton y))
    | _ => none
  | _ => none

/-- The pose under a track's key: `some none` when there is none, `none` when reading
it raises. -/
def poseOf (e : Entry) (bev : BehaviorEvent) : Option (Option Frame) :=
  match e.redis s!"netra:kp:{bev.cameraId}:{bev.trackId}" with
  | none => some none
  | some raw =>
    if raw = "" then some none
    else do
      let xy ← (← iter (← py.loads raw)).mapM xyOf
      return some (bev.timestamp, xy)

/-- The entry's pose, pushed. -/
def pushed (b : PoseBuffer) (bev : BehaviorEvent) : Option Frame → PoseBuffer
  | none => b
  | some x => b.push w bev.cameraId bev.trackId x

/-- An entry of a suspicious track, after its pose has been read. -/
def scoreIfReady (e : Entry) (bev : BehaviorEvent) (b : PoseBuffer) : PoseBuffer × Effects :=
  if b.ready w bev.cameraId bev.trackId e.now then
    let (b, sequence) := (b.touch bev.cameraId bev.trackId).getSequence bev.cameraId bev.trackId e.now
    (b, {
      scored := some (bev.cameraId, bev.trackId, sequence)
      sent := (e.score sequence).map fun (anomalyScore, reconError, embedding) =>
        encodeShopFormerScore py
          { cameraId := bev.cameraId
            trackId := bev.trackId
            anomalyScore
            reconstructionError := reconError
            embedding
            poseSequenceLen := sequence.length
            timestamp := bev.timestamp }
      acked := some e.mid })
  else (b.touch bev.cameraId bev.trackId, { acked := some e.mid })

/-- The body of the loop over the entries. -/
def handle (b : PoseBuffer) (e : Entry) : PoseBuffer × Effects :=
  match decodeBehaviorEvent py e.data with
  -- `except`: the error is logged and the entry acknowledged all the same
  | none => (b, { acked := some e.mid })
  | some bev =>
    if bev.suspicious then
      match poseOf py e bev with
      | none => (b, { acked := some e.mid })
      | some pose => scoreIfReady w py e bev (pushed w b bev pose)
    else (b, { acked := some e.mid })

/-- One turn: an idle poll, or one entry of a batch. -/
def turn (s : Worker) : Turn → Worker × Effects
  | .idle now =>
    -- periodic buffer eviction
    if 60 < now - s.lastEvict then (⟨s.poseBuffer.evictStale now, now⟩, {}) else (s, {})
  | .entry e =>
    let (b, effects) := handle w py s.poseBuffer e
    (⟨b, s.lastEvict⟩, effects)

/-- The worker after the turns `ts`, started at `t0`. -/
def workerAfter (t0 : ℚ) (ts : List Turn) : Worker := Mealy.after (turn w py) (.start t0) ts

end Shopformer

end Netra
