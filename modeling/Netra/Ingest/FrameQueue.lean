import Netra.Lib.Machine
import Netra.Wire.JsonLines
/-!
# The frame queue of a camera

`CameraWorker.run` (`backend/services/mediabridge/main.py`) pushes pointers to
its frames, `run_worker` (`backend/services/inference/main.py`) pops them. Each
Redis command is one step; what a side does between two commands goes with the
second. The left end of the list is the newest entry.
-/
namespace Netra

open PyLib Wire

namespace Ingest

/-! ## Redis lists -/

/-- `RPOP` -/
def rpop (q : List String) : List String × Option String := (q.dropLast, q.getLast?)

/-- `LTRIM q 0 stop`; a negative `stop` counts from the right end. -/
def ltrim (stop : Int) (q : List String) : List String :=
  if stop < 0 then q.take (q.length + stop + 1).toNat else q.take (stop + 1).toNat

/-! ## The two sides -/

/-- A camera worker, and the setting both sides read. -/
structure Config where
  cameraId : String
  shmName : String
  width : Int
  height : Int
  /-- `settings.max_queue_depth_per_camera` -/
  maxDepth : Int

/-- What comes with a frame: where the ring buffer put it, and the clock. -/
structure Frame where
  slot : Int
  generation : Int
  now : ℚ

/-- The next command of the camera worker. -/
inductive WorkerAt where
  /-- `llen`, once there is a frame -/
  | frame
  /-- `rpop`: the queue was full -/
  | full (fp : FramePointer)
  /-- `lpush` -/
  | push (fp : FramePointer)
  /-- `ltrim` -/
  | trim
  /-- `llen`, for the metric -/
  | count

/-- The next command of the inference worker. -/
inductive InferenceAt where
  /-- `llen` -/
  | depth
  /-- the `rpop`s of the pipeline, with `left + 1` to go -/
  | drain (left : Nat)
  /-- `rpop` of the frame to process -/
  | pop

structure State where
  queue : List String
  frameSeq : Int
  worker : WorkerAt
  inference : InferenceAt

/-- An empty queue, and both sides at their first command. -/
def State.init : State := ⟨[], 0, .frame, .depth⟩

inductive Action where
  /-- the next command of the camera worker; `f` is the frame it reads if it comes to one -/
  | worker (f : Frame)
  | inference

inductive Event where
  | nothing
  /-- popped by the camera worker to make room -/
  | dropped (raw : Option String)
  /-- cut off by `ltrim` -/
  | trimmed (raws : List String)
  /-- discarded by the inference worker -/
  | drained (raw : Option String)
  /-- popped by the inference worker for processing -/
  | popped (raw : Option String)

section
variable (py : PyJson) (cfg : Config)

/-- The entry of a frame pointer: `json.dumps(encode_frame_pointer(fp))` -/
def payload (fp : FramePointer) : String := py.dumps (.obj (jsonItems (encodeFramePointer py.toPyText fp)))

/-- `decode_frame_pointer(json.loads(raw))` -/
def readPointer (raw : String) : Option FramePointer :=
  match py.loads raw with
  | some (.obj kvs) => decodeFramePointer py.toPyText (strItems py kvs)
  | _ => none

/-- `FramePointer(...)` for the frame numbered `seq` -/
def pointer (seq : Int) (f : Frame) : FramePointer where
  cameraId := cfg.cameraId
  shmName := cfg.shmName
  slotIndex := f.slot
  generation := f.generation
  width := cfg.width
  height := cfg.height
  channels := 3
  timestamp := f.now
  frameSeq := seq

def step (s : State) : Action → State × Event
  | .worker f =>
    match s.worker with
    | .frame =>
      let fp := pointer cfg (s.frameSeq + 1) f
      ({ s with
        frameSeq := s.frameSeq + 1
        worker := if cfg.maxDepth ≤ s.queue.length then .full fp else .push fp }, .nothing)
    | .full fp => ({ s with queue := (rpop s.queue).1, worker := .push fp }, .dropped (rpop s.queue).2)
    | .push fp => ({ s with queue := payload py fp :: s.queue, worker := .trim }, .nothing)
    | .trim =>
      let kept := ltrim (cfg.maxDepth - 1) s.queue
      ({ s with queue := kept, worker := .count }, .trimmed (s.queue.drop kept.length))
    | .count => ({ s with worker := .frame }, .nothing)
  | .inference =>
    match s.inference with
    | .depth =>
      ({ s with
        inference :=
          if cfg.maxDepth < s.queue.length then
            -- `excess = depth - 1`
            match s.queue.length - 1 with
            | 0 => .pop
            | left + 1 => .drain left
          else .pop }, .nothing)
    | .drain left =>
      ({ s with
        queue := (rpop s.queue).1
        inference := match left with
          | 0 => .pop
          | left + 1 => .drain left }, .drained (rpop s.queue).2)
    | .pop => ({ s with queue := (rpop s.queue).1, inference := .depth }, .popped (rpop s.queue).2)

/-- The state after the actions `as`. -/
def stateAfter (as : List Action) : State := Mealy.after (step py cfg) .init as

def events (as : List Action) : List Event := Mealy.outs (step py cfg) .init as

/-- What the inference worker goes on with: `if not raw: continue` -/
def Event.obtained : Event → Option String
  | .popped (some raw) => if raw = "" then none else some raw
  | _ => none

/-- The entries the inference worker obtained, in order. -/
def obtained (as : List Action) : List String := (events py cfg as).filterMap Event.obtained

end

end Ingest

end Netra
