import Netra.Lib.Lagging
import Netra.Lib.Machine
import Netra.Ingest.FrameQueue
import Netra.Wire.RedisKeys
/-!
# The frame broadcaster

`FrameBroadcaster` (`backend/services/streaming/broadcaster.py`) and the clients
that `_frame_generator` (`router.py`) serves. The producer and the clients are tasks
of one event loop, so a step is what one of them does from one `await` to the next;
between the read of a frame and its fan-out the producer awaits the overlay.

A client reads what was fanned out for its camera while it was connected, in order,
and falls behind by two frames at most (`clients_served`).
-/
namespace Netra

open PyLib Wire RedisKeys

namespace Streaming

variable {F B : Type}

/-- The calls out of `_producer`; `none` is an exception. -/
structure Codec (F B : Type) where
  drawOverlay : F → String → Option F
  encodeJpeg : F → Option B

/-- `redis.get(overlay_data(cam_id))` -/
inductive Reply where
  | raised
  | value (json : Option String)

/-- The frame with its overlay, if there is one, as a JPEG. -/
def Codec.encode (codec : Codec F B) (frame : F) : Reply → Option B
  | .raised => none
  | .value none => codec.encodeJpeg frame
  | .value (some json) =>
    if json = "" then codec.encodeJpeg frame else (codec.drawOverlay frame json).bind codec.encodeJpeg

/-- A message of the subscription; `shm` is what `ReaderCache.get(..).read(..)` gives for a
pointer when it is heard. -/
structure Message (F : Type) where
  channel : String
  data : String
  shm : FramePointer → Option F

/-- The frame that a message points to. -/
def Message.frame (py : PyJson) (m : Message F) : Option F := (Ingest.readPointer py m.data).bind m.shm

/-! ## State -/

/-- `CameraStreamState`; a queue is known by the number of its client. -/
structure CameraStreamState where
  queues : List Nat
  /-- `_frame_ts`, a `deque(maxlen=30)` -/
  frameTs : List ℚ

namespace CameraStreamState

/-- `CameraStreamState(camera_id)` -/
def new : CameraStreamState := ⟨[], []⟩

def recordFrame (state : CameraStreamState) (now : ℚ) : CameraStreamState :=
  { state with frameTs := push 30 state.frameTs now }

/-- The rate of frames with the timestamps `ts`, oldest first. -/
def rate (ts : List ℚ) : ℚ :=
  if ts.length < 2 then 0
  else
    let span := ts.getLastD 0 - ts.headD 0
    if 0 < span then (ts.length - 1) / span else 0

def fps (state : CameraStreamState) : ℚ := rate state.frameTs

end CameraStreamState

/-- What was fanned out. -/
structure Sent (B : Type) where
  cameraId : String
  bytes : B
  time : ℚ

/-- A client of `mjpeg_stream`, and its `asyncio.Queue(maxsize=2)`. -/
structure Client (B : Type) where
  cameraId : String
  queue : List B
  got : List B
  /-- how many frames had been fanned out when it came -/
  joined : Nat
  /-- and when it left -/
  left : Option Nat

/-- The client's queue has room for two: a full one loses its oldest frame. -/
def Client.offer (bytes : B) (c : Client B) : Client B := { c with queue := Outbox.put 2 bytes c.queue }

inductive Producer (F : Type) where
  | listening
  /-- in `redis.get`, with a frame of the camera -/
  | fetching (cameraId : String) (frame : F)

/-- The message whose frame the producer has. -/
def Producer.Holds (py : PyJson) : Producer F → List (Message F) → Prop
  | .listening, ms => ms = []
  | .fetching cameraId frame, ms => ∃ m, ms = [m] ∧ notifiedCamera m.channel = cameraId ∧ m.frame py = some frame

structure FrameBroadcaster (F B : Type) where
  cameras : Dict String CameraStreamState
  clients : List (Client B)
  producer : Producer F
  /-- every frame fanned out -/
  log : List (Sent B)

namespace FrameBroadcaster

def init : FrameBroadcaster F B := ⟨.empty, [], .listening, []⟩

/-! ## The clients -/

def addClient (cameraId : String) (b : FrameBroadcaster F B) : FrameBroadcaster F B :=
  let state := (b.cameras.get? cameraId).getD .new
  { b with
    cameras := b.cameras.set cameraId { state with queues := state.queues ++ [b.clients.length] }
    clients := b.clients ++ [⟨cameraId, [], [], b.log.length, none⟩] }

/-- The client is disconnected: its generator ends with `remove_client`. -/
def removeClient (q : Nat) (b : FrameBroadcaster F B) : FrameBroadcaster F B :=
  match b.clients[q]? with
  | none => b
  | some c =>
    match c.left with
    | some _ => b
    | none =>
      { b with
        cameras := match b.cameras.get? c.cameraId with
          | none => b.cameras
          | some state => b.cameras.set c.cameraId { state with queues := state.queues.erase q }
        clients := b.clients.set q { c with left := some b.log.length } }

/-- A turn of `_frame_generator`: the oldest frame of its queue, or the placeholder. -/
def pull (q : Nat) (b : FrameBroadcaster F B) : FrameBroadcaster F B :=
  match b.clients[q]? with
  | none => b
  | some c =>
    match c.left, c.queue with
    | none, bytes :: rest => { b with clients := b.clients.set q { c with queue := rest, got := c.got ++ [bytes] } }
    | _, _ => b

/-! ## The producer -/

def fanOut (cameraId : String) (bytes : B) (now : ℚ) (state : CameraStreamState) (b : FrameBroadcaster F B) :
    FrameBroadcaster F B :=
  { b with
    cameras := b.cameras.set cameraId (state.recordFrame now)
    clients := state.queues.foldl (fun clients q => clients.modify q (Client.offer bytes)) b.clients
    log := b.log ++ [⟨cameraId, bytes, now⟩] }

section
variable (py : PyJson) (codec : Codec F B)

/-- The next message; nothing is done for a camera that has no clients. -/
def hear (m : Message F) (b : FrameBroadcaster F B) : FrameBroadcaster F B :=
  match b.producer with
  | .fetching .. => b
  | .listening =>
    match b.cameras.get? (notifiedCamera m.channel) with
    | none => b
    | some state =>
      if state.queues = [] then b
      else match m.frame py with
        | none => b
        | some frame => { b with producer := .fetching (notifiedCamera m.channel) frame }

/-- The overlay is there, and the frame is fanned out. -/
def reply (r : Reply) (now : ℚ) (b : FrameBroadcaster F B) : FrameBroadcaster F B :=
  match b.producer with
  | .listening => b
  | .fetching cameraId frame =>
    match codec.encode frame r, b.cameras.get? cameraId with
    | some bytes, some state => { b.fanOut cameraId bytes now state with producer := .listening }
    | _, _ => { b with producer := .listening }

inductive Action (F : Type) where
  | addClient (cameraId : String)
  | removeClient (q : Nat)
  | pull (q : Nat)
  | hear (m : Message F)
  | reply (r : Reply) (now : ℚ)

def step (b : FrameBroadcaster F B) : Action F → FrameBroadcaster F B × Unit
  | .addClient cameraId => (b.addClient cameraId, ())
  | .removeClient q => (b.removeClient q, ())
  | .pull q => (b.pull q, ())
  | .hear m => (b.hear py m, ())
  | .reply r now => (b.reply codec r now, ())

def after (as : List (Action F)) : FrameBroadcaster F B := Mealy.after (step py codec) init as

end

def getFps (cameraId : String) (b : FrameBroadcaster F B) : ℚ :=
  match b.cameras.get? cameraId with
  | some state => state.fps
  | none => 0

/-- The frames of a camera. -/
def ofCamera (cameraId : String) (log : List (Sent B)) : List (Sent B) := log.filter (·.cameraId = cameraId)

/-- What was fanned out for the camera of a client while it was connected. -/
def meant (c : Client B) (b : FrameBroadcaster F B) : List B :=
  (ofCamera c.cameraId ((b.log.take (c.left.getD b.log.length)).drop c.joined)).map (·.bytes)

/-! ## What is meant for a client -/

variable {b : FrameBroadcaster F B} {c : Client B}

theorem foldl_modify (f : Client B → Client B) {qs : List Nat} (hqs : qs.Nodup) (clients : List (Client B)) (q : Nat) :
    (qs.foldl (fun clients q => clients.modify q f) clients)[q]? =
      if q ∈ qs then clients[q]?.map f else clients[q]? := by
  induction qs generalizing clients with
  | nil => simp
  | cons q' qs ih =>
    rw [List.nodup_cons] at hqs
    rw [List.foldl_cons, ih hqs.2, List.getElem?_modify]
    by_cases hq : q' = q
    · subst hq
      simp [hqs.1]
    · have hq' : q ≠ q' := Ne.symm hq
      simp [hq, hq']

theorem ofCamera_concat (cameraId : String) (log : List (Sent B)) (x : Sent B) :
    ofCamera cameraId (log ++ [x]) =
      if x.cameraId = cameraId then ofCamera cameraId log ++ [x] else ofCamera cameraId log := by
  rw [ofCamera, List.filter_append]
  split
  · rename_i hsame
    simp [ofCamera, hsame]
  · rename_i hother
    simp [ofCamera, hother]

/-- The times a client joined and left are in order. -/
def Timed (c : Client B) (b : FrameBroadcaster F B) : Prop :=
  c.joined ≤ b.log.length ∧ ∀ n, c.left = some n → c.joined ≤ n ∧ n ≤ b.log.length

/-- A client that leaves now keeps what was meant for it. -/
theorem meant_leave (hleft : c.left = none) : meant { c with left := some b.log.length } b = meant c b := by
  rw [meant, meant, hleft]
  rfl

/-- A frame fanned out is one more for the clients of its camera that are connected. -/
theorem meant_fanOut (ht : Timed c b) {b' : FrameBroadcaster F B} {x : Sent B} (hlog : b'.log = b.log ++ [x]) :
    meant c b' = if c.left = none ∧ x.cameraId = c.cameraId then meant c b ++ [x.bytes] else meant c b := by
  rw [meant, meant, hlog]
  cases hleft : c.left with
  | none =>
    simp only [Option.getD_none, List.take_length]
    rw [List.drop_append_of_le_length ht.1, ofCamera_concat]
    by_cases hcamera : x.cameraId = c.cameraId
    · simp [hcamera]
    · simp [hcamera]
  | some n =>
    obtain ⟨-, hn⟩ := ht.2 n hleft
    simp only [Option.getD_some]
    rw [List.take_append_of_le_length hn, if_neg (by simp)]

/-! ## What holds of a broadcaster -/

/-- The state of a camera, new while there is none. -/
def stateOf (cameraId : String) (cameras : Dict String CameraStreamState) : CameraStreamState :=
  (cameras.get? cameraId).getD .new

theorem stateOf_set (cameras : Dict String CameraStreamState) (cameraId cameraId' : String)
    (state : CameraStreamState) :
    stateOf cameraId' (cameras.set cameraId state) =
      if cameraId' = cameraId then state else stateOf cameraId' cameras := by
  rw [stateOf, stateOf, Dict.get?_set]
  split <;> rfl

theorem stateOf_of_get? {cameras : Dict String CameraStreamState} {cameraId : String} {state : CameraStreamState}
    (h : cameras.get? cameraId = some state) : stateOf cameraId cameras = state := by
  rw [stateOf, h, Option.getD_some]

/-- A client that is connected to a camera. -/
def Connected (b : FrameBroadcaster F B) (cameraId : String) (q : Nat) : Prop :=
  ∃ c, b.clients[q]? = some c ∧ c.cameraId = cameraId ∧ c.left = none

structure Serving (b : FrameBroadcaster F B) : Prop where
  nodup : ∀ cameraId, (stateOf cameraId b.cameras).queues.Nodup
  queues : ∀ cameraId q, q ∈ (stateOf cameraId b.cameras).queues ↔ Connected b cameraId q
  timed : ∀ (q : Nat) c, b.clients[q]? = some c → Timed c b
  reads : ∀ (q : Nat) c, b.clients[q]? = some c →
    ∃ picks next, Lagging.Reads 2 (meant c b) picks next c.got c.queue
  times : ∀ cameraId, (stateOf cameraId b.cameras).frameTs = ((ofCamera cameraId b.log).map (·.time)).rtake 30

theorem serving_init : Serving (init : FrameBroadcaster F B) where
  nodup _ := .nil
  queues cameraId q := by simp [Connected, init, stateOf, CameraStreamState.new]
  timed _ _ hc := by cases hc
  reads _ _ hc := by cases hc
  times _ := rfl

/-- A step of the producer that ends without a fan-out. -/
theorem Serving.idle (h : Serving b) (producer : Producer F) : Serving { b with producer } :=
  ⟨h.nodup, h.queues, h.timed, h.reads, h.times⟩

/-- The clients after one came: those there were, and it. -/
theorem getElem?_addClient {cameraId : String} {q : Nat} (hc : (b.addClient cameraId).clients[q]? = some c) :
    b.clients[q]? = some c ∨ c = ⟨cameraId, [], [], b.log.length, none⟩ := by
  unfold addClient at hc
  dsimp only at hc
  rw [List.getElem?_append] at hc
  split at hc
  · exact .inl hc
  · obtain ⟨-, hc⟩ := Option.ite_none_right_eq_some.1 (List.getElem?_singleton.symm.trans hc)
    exact .inr (Option.some.inj hc).symm

theorem connected_addClient {cameraId cameraId' : String} {q : Nat} :
    Connected (b.addClient cameraId) cameraId' q ↔
      Connected b cameraId' q ∨ q = b.clients.length ∧ cameraId' = cameraId := by
  unfold Connected addClient
  dsimp only
  rcases Nat.lt_trichotomy q b.clients.length with hlt | rfl | hgt
  · rw [List.getElem?_append_left hlt]
    simp [Nat.ne_of_lt hlt]
  · simp [eq_comm]
  · rw [List.getElem?_eq_none (by simp; omega), List.getElem?_eq_none (by omega)]
    simp [Nat.ne_of_gt hgt]

theorem serving_addClient (h : Serving b) (cameraId : String) : Serving (b.addClient cameraId) := by
  have hstate (cameraId' : String) : stateOf cameraId' (b.addClient cameraId).cameras =
      if cameraId' = cameraId then
        { stateOf cameraId b.cameras with queues := (stateOf cameraId b.cameras).queues ++ [b.clients.length] }
      else stateOf cameraId' b.cameras := stateOf_set ..
  have hfresh (cameraId' : String) : b.clients.length ∉ (stateOf cameraId' b.cameras).queues := by
    intro hq
    obtain ⟨c, hc, -⟩ := (h.queues cameraId' _).1 hq
    rw [List.getElem?_eq_none (Nat.le_refl _)] at hc
    cases hc
  refine ⟨fun cameraId' => ?_, fun cameraId' q => ?_, fun q c hc => ?_, fun q c hc => ?_, fun cameraId' => ?_⟩
  · rw [hstate]
    split
    · rw [List.nodup_append]
      refine ⟨h.nodup cameraId, by simp, fun q hq q' hq' => ?_⟩
      rintro rfl
      exact hfresh cameraId (List.mem_singleton.1 hq' ▸ hq)
    · exact h.nodup cameraId'
  · rw [hstate, connected_addClient]
    split
    · rename_i hsame
      rw [List.mem_append, List.mem_singleton, h.queues, hsame]
      simp
    · rename_i hother
      rw [h.queues]
      simp [hother]
  · rcases getElem?_addClient hc with hold | rfl
    · exact h.timed q c hold
    · exact ⟨Nat.le_refl _, nofun⟩
  · rcases getElem?_addClient hc with hold | rfl
    · exact h.reads q c hold
    · have hnone : meant ⟨cameraId, [], [], b.log.length, none⟩ (b.addClient cameraId) = ([] : List B) := by
        rw [meant, Option.getD_none, List.take_length]
        exact congrArg (fun l => (ofCamera cameraId l).map (·.bytes)) (List.drop_length ..)
      rw [hnone]
      exact ⟨[], 0, .init 2⟩
  · rw [hstate]
    split
    · rename_i hsame
      exact hsame ▸ h.times cameraId
    · exact h.times cameraId'

/-- What becomes of a client whose entry is changed. -/
theorem getElem?_set {q q' : Nat} {c' c'' : Client B} (hc : b.clients[q]? = some c)
    (hc'' : (b.clients.set q c')[q']? = some c'') : (q' = q ∧ c'' = c') ∨ (q' ≠ q ∧ b.clients[q']? = some c'') := by
  have hlt := (List.getElem?_eq_some_iff.1 hc).1
  rw [List.getElem?_set] at hc''
  split at hc''
  · rename_i hsame
    exact .inl ⟨hsame.symm, (Option.some.inj hc'').symm⟩
  · rename_i hother
    exact .inr ⟨Ne.symm hother, hc''⟩

theorem connected_leave {q q' : Nat} (hc : b.clients[q]? = some c) {cameras : Dict String CameraStreamState} {n : Nat}
    {cameraId : String} :
    Connected { b with cameras, clients := b.clients.set q { c with left := some n } } cameraId q' ↔
      q' ≠ q ∧ Connected b cameraId q' := by
  have hlt := (List.getElem?_eq_some_iff.1 hc).1
  unfold Connected
  dsimp only
  rw [List.getElem?_set]
  by_cases hq : q = q'
  · subst hq
    simp [hlt]
  · simp [hq, Ne.symm hq]

/-- Removing a client that is connected. -/
theorem removeClient_eq {q : Nat} (hc : b.clients[q]? = some c) (hleft : c.left = none) :
    ∃ cameras, b.removeClient q = { b with cameras, clients := b.clients.set q { c with left := some b.log.length } } ∧
      ∀ cameraId, stateOf cameraId cameras =
        if cameraId = c.cameraId then
          { stateOf cameraId b.cameras with queues := (stateOf cameraId b.cameras).queues.erase q }
        else stateOf cameraId b.cameras := by
  unfold removeClient
  rw [hc]
  dsimp only
  rw [hleft]
  refine ⟨_, rfl, fun cameraId => ?_⟩
  cases hstate : b.cameras.get? c.cameraId with
  | none =>
    dsimp only
    split
    · rename_i hsame
      rw [hsame, stateOf, hstate]
      rfl
    · rfl
  | some state =>
    dsimp only
    rw [stateOf_set]
    split
    · rename_i hsame
      rw [hsame, stateOf_of_get? hstate]
    · rfl

theorem serving_removeClient (h : Serving b) (q : Nat) : Serving (b.removeClient q) := by
  cases hc : b.clients[q]? with
  | none =>
    rw [removeClient, hc]
    exact h
  | some c =>
    cases hleft : c.left with
    | some n =>
      rw [removeClient, hc]
      dsimp only
      rw [hleft]
      exact h
    | none =>
      obtain ⟨cameras, heq, hstate⟩ := removeClient_eq hc hleft
      rw [heq]
      refine ⟨fun cameraId => ?_, fun cameraId q' => ?_, fun q' c' hc' => ?_, fun q' c' hc' => ?_, fun cameraId => ?_⟩
      · rw [hstate]
        split
        · exact (h.nodup cameraId).erase q
        · exact h.nodup cameraId
      · rw [hstate, connected_leave hc]
        split
        · rw [(h.nodup cameraId).mem_erase_iff, h.queues]
        · rename_i hother
          rw [h.queues]
          refine ⟨fun hin => ⟨?_, hin⟩, fun hin => hin.2⟩
          rintro rfl
          obtain ⟨c', hc', hcamera, -⟩ := hin
          obtain rfl := Option.some.inj (hc.symm.trans hc')
          exact hother hcamera.symm
      · rcases getElem?_set hc hc' with ⟨-, rfl⟩ | ⟨-, hold⟩
        · have ht := h.timed q c hc
          refine ⟨ht.1, fun n hn => ?_⟩
          obtain rfl := Option.some.inj hn
          exact ⟨ht.1, Nat.le_refl _⟩
        · exact h.timed q' c' hold
      · rcases getElem?_set hc hc' with ⟨-, rfl⟩ | ⟨-, hold⟩
        · obtain ⟨picks, next, hreads⟩ := h.reads q c hc
          rw [← meant_leave hleft] at hreads
          exact ⟨picks, next, hreads⟩
        · exact h.reads q' c' hold
      · rw [hstate]
        split <;> exact h.times cameraId

/-- A client reads a frame, or nothing changes. -/
theorem pull_cases (q : Nat) (b : FrameBroadcaster F B) :
    b.pull q = b ∨ ∃ c bytes rest, b.clients[q]? = some c ∧ c.left = none ∧ c.queue = bytes :: rest ∧
      b.pull q = { b with clients := b.clients.set q { c with queue := rest, got := c.got ++ [bytes] } } := by
  unfold pull
  cases hc : b.clients[q]? with
  | none => exact .inl rfl
  | some c =>
    dsimp only
    cases hleft : c.left with
    | some n => exact .inl rfl
    | none =>
      cases hqueue : c.queue with
      | nil => exact .inl rfl
      | cons bytes rest => exact .inr ⟨c, bytes, rest, rfl, hleft, hqueue, by rw [hleft]⟩

theorem connected_set {q : Nat} (hc : b.clients[q]? = some c) (c' : Client B) (hcamera : c'.cameraId = c.cameraId)
    (hleft : c'.left = c.left) (cameraId : String) (q' : Nat) :
    Connected { b with clients := b.clients.set q c' } cameraId q' ↔ Connected b cameraId q' := by
  have hlt := (List.getElem?_eq_some_iff.1 hc).1
  unfold Connected
  dsimp only
  rw [List.getElem?_set]
  by_cases hq : q = q'
  · subst hq
    rw [if_pos rfl, if_pos hlt, hc]
    simp [hcamera, hleft]
  · rw [if_neg hq]

theorem serving_pull (h : Serving b) (q : Nat) : Serving (b.pull q) := by
  rcases pull_cases q b with heq | ⟨c, bytes, rest, hc, hleft, hqueue, heq⟩ <;> rw [heq]
  · exact h
  refine ⟨h.nodup, fun cameraId q' => ?_, fun q' c' hc' => ?_, fun q' c' hc' => ?_, h.times⟩
  · exact (h.queues cameraId q').trans (connected_set hc { c with queue := rest, got := c.got ++ [bytes] } rfl
      rfl cameraId q').symm
  · rcases getElem?_set hc hc' with ⟨-, rfl⟩ | ⟨-, hold⟩
    · exact h.timed q c hc
    · exact h.timed q' c' hold
  · rcases getElem?_set hc hc' with ⟨-, rfl⟩ | ⟨-, hold⟩
    · obtain ⟨picks, next, hreads⟩ := h.reads q c hc
      rw [hqueue] at hreads
      exact ⟨_, _, hreads.take⟩
    · exact h.reads q' c' hold

/-- The clients after a fan-out: those connected to the camera are offered the frame. -/
theorem getElem?_fanOut (h : Serving b) {cameraId : String} (bytes : B) (now : ℚ) (q : Nat) :
    (b.fanOut cameraId bytes now (stateOf cameraId b.cameras)).clients[q]? =
      if q ∈ (stateOf cameraId b.cameras).queues then b.clients[q]?.map (Client.offer bytes) else b.clients[q]? :=
  foldl_modify _ (h.nodup cameraId) _ _

theorem connected_fanOut (h : Serving b) {cameraId cameraId' : String} (bytes : B) (now : ℚ) (q : Nat) :
    Connected (b.fanOut cameraId bytes now (stateOf cameraId b.cameras)) cameraId' q ↔ Connected b cameraId' q := by
  unfold Connected
  rw [getElem?_fanOut h]
  split
  · cases b.clients[q]? <;> simp [Client.offer]
  · rfl

theorem serving_fanOut (h : Serving b) (cameraId : String) (bytes : B) (now : ℚ) :
    Serving (b.fanOut cameraId bytes now (stateOf cameraId b.cameras)) := by
  have hstate (cameraId' : String) :
      stateOf cameraId' (b.fanOut cameraId bytes now (stateOf cameraId b.cameras)).cameras =
        if cameraId' = cameraId then (stateOf cameraId b.cameras).recordFrame now else stateOf cameraId' b.cameras :=
    stateOf_set ..
  have hlog : (b.fanOut cameraId bytes now (stateOf cameraId b.cameras)).log = b.log ++ [⟨cameraId, bytes, now⟩] := rfl
  have hmeant {c : Client B} (ht : Timed c b) := meant_fanOut ht hlog
  have htimed {c : Client B} (ht : Timed c b) : Timed c (b.fanOut cameraId bytes now (stateOf cameraId b.cameras)) := by
    refine ⟨?_, fun n hn => ?_⟩ <;> rw [hlog, List.length_append]
    · exact Nat.le_add_right_of_le ht.1
    · exact ⟨(ht.2 n hn).1, Nat.le_add_right_of_le (ht.2 n hn).2⟩
  refine ⟨fun cameraId' => ?_, fun cameraId' q => ?_, fun q c hc => ?_, fun q c hc => ?_, fun cameraId' => ?_⟩
  · rw [hstate]
    split
    · exact h.nodup cameraId
    · exact h.nodup cameraId'
  · rw [hstate, connected_fanOut h, ← h.queues]
    split
    · rename_i hsame
      rw [hsame]
      rfl
    · rfl
  · rw [getElem?_fanOut h] at hc
    split at hc
    · obtain ⟨c₀, hc₀, rfl⟩ := Option.map_eq_some_iff.1 hc
      exact htimed (h.timed q c₀ hc₀)
    · exact htimed (h.timed q c hc)
  · rw [getElem?_fanOut h] at hc
    split at hc
    · rename_i hq
      obtain ⟨c₀, hc₀, rfl⟩ := Option.map_eq_some_iff.1 hc
      obtain ⟨c₁, hc₁, hcamera, hleft⟩ := (h.queues cameraId q).1 hq
      obtain rfl := Option.some.inj (hc₀.symm.trans hc₁)
      obtain ⟨picks, next, hreads⟩ := h.reads q c₀ hc₀
      have hmore : meant (Client.offer bytes c₀) (b.fanOut cameraId bytes now (stateOf cameraId b.cameras)) =
          meant c₀ b ++ [bytes] := (hmeant (h.timed q c₀ hc₀)).trans (if_pos ⟨hleft, hcamera.symm⟩)
      rw [hmore]
      exact ⟨picks, next, hreads.put (by decide) bytes⟩
    · rename_i hq
      have hsame : meant c (b.fanOut cameraId bytes now (stateOf cameraId b.cameras)) = meant c b := by
        refine (hmeant (h.timed q c hc)).trans (if_neg fun ⟨hleft, hcamera⟩ => hq ?_)
        exact (h.queues cameraId q).2 ⟨c, hc, hcamera.symm, hleft⟩
      rw [hsame]
      exact h.reads q c hc
  · rw [hstate, hlog, ofCamera_concat]
    split
    · rename_i hsame
      rw [hsame, if_pos rfl, List.map_append, List.map_singleton, CameraStreamState.recordFrame]
      dsimp only
      rw [push, h.times]
      exact rtake_rtake_append 30 _ now
    · rename_i hother
      rw [if_neg (Ne.symm hother)]
      exact h.times cameraId'

theorem serving_hear (py : PyJson) (h : Serving b) (m : Message F) : Serving (b.hear py m) := by
  unfold hear
  split
  · exact h
  · split
    · exact h
    · split
      · exact h
      · split
        · exact h
        · exact h.idle _

theorem serving_reply (codec : Codec F B) (h : Serving b) (r : Reply) (now : ℚ) : Serving (b.reply codec r now) := by
  unfold reply
  split
  · exact h
  · rename_i cameraId frame _
    split
    · rename_i bytes state _ hstate
      rw [← stateOf_of_get? hstate]
      exact (serving_fanOut h cameraId bytes now).idle .listening
    · exact h.idle .listening

theorem serving_step (py : PyJson) (codec : Codec F B) (h : Serving b) (a : Action F) :
    Serving (step py codec b a).1 := by
  cases a with
  | addClient cameraId => exact serving_addClient h cameraId
  | removeClient q => exact serving_removeClient h q
  | pull q => exact serving_pull h q
  | hear m => exact serving_hear py h m
  | reply r now => exact serving_reply codec h r now

theorem serving_after (py : PyJson) (codec : Codec F B) (as : List (Action F)) : Serving (after py codec as) :=
  Mealy.after_inv (step py codec) Serving init serving_init (fun _ a h => serving_step py codec h a) as

/-! ## Where the frames come from -/

/-- The messages of the subscription, in order. -/
def messages (as : List (Action F)) : List (Message F) :=
  as.filterMap fun a => match a with
    | .hear m => some m
    | _ => none

/-- The frame of a message, with its overlay, was fanned out for its camera. -/
def Shows (py : PyJson) (codec : Codec F B) (m : Message F) (x : Sent B) : Prop :=
  x.cameraId = notifiedCamera m.channel ∧
    ∃ frame r, m.frame py = some frame ∧ codec.encode frame r = some x.bytes

/-- `used` are the messages whose frames were fanned out, `held` is that of the producer. -/
structure Traced (py : PyJson) (codec : Codec F B) (ms : List (Message F)) (b : FrameBroadcaster F B)
    (used held : List (Message F)) : Prop where
  sublist : (used ++ held).Sublist ms
  shows : List.Forall₂ (Shows py codec) used b.log
  holds : b.producer.Holds py held

theorem Traced.congr {py : PyJson} {codec : Codec F B} {ms ms' used held : List (Message F)}
    (h : Traced py codec ms b used held) {b' : FrameBroadcaster F B} (hms : ms.Sublist ms') (hlog : b'.log = b.log)
    (hproducer : b'.producer = b.producer) : Traced py codec ms' b' used held :=
  ⟨h.sublist.trans hms, hlog ▸ h.shows, hproducer ▸ h.holds⟩

theorem traced_hear {py : PyJson} {codec : Codec F B} {ms used held : List (Message F)}
    (h : Traced py codec ms b used held) (m : Message F) :
    ∃ held', Traced py codec (ms ++ [m]) (b.hear py m) used held' := by
  have hsame : Traced py codec (ms ++ [m]) b used held := h.congr (List.sublist_append_left ms [m]) rfl rfl
  have hholds := h.holds
  unfold hear
  split
  · exact ⟨held, hsame⟩
  · rename_i hlistening
    rw [hlistening] at hholds
    obtain rfl : held = [] := hholds
    split
    · exact ⟨[], hsame⟩
    · split
      · exact ⟨[], hsame⟩
      · split
        · exact ⟨[], hsame⟩
        · rename_i frame hframe
          refine ⟨[m], ?_, h.shows, m, rfl, rfl, hframe⟩
          exact (List.append_nil used ▸ h.sublist).append (.refl [m])

theorem traced_reply {py : PyJson} {codec : Codec F B} {ms used held : List (Message F)}
    (h : Traced py codec ms b used held) (r : Reply) (now : ℚ) :
    ∃ used' held', Traced py codec ms (b.reply codec r now) used' held' := by
  have hholds := h.holds
  unfold reply
  split
  · exact ⟨used, held, h⟩
  · rename_i cameraId frame hfetching
    rw [hfetching] at hholds
    obtain ⟨m, rfl, rfl, hframe⟩ := hholds
    split
    · rename_i bytes state hbytes _
      refine ⟨used ++ [m], [], ?_, ?_, rfl⟩
      · rw [List.append_nil]
        exact h.sublist
      · exact List.rel_append h.shows (.cons ⟨rfl, frame, r, hframe, hbytes⟩ .nil)
    · exact ⟨used, [], (List.append_nil used).symm ▸ (List.sublist_append_left used [m]).trans h.sublist, h.shows, rfl⟩

/-- Clients leave the producer alone. -/
theorem removeClient_same (q : Nat) (b : FrameBroadcaster F B) :
    (b.removeClient q).log = b.log ∧ (b.removeClient q).producer = b.producer := by
  unfold removeClient
  split
  · exact ⟨rfl, rfl⟩
  · rename_i c _
    cases c.left <;> exact ⟨rfl, rfl⟩

theorem pull_same (q : Nat) (b : FrameBroadcaster F B) :
    (b.pull q).log = b.log ∧ (b.pull q).producer = b.producer := by
  rcases pull_cases q b with heq | ⟨c, bytes, rest, -, -, -, heq⟩ <;> rw [heq] <;> exact ⟨rfl, rfl⟩

theorem traced_after (py : PyJson) (codec : Codec F B) (as : List (Action F)) :
    ∃ used held, Traced py codec (messages as) (after py codec as) used held := by
  induction as using List.reverseRecOn with
  | nil => exact ⟨[], [], .slnil, .nil, rfl⟩
  | append_singleton as a ih =>
    obtain ⟨used, held, h⟩ := ih
    rw [after, Mealy.after_concat, messages, List.filterMap_append]
    cases a with
    | hear m =>
      obtain ⟨held', h'⟩ := traced_hear h m
      exact ⟨used, held', h'⟩
    | reply r now =>
      obtain ⟨used', held', h'⟩ := traced_reply h r now
      exact ⟨used', held', h'.congr (List.sublist_append_left _ _) rfl rfl⟩
    | addClient cameraId => exact ⟨used, held, h.congr (List.sublist_append_left _ _) rfl rfl⟩
    | removeClient q =>
      obtain ⟨hlog, hproducer⟩ := removeClient_same q (after py codec as)
      exact ⟨used, held, h.congr (List.sublist_append_left _ _) hlog hproducer⟩
    | pull q =>
      obtain ⟨hlog, hproducer⟩ := pull_same q (after py codec as)
      exact ⟨used, held, h.congr (List.sublist_append_left _ _) hlog hproducer⟩

/-- What the broadcaster does for its clients. -/
structure Broadcasts (py : PyJson) (codec : Codec F B) (as : List (Action F)) (b : FrameBroadcaster F B) : Prop where
  /-- A client reads the frames of its camera in order, at most two behind. -/
  client : ∀ (q : Nat) c, b.clients[q]? = some c →
    ∃ picks next, Lagging.Reads 2 (meant c b) picks next c.got c.queue
  /-- Frames are those of the messages, in order, none twice. -/
  message : ∃ used, used.Sublist (messages as) ∧ List.Forall₂ (Shows py codec) used b.log
  /-- The rate counts the last 30 frames of the camera. -/
  fps : ∀ cameraId, b.getFps cameraId = CameraStreamState.rate (((ofCamera cameraId b.log).map (·.time)).rtake 30)

/-- Clients come and go, and read, while the producer works. -/
theorem clients_served (py : PyJson) (codec : Codec F B) (as : List (Action F)) :
    Broadcasts py codec as (after py codec as) := by
  have h := serving_after py codec as
  refine ⟨h.reads, ?_, fun cameraId => ?_⟩
  · obtain ⟨used, held, ht⟩ := traced_after py codec as
    exact ⟨used, (List.sublist_append_left used held).trans ht.sublist, ht.shows⟩
  · rw [← h.times cameraId, getFps, stateOf]
    cases (after py codec as).cameras.get? cameraId <;> rfl

end FrameBroadcaster

end Streaming

end Netra
