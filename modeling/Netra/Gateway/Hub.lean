import Netra.Lib.Machine
import Netra.Lib.Outbox
import Netra.Types
/-!
# The WebSocket hub

`WebSocketManager` (`backend/gateway/ws_router.py`): `_enqueue`, any number of
dispatchers, the heartbeat, and the routes. A step is what one task does from one
`await` to the next, or less; an action that names a task or a socket that is not
there changes nothing. A dispatcher works on the list of clients it copied, so it
can reach clients that are no longer among `_clients`.
-/
namespace Netra

namespace Gateway

/-- A message passed to `_enqueue`, and how many were before it. -/
structure Event where
  number : Nat
  cameraId : String
  msg : Json

/-- `_WSClient`; its socket is what it is known by. -/
structure Client where
  cameraId : Option String
  queue : List Event
  /-- how many messages were passed to `_enqueue` before it connected -/
  joined : Nat
  /-- what has reached the client -/
  received : List Event
  /-- a send to it has failed -/
  failed : Bool
  /-- its route has not ended -/
  routed : Bool

/-- A loop over a copy of `_clients` that sends. `dead` are the sockets whose send
failed. -/
inductive Task (μ : Type) where
  | asleep
  | polling (todo dead : List Nat)
  /-- in `send_json` -/
  | sending (ws : Nat) (m : μ) (todo dead : List Nat)

/-- `n` is `ws_shard_count`. -/
structure Hub (n : Nat) where
  /-- every message passed to `_enqueue` -/
  log : List Event
  sockets : Nat → Option Client
  /-- `_clients` -/
  clients : List Nat
  /-- `ws_clients_total` -/
  gauge : Int
  shards : Fin n → Task Event
  heartbeat : Task Unit

/-- `_CLIENT_QUEUE_SIZE` -/
def clientQueueSize : Nat := 20

namespace Client

def wants (c : Client) (cameraId : String) : Bool :=
  match c.cameraId with
  | none => true
  | some id => id = cameraId

/-- A full queue loses its oldest message. -/
def offer (e : Event) (c : Client) : Client :=
  if c.wants e.cameraId then { c with queue := Outbox.put clientQueueSize e c.queue } else c

end Client

namespace Hub

variable {n : Nat}

def init (n : Nat) : Hub n where
  log := []
  sockets _ := none
  clients := []
  gauge := 0
  shards _ := .asleep
  heartbeat := .asleep

def update (ws : Nat) (f : Client → Client) (h : Hub n) : Hub n :=
  { h with sockets := Function.update h.sockets ws ((h.sockets ws).map f) }

def setShard (i : Fin n) (t : Task Event) (h : Hub n) : Hub n := { h with shards := Function.update h.shards i t }

/-- Each socket connects once. -/
def connect (ws : Nat) (cameraId : Option String) (h : Hub n) : Hub n :=
  match h.sockets ws with
  | some _ => h
  | none =>
    { h with
      sockets := Function.update h.sockets ws (some ⟨cameraId, [], h.log.length, [], false, true⟩)
      clients := h.clients ++ [ws]
      gauge := h.gauge + 1 }

def disconnect (ws : Nat) (h : Hub n) : Hub n :=
  { h with clients := h.clients.filter (· ≠ ws), gauge := h.gauge - 1 }

/-- `for ws in dead: self.disconnect(ws)` -/
def disconnectAll (dead : List Nat) (h : Hub n) : Hub n := dead.foldl (fun h ws => h.disconnect ws) h

/-- `_enqueue` -/
def enqueue (msg : Json) (cameraId : String) (h : Hub n) : Hub n :=
  let e : Event := ⟨h.log.length, cameraId, msg⟩
  h.clients.foldl (fun h ws => h.update ws (·.offer e)) { h with log := h.log ++ [e] }

/-! ## `_dispatcher` -/

/-- The next piece of dispatcher `i`, up to a `send_json`. -/
def advance (i : Fin n) (h : Hub n) : Hub n :=
  match h.shards i with
  | .asleep => h.setShard i (.polling h.clients [])
  | .polling [] dead => (h.disconnectAll dead).setShard i .asleep
  | .polling (ws :: todo) dead =>
    match h.sockets ws with
    | none => h.setShard i (.polling todo dead)
    | some c =>
      match c.queue with
      | [] => h.setShard i (.polling todo dead)
      | e :: rest => (h.update ws fun c => { c with queue := rest }).setShard i (.sending ws e todo dead)
  | .sending .. => h

/-- Its `send_json` completes, and the message reaches the client. -/
def sent (i : Fin n) (h : Hub n) : Hub n :=
  match h.shards i with
  | .sending ws e todo dead =>
    (h.update ws fun c => { c with received := c.received ++ [e] }).setShard i (.polling todo dead)
  | _ => h

/-- Its `send_json` raises. -/
def failed (i : Fin n) (h : Hub n) : Hub n :=
  match h.shards i with
  | .sending ws _ todo dead =>
    (h.update ws fun c => { c with failed := true }).setShard i (.polling todo (dead ++ [ws]))
  | _ => h

/-! ## `_heartbeat_loop` -/

def beat (h : Hub n) : Hub n :=
  match h.heartbeat with
  | .asleep => { h with heartbeat := .polling h.clients [] }
  | .polling [] dead => { h.disconnectAll dead with heartbeat := .asleep }
  | .polling (ws :: todo) dead => { h with heartbeat := .sending ws () todo dead }
  | .sending .. => h

def beatSent (h : Hub n) : Hub n :=
  match h.heartbeat with
  | .sending _ _ todo dead => { h with heartbeat := .polling todo dead }
  | _ => h

def beatFailed (h : Hub n) : Hub n :=
  match h.heartbeat with
  | .sending ws _ todo dead =>
    { h.update ws fun c => { c with failed := true } with heartbeat := .polling todo (dead ++ [ws]) }
  | _ => h

/-! ## The routes -/

/-- The `finally` clause of the route of a socket. -/
def leave (ws : Nat) (h : Hub n) : Hub n :=
  match h.sockets ws with
  | some c => if c.routed then (h.update ws fun c => { c with routed := false }).disconnect ws else h
  | none => h

/-- `_enqueue` calls, connections, and steps of the dispatchers. -/
inductive Move (n : Nat) where
  | connect (ws : Nat) (cameraId : Option String)
  | enqueue (msg : Json) (cameraId : String)
  | advance (i : Fin n)
  | sent (i : Fin n)
  | failed (i : Fin n)

inductive Action (n : Nat) where
  | move (m : Move n)
  | beat
  | beatSent
  | beatFailed
  | leave (ws : Nat)

def moved (h : Hub n) : Move n → Hub n
  | .connect ws cameraId => h.connect ws cameraId
  | .enqueue msg cameraId => h.enqueue msg cameraId
  | .advance i => h.advance i
  | .sent i => h.sent i
  | .failed i => h.failed i

def step (h : Hub n) : Action n → Hub n × Unit
  | .move m => (h.moved m, ())
  | .beat => (h.beat, ())
  | .beatSent => (h.beatSent, ())
  | .beatFailed => (h.beatFailed, ())
  | .leave ws => (h.leave ws, ())

/-! ## What the pieces change -/

theorem foldl_update (f : Client → Client) (wss : List Nat) (h : Hub n) :
    wss.foldl (fun h ws => h.update ws f) h =
      { h with sockets := wss.foldl (fun s ws => Function.update s ws ((s ws).map f)) h.sockets } := by
  induction wss generalizing h with
  | nil => rfl
  | cons ws wss ih => exact ih _

theorem foldl_map_update (f : Client → Client) {wss : List Nat} (hwss : wss.Nodup) (s : Nat → Option Client) :
    wss.foldl (fun s ws => Function.update s ws ((s ws).map f)) s =
      fun ws => if ws ∈ wss then (s ws).map f else s ws := by
  induction wss generalizing s with
  | nil => rfl
  | cons ws wss ih =>
    rw [List.nodup_cons] at hwss
    rw [List.foldl_cons, ih hwss.2]
    funext ws'
    by_cases hws : ws' = ws
    · subst hws
      rw [if_neg hwss.1, if_pos List.mem_cons_self, Function.update_self]
    · simp only [Function.update_of_ne hws, List.mem_cons, hws, false_or]

/-- `_enqueue` offers the message to each client once. -/
theorem enqueue_eq (msg : Json) (cameraId : String) {h : Hub n} (hclients : h.clients.Nodup) :
    h.enqueue msg cameraId = { h with
      log := h.log ++ [⟨h.log.length, cameraId, msg⟩]
      sockets := fun ws =>
        if ws ∈ h.clients then (h.sockets ws).map (·.offer ⟨h.log.length, cameraId, msg⟩) else h.sockets ws } := by
  unfold enqueue
  rw [foldl_update, foldl_map_update _ hclients]

theorem disconnectAll_eq (dead : List Nat) (h : Hub n) :
    h.disconnectAll dead = { h with clients := h.clients.filter (· ∉ dead), gauge := h.gauge - dead.length } := by
  unfold disconnectAll
  induction dead generalizing h with
  | nil => simp
  | cons ws dead ih =>
    rw [List.foldl_cons, ih]
    unfold disconnect
    rw [List.filter_filter]
    congr 1
    · apply List.filter_congr
      intro ws' _
      by_cases hws : ws' = ws <;> simp [hws]
    · dsimp only
      rw [List.length_cons]
      omega

end Hub

end Gateway

end Netra
