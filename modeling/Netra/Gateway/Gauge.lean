import Netra.Gateway.Hub
import Mathlib.Data.List.Perm.Subperm
/-!
# The gauge of connected clients

`disconnect` counts down whether or not the socket is among `_clients`. So the
gauge never exceeds their number, and falls below it for good when a socket is
disconnected a second time.
-/
namespace Netra

namespace Gateway

namespace Task

variable {μ : Type}

/-- No socket twice, in what is left to do and in what is dead. -/
def Distinct : Task μ → Prop
  | .asleep => True
  | .polling todo dead => (dead ++ todo).Nodup
  | .sending ws _ todo dead => (dead ++ ws :: todo).Nodup

/-- The sockets disconnected by the next step of the task. -/
def dropping : Task μ → List Nat
  | .polling [] dead => dead
  | _ => []

theorem Distinct.skip {ws : Nat} {todo dead : List Nat} (h : (dead ++ ws :: todo).Nodup) : (dead ++ todo).Nodup :=
  h.sublist ((List.sublist_cons_self _ _).append_left dead)

theorem Distinct.bury {ws : Nat} {todo dead : List Nat} (h : (dead ++ ws :: todo).Nodup) :
    ((dead ++ [ws]) ++ todo).Nodup := by
  rwa [List.append_assoc, List.singleton_append]

theorem Distinct.dropping {t : Task μ} (h : t.Distinct) : t.dropping.Nodup := by
  unfold Task.dropping
  split
  · rename_i dead
    rwa [Distinct, List.append_nil] at h
  · exact List.nodup_nil

end Task

namespace Hub

variable {n : Nat} {h : Hub n}

/-- The sockets an action disconnects. -/
def disconnects (h : Hub n) : Action n → List Nat
  | .move (.advance i) => (h.shards i).dropping
  | .beat => h.heartbeat.dropping
  | .leave ws =>
    match h.sockets ws with
    | some c => if c.routed then [ws] else []
    | none => []
  | _ => []

/-- What an action disconnects is among `_clients`. -/
def DisconnectsClients (h : Hub n) (a : Action n) : Prop := ∀ ws ∈ h.disconnects a, ws ∈ h.clients

/-- Each client is listed once, a task comes to it once, and the gauge is not above their number. -/
structure Listed (h : Hub n) : Prop where
  nodup : h.clients.Nodup
  known : ∀ ws ∈ h.clients, h.sockets ws ≠ none
  shards : ∀ i, (h.shards i).Distinct
  heartbeat : h.heartbeat.Distinct
  gauge : h.gauge ≤ h.clients.length

theorem length_filter_add {clients dead : List Nat} (hclients : clients.Nodup) (hdead : dead.Nodup) :
    (clients.filter (· ∉ dead)).length + (dead.filter (· ∈ clients)).length = clients.length := by
  have hperm : (dead.filter (· ∈ clients)).Perm (clients.filter (· ∈ dead)) := by
    rw [List.perm_ext_iff_of_nodup (hdead.filter _) (hclients.filter _)]
    intro ws
    simp [and_comm]
  rw [hperm.length_eq, Nat.add_comm]
  have hsplit := List.length_eq_length_filter_add (l := clients) (fun ws => decide (ws ∈ dead))
  rw [hsplit]
  congr 2
  apply List.filter_congr
  intro ws _
  simp

/-- How the gauge and the list move apart. -/
structure Moves (h h' : Hub n) (dropped : List Nat) : Prop where
  listed : Listed h'
  apart : h'.gauge - h'.clients.length + dropped.length =
    h.gauge - h.clients.length + (dropped.filter (· ∈ h.clients)).length

namespace Moves

variable {h' : Hub n} {dropped : List Nat}

theorem refl (hl : Listed h) : Moves h h [] := ⟨hl, rfl⟩

theorem setShard (hm : Moves h h' dropped) (i : Fin n) {t : Task Event} (ht : t.Distinct) :
    Moves h (h'.setShard i t) dropped := by
  refine ⟨⟨hm.listed.nodup, hm.listed.known, ?_, hm.listed.heartbeat, hm.listed.gauge⟩, hm.apart⟩
  intro j
  unfold Hub.setShard
  dsimp only
  by_cases hj : j = i
  · subst hj
    rwa [Function.update_self]
  · rw [Function.update_of_ne hj]
    exact hm.listed.shards j

theorem setHeartbeat (hm : Moves h h' dropped) {t : Task Unit} (ht : t.Distinct) :
    Moves h { h' with heartbeat := t } dropped :=
  ⟨⟨hm.listed.nodup, hm.listed.known, hm.listed.shards, ht, hm.listed.gauge⟩, hm.apart⟩

theorem setLog (hm : Moves h h' dropped) (log : List Event) : Moves h { h' with log } dropped :=
  ⟨⟨hm.listed.nodup, hm.listed.known, hm.listed.shards, hm.listed.heartbeat, hm.listed.gauge⟩, hm.apart⟩

theorem setSockets (hm : Moves h h' dropped) {s : Nat → Option Client} (hs : ∀ ws, h'.sockets ws ≠ none → s ws ≠ none) :
    Moves h { h' with sockets := s } dropped :=
  ⟨⟨hm.listed.nodup, fun ws hws => hs ws (hm.listed.known ws hws), hm.listed.shards, hm.listed.heartbeat,
    hm.listed.gauge⟩, hm.apart⟩

theorem update (hm : Moves h h' dropped) (ws : Nat) (f : Client → Client) : Moves h (h'.update ws f) dropped := by
  apply hm.setSockets
  intro ws' hws'
  by_cases he : ws' = ws
  · subst he
    rwa [Function.update_self, ne_eq, Option.map_eq_none_iff]
  · rwa [Function.update_of_ne he]

/-- A disconnection: the gauge goes down by one, the list only if the socket is in it. -/
theorem disconnectAll (hl : Listed h) (hdropped : dropped.Nodup) : Moves h (h.disconnectAll dropped) dropped := by
  have hlength := length_filter_add hl.nodup hdropped
  have hle : (dropped.filter (· ∈ h.clients)).length ≤ dropped.length := List.length_filter_le _ _
  have hgauge := hl.gauge
  rw [disconnectAll_eq]
  refine ⟨⟨hl.nodup.filter _, ?_, hl.shards, hl.heartbeat, ?_⟩, ?_⟩
  · intro ws hws
    exact hl.known ws (List.mem_filter.1 hws).1
  · dsimp only
    omega
  · dsimp only
    omega

end Moves

theorem moves_connect (hl : Listed h) (ws : Nat) (cameraId : Option String) : Moves h (h.connect ws cameraId) [] := by
  unfold connect
  cases hs : h.sockets ws with
  | some c => exact .refl hl
  | none =>
    have hnew : ws ∉ h.clients := fun hws => hl.known ws hws hs
    dsimp only
    refine ⟨⟨?_, ?_, hl.shards, hl.heartbeat, ?_⟩, ?_⟩
    · rw [List.nodup_append]
      refine ⟨hl.nodup, List.nodup_singleton ws, ?_⟩
      rintro a ha b hb rfl
      exact hnew (List.mem_singleton.1 hb ▸ ha)
    · intro ws' hws'
      dsimp only at hws' ⊢
      by_cases he : ws' = ws
      · subst he
        rw [Function.update_self]
        exact Option.some_ne_none _
      · rw [Function.update_of_ne he]
        rw [List.mem_append, List.mem_singleton] at hws'
        exact hl.known ws' (hws'.resolve_right he)
    · have hgauge := hl.gauge
      rw [List.length_append, List.length_singleton]
      push_cast
      omega
    · rw [List.length_append, List.length_singleton]
      push_cast
      simp

theorem moves_advance (hl : Listed h) (i : Fin n) : Moves h (h.advance i) (h.shards i).dropping := by
  have hi := hl.shards i
  unfold advance
  cases ht : h.shards i with
  | asleep => exact (Moves.refl hl).setShard i hl.nodup
  | sending ws e todo dead => exact .refl hl
  | polling todo dead =>
    rw [ht] at hi
    cases todo with
    | nil => exact (Moves.disconnectAll hl hi.dropping).setShard i trivial
    | cons ws todo =>
      dsimp only
      cases hs : h.sockets ws with
      | none => exact (Moves.refl hl).setShard i (Task.Distinct.skip hi)
      | some c =>
        dsimp only
        cases hq : c.queue with
        | nil => exact (Moves.refl hl).setShard i (Task.Distinct.skip hi)
        | cons e rest => exact ((Moves.refl hl).update ws _).setShard i hi

theorem moves_enqueue (hl : Listed h) (msg : Json) (cameraId : String) : Moves h (h.enqueue msg cameraId) [] := by
  rw [enqueue_eq msg cameraId hl.nodup]
  apply ((Moves.refl hl).setLog _).setSockets
  intro ws hws
  split
  · rwa [ne_eq, Option.map_eq_none_iff]
  · exact hws

theorem moves_sent (hl : Listed h) (i : Fin n) : Moves h (h.sent i) [] := by
  have hi := hl.shards i
  unfold sent
  cases ht : h.shards i with
  | sending ws e todo dead =>
    rw [ht] at hi
    exact ((Moves.refl hl).update ws _).setShard i (Task.Distinct.skip hi)
  | _ => exact .refl hl

theorem moves_failed (hl : Listed h) (i : Fin n) : Moves h (h.failed i) [] := by
  have hi := hl.shards i
  unfold failed
  cases ht : h.shards i with
  | sending ws e todo dead =>
    rw [ht] at hi
    exact ((Moves.refl hl).update ws _).setShard i (Task.Distinct.bury hi)
  | _ => exact .refl hl

theorem moves_beat (hl : Listed h) : Moves h h.beat h.heartbeat.dropping := by
  have hb := hl.heartbeat
  unfold beat
  cases ht : h.heartbeat with
  | asleep => exact (Moves.refl hl).setHeartbeat hl.nodup
  | sending ws m todo dead => exact .refl hl
  | polling todo dead =>
    rw [ht] at hb
    cases todo with
    | nil => exact (Moves.disconnectAll hl hb.dropping).setHeartbeat trivial
    | cons ws todo => exact (Moves.refl hl).setHeartbeat hb

theorem moves_beatSent (hl : Listed h) : Moves h h.beatSent [] := by
  have hb := hl.heartbeat
  unfold beatSent
  cases ht : h.heartbeat with
  | sending ws m todo dead =>
    rw [ht] at hb
    exact (Moves.refl hl).setHeartbeat (Task.Distinct.skip hb)
  | _ => exact .refl hl

theorem moves_beatFailed (hl : Listed h) : Moves h h.beatFailed [] := by
  have hb := hl.heartbeat
  unfold beatFailed
  cases ht : h.heartbeat with
  | sending ws m todo dead =>
    rw [ht] at hb
    exact ((Moves.refl hl).update ws _).setHeartbeat (Task.Distinct.bury hb)
  | _ => exact .refl hl

theorem moves_leave (hl : Listed h) (ws : Nat) : Moves h (h.leave ws) (h.disconnects (.leave ws)) := by
  change Moves h (h.leave ws) (match h.sockets ws with | some c => if c.routed then [ws] else [] | none => [])
  unfold leave
  cases hs : h.sockets ws with
  | none => exact .refl hl
  | some c =>
    dsimp only
    split
    · have hupdate := (Moves.refl hl).update ws fun c => { c with routed := false }
      have hdrop := Moves.disconnectAll hupdate.listed (List.nodup_singleton ws)
      exact ⟨hdrop.listed, hdrop.apart⟩
    · exact .refl hl

/-- One action: the list gets a new client with the gauge, or both lose what is disconnected. -/
theorem moves_step (hl : Listed h) (a : Action n) : Moves h (step h a).1 (h.disconnects a) := by
  cases a with
  | move m =>
    cases m with
    | connect ws cameraId => exact moves_connect hl ws cameraId
    | enqueue msg cameraId => exact moves_enqueue hl msg cameraId
    | advance i => exact moves_advance hl i
    | sent i => exact moves_sent hl i
    | failed i => exact moves_failed hl i
  | beat => exact moves_beat hl
  | beatSent => exact moves_beatSent hl
  | beatFailed => exact moves_beatFailed hl
  | leave ws => exact moves_leave hl ws

theorem listed_init : Listed (init n) := by
  refine ⟨List.nodup_nil, nofun, fun _ => trivial, trivial, ?_⟩
  exact le_refl _

/-- The gauge stays right in a step that disconnects clients only, and does not
become right again. -/
theorem gauge_step (hl : Listed h) (a : Action n) :
    (step h a).1.gauge = (step h a).1.clients.length ↔ h.gauge = h.clients.length ∧ h.DisconnectsClients a := by
  have hm := moves_step hl a
  have hle := hl.gauge
  have hall :
      ((h.disconnects a).filter (· ∈ h.clients)).length = (h.disconnects a).length ↔ h.DisconnectsClients a := by
    rw [List.length_filter_eq_length_iff]
    simp [DisconnectsClients]
  have hcount : ((h.disconnects a).filter (· ∈ h.clients)).length ≤ (h.disconnects a).length :=
    List.length_filter_le _ _
  have happart := hm.apart
  rw [← hall]
  omega

/-- `ws_clients_total` is the number of clients after a run, and never negative,
just when every disconnection in it is of a socket that is among `_clients`. -/
theorem gauge_right_iff (n : Nat) (as : List (Action n)) :
    (∀ pre post, as = pre ++ post →
      0 ≤ (Mealy.after step (init n) pre).gauge ∧
        (Mealy.after step (init n) pre).gauge = (Mealy.after step (init n) pre).clients.length) ↔
      Mealy.Always step DisconnectsClients (init n) as := by
  have hrun (as : List (Action n)) :
      (Mealy.after step (init n) as).gauge = (Mealy.after step (init n) as).clients.length ↔
        Mealy.Always step DisconnectsClients (init n) as :=
    Mealy.always_iff (I := fun h : Hub n => h.gauge = h.clients.length) (fun _ a hl => (moves_step hl a).listed)
      (fun _ a hl => gauge_step hl a) listed_init rfl as
  constructor
  · intro hright
    exact (hrun as).1 (hright as [] (List.append_nil as).symm).2
  · rintro halways pre post rfl
    have hgauge := (hrun pre).2 (Mealy.always_append.1 halways).1
    exact ⟨by omega, hgauge⟩

/-- A client whose send fails, so that the dispatcher disconnects it, and then its route. -/
def failedSend : List (Action 1) := [
  .move (.connect 0 none), .move (.enqueue .null "cam-01"), .move (.advance 0), .move (.advance 0), .move (.failed 0),
  .move (.advance 0), .leave 0]

theorem gauge_right_fails :
    ¬ ∀ (n : Nat) (as : List (Action n)),
      0 ≤ (Mealy.after step (init n) as).gauge ∧
        (Mealy.after step (init n) as).gauge = (Mealy.after step (init n) as).clients.length := by
  intro hall
  have hgauge : (Mealy.after step (init 1) failedSend).gauge = -1 := by decide
  have hright := (hall 1 failedSend).1
  rw [hgauge] at hright
  exact absurd hright (by decide)

end Hub

end Gateway

end Netra
