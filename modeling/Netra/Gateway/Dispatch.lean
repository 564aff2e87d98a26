import Netra.Gateway.Gauge
/-!
# What a client receives

Each client has an outbox (`Outbox`): the messages it wants, its queue, and what
the dispatchers are sending to it. A step of the hub is a move of the outbox of
each client, or none (`follows_moved`). With several dispatchers a later message
can overtake an earlier one; while none does, a client receives its messages in
order.
-/
namespace Netra

namespace Gateway

/-- What a task is sending to a socket. -/
def Task.sendingTo {μ : Type} (ws : Nat) : Task μ → Option μ
  | .sending ws' m _ _ => if ws' = ws then some m else none
  | _ => none

def Task.dead {μ : Type} : Task μ → List Nat
  | .asleep => []
  | .polling _ dead => dead
  | .sending _ _ _ dead => dead

namespace Hub

variable {n : Nat}

/-- The messages enqueued after the client connected that its filter lets through. -/
def offered (h : Hub n) (c : Client) : List Event :=
  h.log.filter fun e => decide (c.joined ≤ e.number) && c.wants e.cameraId

/-- A client receives its messages in order, each once; its queue is bounded; and
one is dropped only for 20 newer ones or after a failed send. -/
structure Delivers (h : Hub n) (ws : Nat) (c : Client) : Prop where
  received : c.received.Sublist (h.offered c)
  queue : c.queue.length ≤ clientQueueSize
  dropped : ∀ e ∈ h.offered c, e ∈ c.received ∨ e ∈ c.queue ∨ (∃ i, (h.shards i).sendingTo ws = some e) ∨
    c.failed = true ∨ clientQueueSize ≤ ((h.offered c).filter (e.number < ·.number)).length

/-- A send that completes is of the oldest message being sent to its client. -/
def SendsInOrder (h : Hub n) : Move n → Prop
  | .sent i => ∀ ws e, (h.shards i).sendingTo ws = some e →
      ∀ j e', (h.shards j).sendingTo ws = some e' → e.number ≤ e'.number
  | _ => True

def moveStep (h : Hub n) (m : Move n) : Hub n × Unit := (h.moved m, ())

/-! ## The outbox of a client -/

def outbox (h : Hub n) (ws : Nat) (c : Client) : Outbox.State n Event where
  offered := h.offered c
  queue := c.queue
  flights i := (h.shards i).sendingTo ws
  received := c.received
  failed := c.failed

/-- An outbox nothing was offered to. -/
def noMail (n : Nat) : Outbox.State n Event := ⟨[], [], fun _ => none, [], false⟩

/-- What a step does to the outbox of a socket. -/
inductive Follows (h : Hub n) (m : Move n) (ws : Nat) : Outbox.State n Event → Prop
  | joins : h.sockets ws = none → Follows h m ws (noMail n)
  | same (c : Client) : h.sockets ws = some c → Follows h m ws (h.outbox ws c)
  | moves (c : Client) (mv : Outbox.Move n Event) : h.sockets ws = some c →
      Outbox.Fresh Event.number (h.outbox ws c) mv →
      (h.SendsInOrder m → Outbox.FirstOut Event.number (h.outbox ws c) mv) →
      Follows h m ws (Outbox.step clientQueueSize (h.outbox ws c) mv)

/-- A dispatcher sends to sockets that have connected, and a client is missing from
`_clients` only after a failed send. -/
structure Serves (h : Hub n) : Prop where
  listed : Listed h
  numbers : ∀ e ∈ h.log, e.number < h.log.length
  ordered : h.log.Pairwise (·.number < ·.number)
  joined : ∀ ws c, h.sockets ws = some c → c.joined ≤ h.log.length
  known : ∀ i ws e, (h.shards i).sendingTo ws = some e → h.sockets ws ≠ none
  removed : ∀ ws c, h.sockets ws = some c → ws ∈ h.clients ∨ c.failed = true
  dead : ∀ i, ∀ ws ∈ (h.shards i).dead, ∃ c, h.sockets ws = some c ∧ c.failed = true

variable {h : Hub n}

theorem sockets_update {ws ws' : Nat} {f : Client → Client} {c' : Client}
    (hc' : (h.update ws' f).sockets ws = some c') :
    ∃ c, h.sockets ws = some c ∧ ((ws = ws' ∧ c' = f c) ∨ (ws ≠ ws' ∧ c' = c)) := by
  unfold update at hc'
  dsimp only at hc'
  by_cases he : ws = ws'
  · subst he
    rw [Function.update_self, Option.map_eq_some_iff] at hc'
    obtain ⟨c, hc, rfl⟩ := hc'
    exact ⟨c, hc, .inl ⟨rfl, rfl⟩⟩
  · rw [Function.update_of_ne he] at hc'
    exact ⟨c', hc', .inr ⟨he, rfl⟩⟩

theorem outbox_setShard (i : Fin n) (t : Task Event) (ws : Nat) (c : Client) :
    (h.setShard i t).outbox ws c =
      { h.outbox ws c with flights := Function.update (h.outbox ws c).flights i (t.sendingTo ws) } := by
  unfold outbox setShard
  congr 1
  funext j
  dsimp only
  by_cases hj : j = i
  · subst hj
    rw [Function.update_self, Function.update_self]
  · rw [Function.update_of_ne hj, Function.update_of_ne hj]

/-- A dispatcher that sends the same as before to `ws`. -/
theorem outbox_setShard_same {i : Fin n} {t : Task Event} {ws : Nat} (ht : t.sendingTo ws = (h.shards i).sendingTo ws)
    (c : Client) : (h.setShard i t).outbox ws c = h.outbox ws c := by
  rw [outbox_setShard, ht, show (h.shards i).sendingTo ws = (h.outbox ws c).flights i from rfl, Function.update_eq_self]

theorem sendingTo_self {μ : Type} (ws : Nat) (m : μ) (todo dead : List Nat) :
    (Task.sending ws m todo dead).sendingTo ws = some m := if_pos rfl

theorem sendingTo_ne {μ : Type} {ws ws' : Nat} (hne : ws ≠ ws') (m : μ) (todo dead : List Nat) :
    (Task.sending ws' m todo dead).sendingTo ws = none := if_neg (Ne.symm hne)

/-- What a piece of a dispatcher can do. -/
inductive Advances (h : Hub n) (i : Fin n) : Hub n → Prop
  | starts : h.shards i = .asleep → Advances h i (h.setShard i (.polling h.clients []))
  | ends (dead : List Nat) : h.shards i = .polling [] dead → Advances h i ((h.disconnectAll dead).setShard i .asleep)
  | skips (ws : Nat) (todo dead : List Nat) : h.shards i = .polling (ws :: todo) dead →
      Advances h i (h.setShard i (.polling todo dead))
  | takes (ws : Nat) (todo dead : List Nat) (c : Client) (e : Event) (rest : List Event) :
      h.shards i = .polling (ws :: todo) dead → h.sockets ws = some c → c.queue = e :: rest →
      Advances h i ((h.update ws fun c => { c with queue := rest }).setShard i (.sending ws e todo dead))
  | waits : Advances h i h

theorem advance_cases (h : Hub n) (i : Fin n) : Advances h i (h.advance i) := by
  unfold advance
  cases ht : h.shards i with
  | asleep => exact .starts ht
  | sending ws e todo dead => exact .waits
  | polling todo dead =>
    cases todo with
    | nil => exact .ends dead ht
    | cons ws todo =>
      dsimp only
      cases hs : h.sockets ws with
      | none => exact .skips ws todo dead ht
      | some c =>
        dsimp only
        cases hq : c.queue with
        | nil => exact .skips ws todo dead ht
        | cons e rest => exact .takes ws todo dead c e rest ht hs hq

/-! ## A step is a move of each outbox -/

theorem follows_connect (hs : Serves h) (ws' : Nat) (cameraId : Option String) {ws : Nat} {c' : Client}
    (hc' : (h.connect ws' cameraId).sockets ws = some c') :
    Follows h (.connect ws' cameraId) ws ((h.connect ws' cameraId).outbox ws c') := by
  unfold connect at hc' ⊢
  cases hold : h.sockets ws' with
  | some c =>
    rw [hold] at hc'
    exact .same c' hc'
  | none =>
    rw [hold] at hc'
    dsimp only at hc' ⊢
    by_cases he : ws = ws'
    · subst he
      rw [Function.update_self] at hc'
      obtain rfl := Option.some.inj hc'
      have hidle : (fun i => (h.shards i).sendingTo ws) = fun _ => none := by
        funext i
        cases hi : (h.shards i).sendingTo ws with
        | none => rfl
        | some e => exact absurd hold (hs.known i ws e hi)
      have hoffered : h.offered ⟨cameraId, [], h.log.length, [], false, true⟩ = [] := by
        unfold offered
        rw [List.filter_eq_nil_iff]
        intro e he hin
        have hlt := hs.numbers e he
        rw [Bool.and_eq_true, decide_eq_true_eq] at hin
        exact absurd hin.1 (Nat.not_le.2 hlt)
      have hempty : h.outbox ws ⟨cameraId, [], h.log.length, [], false, true⟩ = noMail n := by
        unfold outbox
        rw [hoffered, hidle]
        rfl
      exact hempty ▸ .joins hold
    · rw [Function.update_of_ne he] at hc'
      exact .same c' hc'

/-- What one message more means for what a client wants. -/
theorem offered_append (hs : Serves h) {h' : Hub n} {e : Event} (hlog : h'.log = h.log ++ [e])
    (hnumber : e.number = h.log.length) {ws : Nat} {c : Client} (hc : h.sockets ws = some c) :
    h'.offered c = h.offered c ++ if c.wants e.cameraId then [e] else [] := by
  have hjoined : c.joined ≤ e.number := hnumber ▸ hs.joined ws c hc
  rw [offered, hlog, List.filter_append, offered, List.filter_singleton, decide_eq_true hjoined, Bool.true_and]
  cases c.wants e.cameraId <;> rfl

/-- The clients in the list are offered the message. -/
theorem sockets_enqueue (hs : Serves h) {msg : Json} {cameraId : String} {ws : Nat} {c' : Client}
    (hc' : (h.enqueue msg cameraId).sockets ws = some c') : ∃ c, h.sockets ws = some c ∧
      ((ws ∈ h.clients ∧ c' = c.offer ⟨h.log.length, cameraId, msg⟩) ∨ (ws ∉ h.clients ∧ c' = c)) := by
  rw [enqueue_eq msg cameraId hs.listed.nodup] at hc'
  dsimp only at hc'
  split at hc'
  · rename_i hin
    obtain ⟨c, hc, rfl⟩ := Option.map_eq_some_iff.1 hc'
    exact ⟨c, hc, .inl ⟨hin, rfl⟩⟩
  · rename_i hout
    exact ⟨c', hc', .inr ⟨hout, rfl⟩⟩

section
variable {h' : Hub n} {c : Client} {e : Event}

theorem offer_unwanted (hw : c.wants e.cameraId = false) : c.offer e = c := by
  rw [Client.offer, hw, if_neg Bool.false_ne_true]

theorem outbox_same (hoffered : h'.offered c = h.offered c) (hshards : h'.shards = h.shards) (ws : Nat) :
    h'.outbox ws c = h.outbox ws c := by
  rw [outbox, outbox, hoffered, hshards]

/-- A client in the list gets the message in its queue. -/
theorem outbox_offered (hoffered : h'.offered c = h.offered c ++ [e]) (hshards : h'.shards = h.shards)
    (hw : c.wants e.cameraId = true) (ws : Nat) :
    h'.outbox ws (c.offer e) = Outbox.step clientQueueSize (h.outbox ws c) (.offer e) := by
  have hoffer : c.offer e = { c with queue := Outbox.put clientQueueSize e c.queue } := by
    rw [Client.offer, hw, if_pos rfl]
  have hoffered' : h'.offered (c.offer e) = h.offered c ++ [e] := by
    rw [hoffer]
    exact hoffered
  rw [outbox, hoffered', hshards, hoffer]
  rfl

/-- A client that is no longer in the list misses it. -/
theorem outbox_missed (hoffered : h'.offered c = h.offered c ++ [e]) (hshards : h'.shards = h.shards) (ws : Nat) :
    h'.outbox ws c = Outbox.step clientQueueSize (h.outbox ws c) (.miss e) := by
  rw [outbox, hoffered, hshards]
  rfl

end

theorem follows_enqueue (hs : Serves h) (msg : Json) (cameraId : String) {ws : Nat} {c' : Client}
    (hc' : (h.enqueue msg cameraId).sockets ws = some c') :
    Follows h (.enqueue msg cameraId) ws ((h.enqueue msg cameraId).outbox ws c') := by
  obtain ⟨c, hc, hqueue⟩ := sockets_enqueue hs hc'
  have hlog : (h.enqueue msg cameraId).log = h.log ++ [⟨h.log.length, cameraId, msg⟩] := by
    rw [enqueue_eq msg cameraId hs.listed.nodup]
  have hshards : (h.enqueue msg cameraId).shards = h.shards := by
    rw [enqueue_eq msg cameraId hs.listed.nodup]
  generalize h.enqueue msg cameraId = h' at hlog hshards ⊢
  generalize he : (⟨h.log.length, cameraId, msg⟩ : Event) = e at hqueue hlog
  have hnumber : e.number = h.log.length := he ▸ rfl
  have hnew := offered_append hs hlog hnumber hc
  have hfresh : ∀ y ∈ h.offered c, y.number < e.number := by
    intro y hy
    rw [hnumber]
    exact hs.numbers y (List.mem_filter.1 hy).1
  cases hw : c.wants e.cameraId with
  | false =>
    have hsame : c' = c := by
      rcases hqueue with ⟨-, rfl⟩ | ⟨-, rfl⟩
      · exact offer_unwanted hw
      · rfl
    rw [hw, if_neg Bool.false_ne_true, List.append_nil] at hnew
    rw [hsame, outbox_same hnew hshards]
    exact .same c hc
  | true =>
    rw [hw, if_pos rfl] at hnew
    rcases hqueue with ⟨hin, rfl⟩ | ⟨hout, rfl⟩
    · rw [outbox_offered hnew hshards hw]
      exact .moves c _ hc hfresh fun _ => trivial
    · have hfailed := (hs.removed ws c' hc).resolve_left hout
      rw [outbox_missed hnew hshards]
      exact .moves c' _ hc ⟨hfresh, hfailed⟩ fun _ => trivial

theorem follows_advance (i : Fin n) {ws : Nat} {c' : Client} (hc' : (h.advance i).sockets ws = some c') :
    Follows h (.advance i) ws ((h.advance i).outbox ws c') := by
  have hcases := advance_cases h i
  generalize h.advance i = h' at hc' hcases ⊢
  cases hcases with
  | waits => exact .same c' hc'
  | starts ht =>
    rw [outbox_setShard_same (by rw [ht]; rfl)]
    exact .same c' hc'
  | skips ws' todo dead ht =>
    rw [outbox_setShard_same (by rw [ht]; rfl)]
    exact .same c' hc'
  | ends dead ht =>
    rw [disconnectAll_eq] at hc' ⊢
    rw [outbox_setShard_same (by dsimp only; rw [ht]; rfl)]
    exact .same c' hc'
  | takes ws' todo dead c e rest ht hs hq =>
    obtain ⟨c₀, hc₀, ⟨rfl, rfl⟩ | ⟨hne, rfl⟩⟩ := sockets_update hc'
    · rw [hs] at hc₀
      obtain rfl := Option.some.inj hc₀
      have htake : Outbox.step clientQueueSize (h.outbox ws c) (.take i) =
          { h.outbox ws c with queue := rest, flights := Function.update (h.outbox ws c).flights i (some e) } := by
        have hidle : (h.outbox ws c).flights i = none := by
          unfold outbox
          dsimp only
          rw [ht]
          rfl
        have hqueue : (h.outbox ws c).queue = e :: rest := hq
        simp only [Outbox.step, hidle, hqueue]
      rw [outbox_setShard, sendingTo_self]
      exact htake ▸ .moves c (.take i) hs trivial fun _ => trivial
    · rw [outbox_setShard_same]
      · exact .same c' hc₀
      · rw [sendingTo_ne hne]
        exact (congrArg (Task.sendingTo ws) ht).symm

/-- The end of a send: a move of the outbox of its socket. -/
theorem follows_land {m : Move n} (mv : Outbox.Move n Event) {i : Fin n} {ws' : Nat} {e : Event}
    {todo dead dead' : List Nat}
    {f : Client → Client} (ht : h.shards i = .sending ws' e todo dead)
    (hmv : ∀ c, Outbox.step clientQueueSize (h.outbox ws' c) mv =
      { h.outbox ws' (f c) with flights := Function.update (h.outbox ws' c).flights i none })
    (hfresh : ∀ c, Outbox.Fresh Event.number (h.outbox ws' c) mv)
    (hfirst : h.SendsInOrder m → ∀ c, Outbox.FirstOut Event.number (h.outbox ws' c) mv)
    {ws : Nat} {c' : Client} (hc' : ((h.update ws' f).setShard i (.polling todo dead')).sockets ws = some c') :
    Follows h m ws (((h.update ws' f).setShard i (.polling todo dead')).outbox ws c') := by
  obtain ⟨c, hc, ⟨rfl, rfl⟩ | ⟨hne, rfl⟩⟩ := sockets_update hc'
  · rw [outbox_setShard]
    exact hmv c ▸ .moves c mv hc (hfresh c) fun ho => hfirst ho c
  · rw [outbox_setShard_same]
    · exact .same c' hc
    · exact ((congrArg (Task.sendingTo ws) ht).trans (sendingTo_ne hne e todo dead)).symm

theorem flights_of_sending {i : Fin n} {ws : Nat} {e : Event} {todo dead : List Nat}
    (ht : h.shards i = .sending ws e todo dead) (c : Client) : (h.outbox ws c).flights i = some e := by
  unfold outbox
  dsimp only
  rw [ht, sendingTo_self]

theorem follows_sent (i : Fin n) {ws : Nat} {c' : Client} (hc' : (h.sent i).sockets ws = some c') :
    Follows h (.sent i) ws ((h.sent i).outbox ws c') := by
  unfold sent at hc' ⊢
  cases ht : h.shards i with
  | sending ws' e todo dead =>
    rw [ht] at hc'
    refine follows_land (.sent i) ht ?_ (fun _ => trivial) ?_ hc'
    · intro c
      simp only [Outbox.step, flights_of_sending ht c]
      rfl
    · intro ho c x hx j y hy
      exact ho ws' x hx j y hy
  | _ =>
    rw [ht] at hc'
    exact .same c' hc'

theorem follows_failed (i : Fin n) {ws : Nat} {c' : Client} (hc' : (h.failed i).sockets ws = some c') :
    Follows h (.failed i) ws ((h.failed i).outbox ws c') := by
  unfold failed at hc' ⊢
  cases ht : h.shards i with
  | sending ws' e todo dead =>
    rw [ht] at hc'
    refine follows_land (.fail i) ht ?_ (fun _ => trivial) (fun _ _ => trivial) hc'
    intro c
    simp only [Outbox.step, flights_of_sending ht c]
    rfl
  | _ =>
    rw [ht] at hc'
    exact .same c' hc'

theorem follows_moved (hs : Serves h) (m : Move n) {ws : Nat} {c' : Client} (hc' : (h.moved m).sockets ws = some c') :
    Follows h m ws ((h.moved m).outbox ws c') := by
  cases m with
  | connect ws' cameraId => exact follows_connect hs ws' cameraId hc'
  | enqueue msg cameraId => exact follows_enqueue hs msg cameraId hc'
  | advance i => exact follows_advance i hc'
  | sent i => exact follows_sent i hc'
  | failed i => exact follows_failed i hc'

/-! ## What every step keeps -/

/-- The clients stay, with what they have failed. -/
def Stays (g : Client → Client) : Prop := ∀ c, (g c).joined = c.joined ∧ (c.failed = true → (g c).failed = true)

theorem stays_id : Stays id := fun _ => ⟨rfl, id⟩

theorem stays_offer (e : Event) : Stays (Client.offer e) := by
  intro c
  unfold Client.offer
  split <;> exact ⟨rfl, id⟩

theorem sockets_update_map (ws ws' : Nat) {f : Client → Client} (hf : Stays f) :
    ∃ g, (h.update ws' f).sockets ws = (h.sockets ws).map g ∧ Stays g := by
  unfold update
  by_cases he : ws = ws'
  · subst he
    exact ⟨f, Function.update_self .., hf⟩
  · refine ⟨id, ?_, stays_id⟩
    dsimp only
    rw [Function.update_of_ne he, Option.map_id_fun, id]

theorem Serves.keep (hs : Serves h) {h' : Hub n} (hlisted : Listed h') (hlog : h'.log = h.log)
    (hsockets : ∀ ws, ∃ g, h'.sockets ws = (h.sockets ws).map g ∧ Stays g)
    (hknown : ∀ i ws e, (h'.shards i).sendingTo ws = some e → h.sockets ws ≠ none)
    (hremoved : ∀ ws c', h'.sockets ws = some c' → ws ∈ h'.clients ∨ c'.failed = true)
    (hdead : ∀ i, ∀ ws ∈ (h'.shards i).dead, ∃ c', h'.sockets ws = some c' ∧ c'.failed = true) : Serves h' where
  listed := hlisted
  numbers := by
    rw [hlog]
    exact hs.numbers
  ordered := by
    rw [hlog]
    exact hs.ordered
  joined ws c' hc' := by
    obtain ⟨g, hg, hstays⟩ := hsockets ws
    rw [hg] at hc'
    obtain ⟨c, hc, rfl⟩ := Option.map_eq_some_iff.1 hc'
    rw [hlog, (hstays c).1]
    exact hs.joined ws c hc
  known i ws e he := by
    obtain ⟨g, hg, -⟩ := hsockets ws
    rw [hg, ne_eq, Option.map_eq_none_iff]
    exact hknown i ws e he
  removed := hremoved
  dead := hdead

theorem Serves.dead_update (hs : Serves h) {f : Client → Client} (hf : Stays f) (ws' : Nat) {i : Fin n} {ws : Nat}
    (hws : ws ∈ (h.shards i).dead) : ∃ c', (h.update ws' f).sockets ws = some c' ∧ c'.failed = true := by
  obtain ⟨c, hc, hfailed⟩ := hs.dead i ws hws
  obtain ⟨g, hg, hstays⟩ := sockets_update_map (h := h) ws ws' hf
  exact ⟨g c, by rw [hg, hc]; rfl, (hstays c).2 hfailed⟩

/-- A step of dispatcher `i` that leaves `_clients` alone. -/
theorem Serves.shard (hs : Serves h) {f : Client → Client} (hf : Stays f) (ws' : Nat) {i : Fin n} {t : Task Event}
    (hlisted : Listed ((h.update ws' f).setShard i t))
    (hknown : ∀ ws e, t.sendingTo ws = some e → h.sockets ws ≠ none)
    (hdead : ∀ ws ∈ t.dead, ∃ c', (h.update ws' f).sockets ws = some c' ∧ c'.failed = true) :
    Serves ((h.update ws' f).setShard i t) := by
  refine hs.keep hlisted rfl (fun ws => sockets_update_map ws ws' hf) ?_ ?_ ?_
  · intro j ws e he
    unfold setShard at he
    dsimp only at he
    by_cases hj : j = i
    · subst hj
      rw [Function.update_self] at he
      exact hknown ws e he
    · rw [Function.update_of_ne hj] at he
      exact hs.known j ws e he
  · intro ws c' hc'
    obtain ⟨g, hg, hstays⟩ := sockets_update_map (h := h) ws ws' hf
    have hc' : (h.update ws' f).sockets ws = some c' := hc'
    rw [hg] at hc'
    obtain ⟨c, hc, rfl⟩ := Option.map_eq_some_iff.1 hc'
    exact (hs.removed ws c hc).imp_right (hstays c).2
  · intro j ws hws
    unfold setShard at hws ⊢
    dsimp only at hws ⊢
    by_cases hj : j = i
    · subst hj
      rw [Function.update_self] at hws
      exact hdead ws hws
    · rw [Function.update_of_ne hj] at hws
      exact hs.dead_update hf ws' hws

/-- A dispatcher that changes no client. -/
theorem Serves.setShard (hs : Serves h) {i : Fin n} {t : Task Event} (hlisted : Listed (h.setShard i t))
    (hidle : ∀ ws, t.sendingTo ws = none) (hdead : ∀ ws ∈ t.dead, ws ∈ (h.shards i).dead) :
    Serves (h.setShard i t) := by
  have hid : h.update 0 id = h := by
    unfold update
    rw [Option.map_id_fun, id, Function.update_eq_self]
  have hshard := hs.shard stays_id 0 (i := i) (t := t)
  rw [hid] at hshard
  refine hshard hlisted ?_ fun ws hws => hs.dead i ws (hdead ws hws)
  intro ws e he
  rw [hidle ws] at he
  cases he

theorem serves_connect (hs : Serves h) (ws : Nat) (cameraId : Option String) : Serves (h.connect ws cameraId) := by
  have hlisted := (moves_connect hs.listed ws cameraId).listed
  unfold connect at hlisted ⊢
  cases hold : h.sockets ws with
  | some c => exact hs
  | none =>
    rw [hold] at hlisted
    dsimp only at hlisted ⊢
    have hother {ws' : Nat} (hws' : h.sockets ws' ≠ none) : ws' ≠ ws := by
      rintro rfl
      exact hws' hold
    refine ⟨hlisted, hs.numbers, hs.ordered, ?_, ?_, ?_, ?_⟩
    · intro ws' c hc
      dsimp only at hc ⊢
      by_cases he : ws' = ws
      · rw [he, Function.update_self] at hc
        obtain rfl := Option.some.inj hc
        exact le_refl _
      · rw [Function.update_of_ne he] at hc
        exact hs.joined ws' c hc
    · intro i ws' e he
      have hknown := hs.known i ws' e he
      dsimp only
      rwa [Function.update_of_ne (hother hknown)]
    · intro ws' c hc
      dsimp only at hc ⊢
      by_cases he : ws' = ws
      · exact .inl (List.mem_append_right _ (List.mem_singleton.2 he))
      · rw [Function.update_of_ne he] at hc
        exact (hs.removed ws' c hc).imp_left (List.mem_append_left _)
    · intro i ws' hws'
      obtain ⟨c, hc, hfailed⟩ := hs.dead i ws' hws'
      refine ⟨c, ?_, hfailed⟩
      dsimp only
      rw [Function.update_of_ne (hother (by rw [hc]; exact Option.some_ne_none c)), hc]

theorem serves_enqueue (hs : Serves h) (msg : Json) (cameraId : String) : Serves (h.enqueue msg cameraId) := by
  have hlisted := (moves_enqueue hs.listed msg cameraId).listed
  change Listed (h.enqueue msg cameraId) at hlisted
  rw [enqueue_eq msg cameraId hs.listed.nodup] at hlisted ⊢
  have hmap (ws : Nat) : ∃ g, (if ws ∈ h.clients then (h.sockets ws).map (Client.offer ⟨h.log.length, cameraId, msg⟩)
      else h.sockets ws) = (h.sockets ws).map g ∧ Stays g := by
    split
    · exact ⟨_, rfl, stays_offer _⟩
    · exact ⟨id, by rw [Option.map_id_fun, id], stays_id⟩
  refine ⟨hlisted, ?_, ?_, ?_, ?_, ?_, ?_⟩
  · intro e he
    dsimp only at he ⊢
    rw [List.length_append, List.length_singleton]
    rcases List.mem_append.1 he with he | he
    · have hlt := hs.numbers e he
      omega
    · obtain rfl := List.mem_singleton.1 he
      exact Nat.lt_succ_self _
  · exact Outbox.offered_concat hs.ordered hs.numbers
  · intro ws c' hc'
    obtain ⟨g, hg, hstays⟩ := hmap ws
    obtain ⟨c, hc, rfl⟩ := Option.map_eq_some_iff.1 (hg.symm.trans hc')
    have hle := hs.joined ws c hc
    dsimp only
    rw [(hstays c).1, List.length_append]
    omega
  · intro i ws e he
    obtain ⟨g, hg, -⟩ := hmap ws
    have hknown := hs.known i ws e he
    rw [ne_eq, ← Option.map_eq_none_iff (f := g), ← hg] at hknown
    exact hknown
  · intro ws c' hc'
    obtain ⟨g, hg, hstays⟩ := hmap ws
    obtain ⟨c, hc, rfl⟩ := Option.map_eq_some_iff.1 (hg.symm.trans hc')
    exact (hs.removed ws c hc).imp_right (hstays c).2
  · intro i ws hws
    obtain ⟨c, hc, hfailed⟩ := hs.dead i ws hws
    obtain ⟨g, hg, hstays⟩ := hmap ws
    exact ⟨g c, hg.trans (by rw [hc]; rfl), (hstays c).2 hfailed⟩

theorem serves_advance (hs : Serves h) (i : Fin n) : Serves (h.advance i) := by
  have hlisted := (moves_advance hs.listed i).listed
  have hcases := advance_cases h i
  generalize h.advance i = h' at hlisted hcases ⊢
  cases hcases with
  | waits => exact hs
  | starts ht => exact hs.setShard hlisted (fun _ => rfl) nofun
  | skips ws todo dead ht =>
    refine hs.setShard hlisted (fun _ => rfl) ?_
    rw [ht]
    exact fun _ => id
  | takes ws todo dead c e rest ht hc hq =>
    have hstay : Stays fun c => { c with queue := rest } := fun _ => ⟨rfl, id⟩
    apply hs.shard hstay ws hlisted
    · intro ws' e' he'
      by_cases hne : ws' = ws
      · rw [hne, hc]
        exact Option.some_ne_none c
      · rw [sendingTo_ne hne] at he'
        cases he'
    · intro ws' hws'
      exact hs.dead_update hstay ws (i := i) (by rw [ht]; exact hws')
  | ends dead ht =>
    rw [disconnectAll_eq] at hlisted ⊢
    refine hs.keep hlisted rfl (fun ws => ⟨id, by rw [Option.map_id_fun]; rfl, stays_id⟩) ?_ ?_ ?_
    · intro j ws e he
      by_cases hj : j = i
      · subst hj
        simp [setShard, Task.sendingTo] at he
      · simp only [setShard, Function.update_of_ne hj] at he
        exact hs.known j ws e he
    · -- who is disconnected has failed
      intro ws c hc
      rcases hs.removed ws c hc with hin | hfailed
      · by_cases hdead : ws ∈ dead
        · obtain ⟨c', hc', hfailed⟩ := hs.dead i ws (by rw [ht]; exact hdead)
          rw [show h.sockets ws = some c from hc] at hc'
          exact .inr (Option.some.inj hc' ▸ hfailed)
        · exact .inl (List.mem_filter.2 ⟨hin, by simpa using hdead⟩)
      · exact .inr hfailed
    · intro j ws hws
      by_cases hj : j = i
      · subst hj
        simp [setShard, Task.dead] at hws
      · simp only [setShard, Function.update_of_ne hj] at hws
        exact hs.dead j ws hws

theorem serves_sent (hs : Serves h) (i : Fin n) : Serves (h.sent i) := by
  have hlisted := (moves_sent hs.listed i).listed
  unfold sent at hlisted ⊢
  cases ht : h.shards i with
  | sending ws e todo dead =>
    rw [ht] at hlisted
    have hstay : Stays fun c => { c with received := c.received ++ [e] } := fun _ => ⟨rfl, id⟩
    apply hs.shard hstay ws hlisted
    · intro ws' e' he'
      cases he'
    · intro ws' hws'
      exact hs.dead_update hstay ws (i := i) (by rw [ht]; exact hws')
  | _ => exact hs

theorem serves_failed (hs : Serves h) (i : Fin n) : Serves (h.failed i) := by
  have hlisted := (moves_failed hs.listed i).listed
  unfold failed at hlisted ⊢
  cases ht : h.shards i with
  | sending ws e todo dead =>
    rw [ht] at hlisted
    have hstay : Stays fun c : Client => { c with failed := true } := fun _ => ⟨rfl, fun _ => rfl⟩
    apply hs.shard hstay ws hlisted
    · intro ws' e' he'
      cases he'
    · intro ws' hws'
      rcases List.mem_append.1 hws' with hws' | hws'
      · exact hs.dead_update hstay ws (i := i) (by rw [ht]; exact hws')
      · obtain rfl := List.mem_singleton.1 hws'
        have hknown := hs.known i ws' e (by rw [ht, sendingTo_self])
        obtain ⟨c, hc⟩ := Option.ne_none_iff_exists'.1 hknown
        refine ⟨{ c with failed := true }, ?_, rfl⟩
        unfold update
        dsimp only
        rw [Function.update_self, hc]
        rfl
  | _ => exact hs

theorem serves_moved (hs : Serves h) (m : Move n) : Serves (h.moved m) := by
  cases m with
  | connect ws cameraId => exact serves_connect hs ws cameraId
  | enqueue msg cameraId => exact serves_enqueue hs msg cameraId
  | advance i => exact serves_advance hs i
  | sent i => exact serves_sent hs i
  | failed i => exact serves_failed hs i

theorem serves_init : Serves (init n) :=
  ⟨listed_init, nofun, .nil, nofun, nofun, nofun, nofun⟩

/-! ## Runs -/

/-- Every outbox is as bounded queues with several senders are. -/
def Mailed (h : Hub n) : Prop :=
  ∀ ws c, h.sockets ws = some c →
    Outbox.Queued Event.number clientQueueSize (h.outbox ws c) ∧
      Outbox.Kept Event.number clientQueueSize (h.outbox ws c)

def InLine (h : Hub n) : Prop := ∀ ws c, h.sockets ws = some c → Outbox.Lined Event.number (h.outbox ws c)

theorem mailed_moved (hs : Serves h) (hm : Mailed h) (m : Move n) : Mailed (h.moved m) := by
  intro ws c' hc'
  have hf := follows_moved hs m hc'
  generalize (h.moved m).outbox ws c' = o at hf
  cases hf with
  | joins _ => exact ⟨⟨.nil, .nil, nofun, Nat.zero_le _⟩, nofun⟩
  | same c hc => exact hm ws c hc
  | moves c mv hc hfresh _ =>
    obtain ⟨hqueued, hkept⟩ := hm ws c hc
    exact ⟨hqueued.step (by decide) mv hfresh, hkept.step (by decide) hqueued mv hfresh⟩

theorem inLine_moved (hs : Serves h) (hm : Mailed h) (hl : InLine h) {m : Move n} (ho : h.SendsInOrder m) :
    InLine (h.moved m) := by
  intro ws c' hc'
  have hf := follows_moved hs m hc'
  generalize (h.moved m).outbox ws c' = o at hf
  cases hf with
  | joins _ => exact ⟨.nil, nofun, nofun, nofun⟩
  | same c hc => exact hl ws c hc
  | moves c mv hc hfresh hfirst => exact (hl ws c hc).step (by decide) (hm ws c hc).1 mv hfresh (hfirst ho)

/-- In every run the queues are bounded, and a message is dropped only for newer ones
or after a failed send. -/
theorem mailed_after (ms : List (Move n)) :
    Serves (Mealy.after moveStep (init n) ms) ∧ Mailed (Mealy.after moveStep (init n) ms) := by
  refine Mealy.after_inv moveStep (fun h => Serves h ∧ Mailed h) (init n) ⟨serves_init, nofun⟩ ?_ ms
  rintro h m ⟨hs, hm⟩
  exact ⟨serves_moved hs m, mailed_moved hs hm m⟩

/-- With any number of dispatchers, while no send overtakes an earlier one to the
same client, every client receives its messages in order. -/
theorem delivers_in_order (n : Nat) (ms : List (Move n)) (horder : Mealy.Always moveStep SendsInOrder (init n) ms) :
    ∀ ws c, (Mealy.after moveStep (init n) ms).sockets ws = some c →
      Delivers (Mealy.after moveStep (init n) ms) ws c := by
  have hrun : Serves (Mealy.after moveStep (init n) ms) ∧ Mailed (Mealy.after moveStep (init n) ms) ∧
      InLine (Mealy.after moveStep (init n) ms) := by
    refine horder.after_inv (I := fun h => Serves h ∧ Mailed h ∧ InLine h) ?_ ⟨serves_init, nofun, nofun⟩
    rintro h m ⟨hs, hm, hl⟩ ho
    exact ⟨serves_moved hs m, mailed_moved hs hm m, inLine_moved hs hm hl ho⟩
  intro ws c hc
  obtain ⟨hqueued, hkept⟩ := hrun.2.1 ws c hc
  exact ⟨Outbox.received_sublist hqueued (hrun.2.2 ws c hc), hqueued.room, hkept⟩

/-- Two messages for one client. -/
def twoMessages (n : Nat) : List (Move n) := [
  .connect 0 none, .enqueue (.str "first") "cam-01", .enqueue (.str "second") "cam-01"]

/-- Two dispatchers have a message each, and the sends complete in order. -/
def inTurn : List (Move 2) := twoMessages 2 ++ [.advance 0, .advance 0, .advance 1, .advance 1, .sent 0, .sent 1]

theorem sendsInOrder_inTurn : Mealy.Always moveStep SendsInOrder (init 2) inTurn := by
  have hsending {ws : Nat} {e e' : Event} {todo dead : List Nat}
      (he : (Task.sending 0 e todo dead).sendingTo ws = some e') : e' = e :=
    (Option.some.inj (Option.ite_none_right_eq_some.1 he).2).symm
  refine ⟨trivial, trivial, trivial, trivial, trivial, trivial, trivial, fun ws e he j e' he' => ?_,
    fun ws e he j e' he' => ?_, trivial⟩
  · rw [hsending he]
    exact Nat.zero_le _
  · match j with
    | 0 => cases he'
    | 1 => rw [hsending he, hsending he']

theorem delivers_in_order_inTurn :
    ∃ c, (Mealy.after moveStep (init 2) inTurn).sockets 0 = some c ∧ c.received.map Event.number = [0, 1] ∧
      Delivers (Mealy.after moveStep (init 2) inTurn) 0 c :=
  ⟨_, rfl, rfl, delivers_in_order 2 inTurn sendsInOrder_inTurn 0 _ rfl⟩

/-- Two dispatchers have a message each, and the second send completes first. -/
def overtaken : List (Move 2) := twoMessages 2 ++ [.advance 0, .advance 0, .advance 1, .advance 1, .sent 1, .sent 0]

theorem delivers_in_order_fails :
    ¬ ∀ (n : Nat) (ms : List (Move n)) (ws : Nat) (c : Client),
      (Mealy.after moveStep (init n) ms).sockets ws = some c → Delivers (Mealy.after moveStep (init n) ms) ws c := by
  intro hall
  obtain ⟨c, hc, hreceived, hoffered⟩ : ∃ c, (Mealy.after moveStep (init 2) overtaken).sockets 0 = some c ∧
      c.received.map Event.number = [1, 0] ∧
      ((Mealy.after moveStep (init 2) overtaken).offered c).map Event.number = [0, 1] := ⟨_, rfl, rfl, rfl⟩
  have hsub := (hall 2 overtaken 0 c hc).received.map Event.number
  rw [hreceived, hoffered] at hsub
  exact absurd hsub (by decide)

end Hub

end Gateway

end Netra
