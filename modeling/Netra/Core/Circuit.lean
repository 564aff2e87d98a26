import Netra.Lib.Machine
import Mathlib.Algebra.Order.Ring.Rat
import Mathlib.Logic.Function.Basic
/-!
# The circuit breaker of the Redis client

`ResilientRedis` (`backend/core/redis_resilient.py`) counts failed commands and
rejects calls after five in a row. Calls overlap: each is a walk through the
awaits of `_call` and `_reconnect`, and a step of the system moves one of them
on. A call that fails has counted its failure before it reconnects, and
`_reconnect` starts the count again, so calls that do not overlap never open the
circuit (`stays_closed`).
-/
namespace Netra.Redis

/-- `_CB_FAIL_THRESH` -/
def cbFailThresh : Nat := 5

/-- `_CB_RESET_AFTER` -/
def cbResetAfter : ℚ := 60

inductive CircuitState where
  | closed | opened | halfOpen
  deriving DecidableEq

structure ResilientRedis where
  /-- `_client` is not `None`. -/
  client : Bool
  state : CircuitState := .closed
  consecutiveFails : Nat := 0
  lastFailureTs : ℚ := 0

namespace ResilientRedis

/-- `_check_circuit` -/
def checkCircuit (now : ℚ) (r : ResilientRedis) : ResilientRedis × Bool :=
  match r.state with
  | .closed => (r, true)
  | .opened => if cbResetAfter ≤ now - r.lastFailureTs then ({ r with state := .halfOpen }, true) else (r, false)
  | .halfOpen => (r, true)

/-- `_record_success` -/
def recordSuccess (r : ResilientRedis) : ResilientRedis :=
  { r with consecutiveFails := 0, state := if r.state = .halfOpen then .closed else r.state }

/-- `_record_failure` -/
def recordFailure (now : ℚ) (r : ResilientRedis) : ResilientRedis :=
  let r := { r with consecutiveFails := r.consecutiveFails + 1, lastFailureTs := now }
  if cbFailThresh ≤ r.consecutiveFails then { r with state := .opened } else r

/-- The end of `_reconnect`. -/
def reconnected (r : ResilientRedis) : ResilientRedis := { r with state := .closed, consecutiveFails := 0 }

theorem recordFailure_opened (now : ℚ) (r : ResilientRedis) :
    (r.recordFailure now).state = .opened ↔ r.state = .opened ∨ cbFailThresh ≤ r.consecutiveFails + 1 := by
  unfold recordFailure
  dsimp only
  split
  · rename_i hmany
    exact iff_of_true rfl (.inr hmany)
  · rename_i hfew
    exact (or_iff_left hfew).symm

theorem recordFailure_fails (now : ℚ) (r : ResilientRedis) :
    (r.recordFailure now).consecutiveFails = r.consecutiveFails + 1 := by
  unfold recordFailure
  dsimp only
  split <;> rfl

theorem recordFailure_halfOpen {now : ℚ} {r : ResilientRedis} (h : (r.recordFailure now).state = .halfOpen) :
    r.state = .halfOpen := by
  unfold recordFailure at h
  dsimp only at h
  split at h
  · cases h
  · exact h

theorem recordSuccess_ne_halfOpen (r : ResilientRedis) : r.recordSuccess.state ≠ .halfOpen := by
  unfold recordSuccess
  dsimp only
  split
  · exact CircuitState.noConfusion
  · rename_i hne
    exact hne

end ResilientRedis

/-! ## Overlapping calls -/

/-- How an await ends. -/
inductive Outcome where
  | ok
  /-- one of the errors `_call` catches -/
  | connection
  /-- another `Exception` -/
  | error
  | cancelled
  deriving DecidableEq

/-- Where a call is. A command is sent with the number of the half-open period it
falls in, if it does. -/
inductive Phase where
  | idle
  /-- `_check_circuit` let it through -/
  | checked
  | sent (period : Option Nat)
  /-- before `_record_success` -/
  | succeeded
  /-- before `_record_failure` -/
  | failed (period : Option Nat)
  /-- `_reconnect` -/
  | sleeping
  | closing
  | pinging
  /-- before the retry -/
  | reconnected
  | resent (period : Option Nat)
  deriving DecidableEq

/-- How a call ends. -/
inductive End where
  | returned
  /-- the `RuntimeError` of the open circuit -/
  | rejected
  | raised (o : Outcome)
  deriving DecidableEq

structure Sys where
  redis : ResilientRedis
  phase : Nat → Phase := fun _ => .idle
  /-- The transitions to `HALF_OPEN` so far. -/
  halfOpened : Nat := 0

/-- Call `call` takes its next step, at `now`; an await ends as `outcome` says. -/
structure Action where
  call : Nat
  now : ℚ
  outcome : Outcome := .ok

namespace Sys

def init (client : Bool) : Sys := { redis := { client } }

def move (s : Sys) (call : Nat) (p : Phase) : Sys := { s with phase := Function.update s.phase call p }

/-- The half-open period a command sent now falls in. -/
def period (s : Sys) : Option Nat := if s.redis.state = .halfOpen then some s.halfOpened else none

def setRedis (s : Sys) (redis : ResilientRedis) : Sys := { s with redis }

/-- `_make_client`, which only parses the URL. -/
def makeClient (s : Sys) : Sys := { s with redis := { s.redis with client := true } }

/-- The call ends. -/
def finish (s : Sys) (call : Nat) (e : End) : Sys × Option End := (s.move call .idle, some e)

/-- `_check_circuit`, at the start of a call. -/
def check (s : Sys) (call : Nat) (now : ℚ) : Sys × Option End :=
  let (redis, proceed) := s.redis.checkCircuit now
  if proceed then
    let halfOpened := if redis.state = s.redis.state then s.halfOpened else s.halfOpened + 1
    ({ s with redis, halfOpened }.move call .checked, none)
  else s.finish call .rejected

end Sys

def step (s : Sys) (a : Action) : Sys × Option End :=
  match s.phase a.call with
  | .idle => s.check a.call a.now
  | .checked =>
    -- The assertion is not among the errors caught.
    if s.redis.client then (s.move a.call (.sent s.period), none) else s.finish a.call (.raised .error)
  | .sent period =>
    match a.outcome with
    | .ok => (s.move a.call .succeeded, none)
    | .connection => (s.move a.call (.failed period), none)
    | o => s.finish a.call (.raised o)
  | .succeeded => (s.setRedis s.redis.recordSuccess).finish a.call .returned
  | .failed _ => ((s.setRedis (s.redis.recordFailure a.now)).move a.call .sleeping, none)
  | .sleeping =>
    match a.outcome with
    | .cancelled => s.finish a.call (.raised .cancelled)
    | _ => if s.redis.client then (s.move a.call .closing, none) else (s.makeClient.move a.call .pinging, none)
  | .closing =>
    -- Whatever `aclose()` raises is ignored.
    match a.outcome with
    | .cancelled => s.finish a.call (.raised .cancelled)
    | _ => (s.makeClient.move a.call .pinging, none)
  | .pinging =>
    match a.outcome with
    | .ok => ((s.setRedis s.redis.reconnected).move a.call .reconnected, none)
    | .cancelled => s.finish a.call (.raised .cancelled)
    | _ => (s.move a.call .sleeping, none)
  | .reconnected => (s.move a.call (.resent s.period), none)
  | .resent _ =>
    match a.outcome with
    | .ok => (s.move a.call .succeeded, none)
    | o => s.finish a.call (.raised o)

/-- The system after the actions, with or without a `connect()` before. -/
def after (client : Bool) (acts : List Action) : Sys := Mealy.after step (.init client) acts

/-- How the calls of the run ended, in order. -/
def ends (client : Bool) (acts : List Action) : List End := (Mealy.outs step (.init client) acts).filterMap id

/-- No call starts before the one before it has ended. -/
def Sequential (client : Bool) (acts : List Action) : Prop :=
  Mealy.Always step (fun s a => ∀ j, j ≠ a.call → s.phase j = .idle) (.init client) acts

@[simp] theorem move_self (s : Sys) (call : Nat) (p : Phase) : (s.move call p).phase call = p := Function.update_self ..

theorem move_ne (s : Sys) {call j : Nat} (p : Phase) (h : j ≠ call) : (s.move call p).phase j = s.phase j :=
  Function.update_of_ne h ..

@[simp] theorem move_redis (s : Sys) (call : Nat) (p : Phase) : (s.move call p).redis = s.redis := rfl

@[simp] theorem move_halfOpened (s : Sys) (call : Nat) (p : Phase) : (s.move call p).halfOpened = s.halfOpened := rfl

/-- The next step of the call is to send its command, or to send it again. -/
def Sends (s : Sys) (call : Nat) : Prop :=
  (s.phase call = .checked ∧ s.redis.client = true) ∨ s.phase call = .reconnected

/-- What a step does. -/
inductive Moves (s : Sys) (a : Action) : Sys → Option End → Prop
  | enters : s.phase a.call = .idle → s.redis.state ≠ .opened → Moves s a (s.move a.call .checked) none
  | halfOpens : s.phase a.call = .idle → s.redis.state = .opened → cbResetAfter ≤ a.now - s.redis.lastFailureTs →
      Moves s a
        ({ s with redis := { s.redis with state := .halfOpen }, halfOpened := s.halfOpened + 1 }.move a.call .checked)
        none
  | sends : s.phase a.call = .checked → s.redis.client = true → Moves s a (s.move a.call (.sent s.period)) none
  | resends : s.phase a.call = .reconnected → Moves s a (s.move a.call (.resent s.period)) none
  | lost {period : Option Nat} : s.phase a.call = .sent period → Moves s a (s.move a.call (.failed period)) none
  /-- Nothing is sent or recorded. -/
  | quiet {p : Phase} : ¬ Sends s a.call → (p = .succeeded ∨ p = .sleeping ∨ p = .closing) →
      Moves s a (s.move a.call p) none
  | pings : ¬ Sends s a.call → Moves s a (s.makeClient.move a.call .pinging) none
  | succeeds : s.phase a.call = .succeeded →
      Moves s a ((s.setRedis s.redis.recordSuccess).move a.call .idle) (some .returned)
  | fails {period : Option Nat} : s.phase a.call = .failed period →
      Moves s a ((s.setRedis (s.redis.recordFailure a.now)).move a.call .sleeping) none
  | reconnects : s.phase a.call = .pinging → a.outcome = .ok →
      Moves s a ((s.setRedis s.redis.reconnected).move a.call .reconnected) none
  | ends {e : End} : ¬ Sends s a.call → (e = .raised .connection → ∃ period, s.phase a.call = .resent period) →
      Moves s a (s.move a.call .idle) (some e)

theorem not_sends {s : Sys} {call : Nat} {p : Phase} (hp : s.phase call = p)
    (hne : (p ≠ .checked ∨ s.redis.client = false) ∧ p ≠ .reconnected) : ¬ Sends s call := by
  rintro (⟨hchecked, hclient⟩ | hreconnected)
  · rcases hne.1 with hphase | hno
    · exact hphase (hp.symm.trans hchecked)
    · rw [hno] at hclient
      cases hclient
  · exact hne.2 (hp.symm.trans hreconnected)

theorem check_moves {s : Sys} {a : Action} (hp : s.phase a.call = .idle) :
    Moves s a (s.check a.call a.now).1 (s.check a.call a.now).2 := by
  unfold Sys.check ResilientRedis.checkCircuit
  cases hstate : s.redis.state with
  | closed =>
    have henters : Moves s a (s.move a.call .checked) none := .enters hp (by simp [hstate])
    simpa [hstate] using henters
  | halfOpen =>
    have henters : Moves s a (s.move a.call .checked) none := .enters hp (by simp [hstate])
    simpa [hstate] using henters
  | opened =>
    dsimp only
    split
    · rename_i htime
      simpa [hstate] using Moves.halfOpens hp hstate htime
    · exact .ends (not_sends hp (by simp)) fun he => by cases he

theorem step_moves (s : Sys) (a : Action) : Moves s a (step s a).1 (step s a).2 := by
  unfold step
  cases hp : s.phase a.call with
  | idle => exact check_moves hp
  | checked =>
    dsimp only
    split
    · rename_i hclient
      exact .sends hp hclient
    · rename_i hclient
      exact .ends (not_sends hp ⟨.inr (Bool.not_eq_true _ ▸ hclient), by simp⟩) fun he => by cases he
  | sent period =>
    have hno : ¬ Sends s a.call := not_sends hp (by simp)
    cases a.outcome with
    | ok => exact .quiet hno (.inl rfl)
    | connection => exact .lost hp
    | error | cancelled => exact .ends hno fun he => by cases he
  | succeeded => exact .succeeds hp
  | failed period => exact .fails hp
  | sleeping =>
    have hno : ¬ Sends s a.call := not_sends hp (by simp)
    cases a.outcome with
    | cancelled => exact .ends hno fun he => by cases he
    | ok | connection | error =>
      dsimp only
      split
      · exact .quiet hno (.inr (.inr rfl))
      · exact .pings hno
  | closing =>
    have hno : ¬ Sends s a.call := not_sends hp (by simp)
    cases a.outcome with
    | cancelled => exact .ends hno fun he => by cases he
    | ok | connection | error => exact .pings hno
  | pinging =>
    have hno : ¬ Sends s a.call := not_sends hp (by simp)
    cases ho : a.outcome with
    | ok => exact .reconnects hp ho
    | cancelled => exact .ends hno fun he => by cases he
    | connection | error => exact .quiet hno (.inr (.inl rfl))
  | reconnected => exact .resends hp
  | resent period =>
    have hno : ¬ Sends s a.call := not_sends hp (by simp)
    cases a.outcome with
    | ok => exact .quiet hno (.inl rfl)
    | connection | error | cancelled => exact .ends hno fun _ => ⟨period, hp⟩

/-- A step leaves the other calls where they are. -/
theorem phase_step_ne {s : Sys} {a : Action} {j : Nat} (hj : j ≠ a.call) : (step s a).1.phase j = s.phase j := by
  have hmoves := step_moves s a
  generalize (step s a).1 = s', (step s a).2 = e at hmoves
  cases hmoves <;> exact move_ne _ _ hj

theorem phase_after_idle {client : Bool} {acts : List Action} {j : Nat} (h : ∀ a ∈ acts, a.call ≠ j) :
    (after client acts).phase j = .idle := by
  induction acts using List.reverseRecOn with
  | nil => rfl
  | append_singleton acts a ih =>
    rw [after, Mealy.after_concat, ← after,
      phase_step_ne fun hj => h a (List.mem_append_right _ List.mem_cons_self) hj.symm]
    exact ih fun b hb => h b (List.mem_append_left _ hb)

/-! ## Calls one at a time -/

/-- A call is let through and has a client. -/
def Ready (s : Sys) : Prop := s.redis.client = true ∧ s.redis.state = .closed

/-- A call that is about to retry has closed the circuit, and it is still closed
when the retry has failed; `last` is how the last call ended. -/
structure Retries (s : Sys) (last : Option End) : Prop where
  pinging : ∀ i, s.phase i = .pinging → s.redis.client = true
  retrying : ∀ i, (s.phase i = .reconnected ∨ ∃ period, s.phase i = .resent period) → Ready s
  ended : last = some (.raised .connection) → (∀ i, s.phase i = .idle) → Ready s

theorem retries_init (client : Bool) : Retries (.init client) none where
  pinging _ h := by cases h
  retrying _ h := by rcases h with h | ⟨_, h⟩ <;> cases h
  ended h := by cases h

/-- The others being idle, only the phase of the call that moved counts. -/
theorem retries_of {s : Sys} {last : Option End} {call : Nat} {p : Phase} (hothers : ∀ j, j ≠ call → s.phase j = .idle)
    (hping : p = .pinging → s.redis.client = true)
    (hretry : (p = .reconnected ∨ ∃ period, p = .resent period) → Ready s)
    (hend : p = .idle → last = some (.raised .connection) → Ready s) : Retries (s.move call p) last := by
  have hphase (i : Nat) : (s.move call p).phase i = p ∨ (s.move call p).phase i = .idle := by
    by_cases hi : i = call
    · exact .inl (hi ▸ move_self s call p)
    · exact .inr ((move_ne s p hi).trans (hothers i hi))
  constructor
  · intro i hi
    rcases hphase i with hp | hp
    · exact hping (hp ▸ hi)
    · rw [hp] at hi
      cases hi
  · intro i hi
    rcases hphase i with hp | hp
    · exact hretry (hp ▸ hi)
    · rw [hp] at hi
      rcases hi with hi | ⟨_, hi⟩ <;> cases hi
  · intro hlast hidle
    exact hend ((move_self s call p).symm.trans (hidle call)) hlast

theorem retries_step {s : Sys} {a : Action} {last : Option End} (h : Retries s last)
    (hothers : ∀ j, j ≠ a.call → s.phase j = .idle) : Retries (step s a).1 ((step s a).2.or last) := by
  have hmoves := step_moves s a
  generalize (step s a).1 = s', (step s a).2 = e at hmoves
  cases hmoves with
  | quiet _ hp =>
    refine retries_of hothers ?_ ?_ ?_ <;> rcases hp with rfl | rfl | rfl <;> simp
  | enters => exact retries_of hothers (by simp) (by simp) (by simp)
  | halfOpens => exact retries_of hothers (by simp) (by simp) (by simp)
  | sends => exact retries_of hothers (by simp) (by simp) (by simp)
  | lost => exact retries_of hothers (by simp) (by simp) (by simp)
  | fails => exact retries_of hothers (by simp) (by simp) (by simp)
  | pings => exact retries_of hothers (fun _ => rfl) (by simp) (by simp)
  | succeeds => exact retries_of hothers (by simp) (by simp) (by simp)
  | resends hp => exact retries_of hothers (by simp) (fun _ => h.retrying _ (.inl hp)) (by simp)
  | reconnects hp => exact retries_of hothers (by simp) (fun _ => ⟨h.pinging _ hp, rfl⟩) (by simp)
  | ends _ he =>
    refine retries_of hothers (by simp) (by simp) fun _ hlast => h.retrying a.call (.inr (he ?_))
    simpa using hlast

theorem ends_concat (client : Bool) (acts : List Action) (a : Action) :
    ends client (acts ++ [a]) = ends client acts ++ (step (after client acts) a).2.toList := by
  rw [ends, Mealy.outs_append, List.filterMap_append, Mealy.outs_cons, Mealy.outs_nil, after]
  cases (step (Mealy.after step (.init client) acts) a).2 <;> rfl

theorem last_ends (client : Bool) (acts : List Action) (a : Action) :
    (ends client (acts ++ [a])).getLast? = (step (after client acts) a).2.or (ends client acts).getLast? := by
  rw [ends_concat]
  cases (step (after client acts) a).2 with
  | none => rw [Option.toList_none, List.append_nil, Option.none_or]
  | some e => rw [Option.toList_some, List.getLast?_concat, Option.some_or]

theorem retries_run {client : Bool} {acts : List Action} (hseq : Sequential client acts) :
    Retries (after client acts) (ends client acts).getLast? := by
  induction acts using List.reverseRecOn with
  | nil => exact retries_init client
  | append_singleton acts a ih =>
    obtain ⟨hbefore, hlast, -⟩ := Mealy.always_append.1 hseq
    rw [last_ends, after, Mealy.after_concat]
    exact retries_step (ih hbefore) hlast

/-- The last five calls each ended with a connection or timeout error. -/
def FailedInARow (client : Bool) (acts : List Action) : Prop :=
  List.replicate cbFailThresh (End.raised .connection) <:+ ends client acts

/-- The circuit is open, and a call within 60 s of the last failure is rejected. -/
def Rejects (s : Sys) : Prop :=
  s.redis.state = .opened ∧
    ∀ a : Action, a.now - s.redis.lastFailureTs < cbResetAfter → (step s a).2 = some .rejected

/-- After calls that do not overlap, the circuit is closed if the last five of them
each ended with a connection error, and the next call sends its command. -/
theorem stays_closed (client : Bool) (acts : List Action) (hseq : Sequential client acts)
    (hidle : ∀ i, (after client acts).phase i = .idle) (hfailed : FailedInARow client acts) :
    ¬ Rejects (after client acts) ∧ (after client acts).redis.state = .closed ∧
      ∀ a b : Action, b.call = a.call →
        (Mealy.after step (after client acts) [a, b]).phase a.call = .sent none := by
  have hlast : (ends client acts).getLast? = some (.raised .connection) := by
    obtain ⟨before, hends⟩ := hfailed
    rw [← hends]
    simp [cbFailThresh, List.replicate]
  obtain ⟨hclient, hclosed⟩ := (retries_run hseq).ended hlast hidle
  refine ⟨fun hrejects => ?_, hclosed, fun a b hcall => ?_⟩
  · rw [hrejects.1] at hclosed
    cases hclosed
  · obtain ⟨call, now, o⟩ := a
    have hchecked : step (after client acts) ⟨call, now, o⟩ = ((after client acts).move call .checked, none) := by
      simp [step, hidle, Sys.check, ResilientRedis.checkCircuit, hclosed]
    rw [Mealy.after_cons, Mealy.after_cons, hchecked, Mealy.after_nil]
    simp [step, hcall, hclient, Sys.period, hclosed]

/-- A command that fails, a reconnect, and a retry that fails. -/
def failingCall (now : ℚ) : List Action :=
  let ok : Action := { call := 0, now }
  let fails : Action := { call := 0, now, outcome := .connection }
  [ok, ok, fails, ok, ok, ok, ok, ok, fails]

def fiveFailing : List Action := failingCall 1 ++ failingCall 2 ++ failingCall 3 ++ failingCall 4 ++ failingCall 5

/-- A run of one call after the other. -/
theorem sequential_of (client : Bool) {acts : List Action} (h : ∀ a ∈ acts, a.call = 0) : Sequential client acts := by
  induction acts using List.reverseRecOn with
  | nil => trivial
  | append_singleton acts a ih =>
    have ha : a.call = 0 := h a (List.mem_append_right _ List.mem_cons_self)
    have hbefore : ∀ b ∈ acts, b.call = 0 := fun b hb => h b (List.mem_append_left _ hb)
    refine Mealy.always_append.2 ⟨ih hbefore, fun j hj => ?_, trivial⟩
    exact phase_after_idle fun b hb hcall => hj (hcall.symm.trans ((hbefore b hb).trans ha.symm))

theorem sequential_fiveFailing : Sequential true fiveFailing ∧ ∀ i, (after true fiveFailing).phase i = .idle := by
  have hcalls : ∀ a ∈ fiveFailing, a.call = 0 := by decide
  refine ⟨sequential_of true hcalls, fun i => ?_⟩
  by_cases hi : i = 0
  · rw [hi]
    rfl
  · exact phase_after_idle fun a ha hcall => hi (hcall.symm.trans (hcalls a ha))

theorem failed_fiveFailing : FailedInARow true fiveFailing := by
  unfold FailedInARow
  decide

theorem stays_closed_fiveFailing :
    ¬ Rejects (after true fiveFailing) ∧ (after true fiveFailing).redis.state = .closed ∧
      ∀ a b : Action, b.call = a.call →
        (Mealy.after step (after true fiveFailing) [a, b]).phase a.call = .sent none :=
  stays_closed true fiveFailing sequential_fiveFailing.1 sequential_fiveFailing.2 failed_fiveFailing

theorem circuit_opens_fails :
    ¬ ∀ (client : Bool) (acts : List Action), Sequential client acts → (∀ i, (after client acts).phase i = .idle) →
      FailedInARow client acts → Rejects (after client acts) := by
  intro hall
  obtain ⟨hopened, -⟩ := hall true fiveFailing sequential_fiveFailing.1 sequential_fiveFailing.2 failed_fiveFailing
  have hclosed : (after true fiveFailing).redis.state = .closed := rfl
  rw [hclosed] at hopened
  cases hopened

end Netra.Redis
