import Netra.Core.Circuit
/-!
# The probe of the half-open circuit

Nothing holds a second call back while the first command sent in a half-open
period is on its way, and the count that decides whether a failed probe opens
the circuit again is shared with every other call. In runs in which the calls
keep apart (`Apart`) there is one probe at a time and each that fails opens the
circuit; after any step that does not keep apart the run can go on to break that
(`one_probe_apart`).
-/
namespace Netra.Redis

/-- The half-open period of the command that is in flight, if there is one. -/
def Phase.inFlight : Phase → Option Nat
  | .sent period => period
  | .resent period => period
  | _ => none

/-- A command sent since the transition to `HALF_OPEN` is in flight. -/
def Probing (s : Sys) (call : Nat) : Prop := (s.phase call).inFlight = some s.halfOpened

def OneProbe (s : Sys) : Prop := s.redis.state = .halfOpen → ∀ i j, Probing s i → Probing s j → i = j

/-- The next step of the call is to record that a probe failed. -/
def ProbeFails (s : Sys) (call : Nat) : Prop := ∃ period, s.phase call = .failed (some period)

/-- There is one probe at a time, and the circuit is open right after the failure of
one is recorded. -/
def OneProbeEach (client : Bool) (acts : List Action) : Prop :=
  Mealy.Always step
    (fun s a => OneProbe (step s a).1 ∧ (ProbeFails s a.call → (step s a).1.redis.state = .opened))
    (.init client) acts

/-- The call is about to send its command, or to send it again. -/
def Ahead (s : Sys) (call : Nat) : Prop := s.phase call = .checked ∨ s.phase call = .reconnected

/-- The first try of the call was sent in a half-open period, and is in flight or has failed. -/
def Undecided (s : Sys) (call : Nat) : Prop :=
  ∃ period, s.phase call = .sent (some period) ∨ s.phase call = .failed (some period)

/-- No other call is in the way of the step. -/
structure Apart (s : Sys) (a : Action) : Prop where
  /-- A call that arrives in the half-open circuit finds no other about to send, nor a probe. -/
  arrives : s.phase a.call = .idle → s.redis.state = .halfOpen → ∀ j, ¬ Ahead s j ∧ ¬ Probing s j
  /-- One that makes it half-open finds no other about to send. -/
  opens : s.phase a.call = .idle → s.redis.state = .opened → cbResetAfter ≤ a.now - s.redis.lastFailureTs →
    ∀ j, ¬ Ahead s j
  /-- A success is not recorded in the open circuit, nor while another call's probe is undecided. -/
  succeeds : s.phase a.call = .succeeded → s.redis.state ≠ .opened ∧ ∀ j, ¬ Undecided s j
  /-- No reconnect ends while a probe is undecided. -/
  reconnects : s.phase a.call = .pinging → a.outcome = .ok → ∀ j, ¬ Undecided s j

/-! ## Calls that keep apart -/

/-- One call at most is about to send, or probes, in the half-open circuit; unless it is
closed, and while a probe is undecided, the count is at the threshold. -/
structure Steady (s : Sys) : Prop where
  period : ∀ i n, (s.phase i).inFlight = some n → n ≤ s.halfOpened
  single : s.redis.state = .halfOpen → ∀ i j, Ahead s i ∨ Probing s i → Ahead s j ∨ Probing s j → i = j
  fails : s.redis.state ≠ .closed → cbFailThresh ≤ s.redis.consecutiveFails
  undecided : ∀ i, Undecided s i → cbFailThresh ≤ s.redis.consecutiveFails

theorem steady_init (client : Bool) : Steady (.init client) where
  period i n h := by cases h
  single h := by cases h
  fails h := absurd rfl h
  undecided i h := by
    obtain ⟨_, h | h⟩ := h <;> cases h

theorem le_of_period {s : Sys} (n : Nat) (h : s.period = some n) : n ≤ s.halfOpened ∧ s.redis.state = .halfOpen := by
  unfold Sys.period at h
  split at h
  · rename_i hstate
    exact ⟨(Option.some.inj h).ge, hstate⟩
  · cases h

/-- What the call that moved comes to, the others staying where they are. -/
theorem steady_move {s s' : Sys} {call : Nat} {p : Phase} (h : Steady s) (hphase : s'.phase = s.phase)
    (hhalf : s'.halfOpened = s.halfOpened) (hperiod : ∀ n, p.inFlight = some n → n ≤ s.halfOpened)
    (hsingle : s'.redis.state = .halfOpen → s.redis.state = .halfOpen ∧
      (Ahead (s'.move call p) call ∨ Probing (s'.move call p) call → Ahead s call ∨ Probing s call))
    (hfails : s'.redis.state ≠ .closed → cbFailThresh ≤ s'.redis.consecutiveFails)
    (hundecided : ∀ i, Undecided (s'.move call p) i → cbFailThresh ≤ s'.redis.consecutiveFails) :
    Steady (s'.move call p) where
  period i n hn := by
    rw [move_halfOpened, hhalf]
    by_cases hi : i = call
    · rw [hi, move_self] at hn
      exact hperiod n hn
    · rw [move_ne s' p hi, hphase] at hn
      exact h.period i n hn
  single hopen := by
    obtain ⟨hopen, hcall⟩ := hsingle hopen
    have hbefore (i : Nat) (hi : Ahead (s'.move call p) i ∨ Probing (s'.move call p) i) : Ahead s i ∨ Probing s i := by
      by_cases hne : i = call
      · subst hne
        exact hcall hi
      · rwa [Ahead, Probing, move_ne s' p hne, hphase, move_halfOpened, hhalf] at hi
    exact fun i j hi hj => h.single hopen i j (hbefore i hi) (hbefore j hj)
  fails := hfails
  undecided := hundecided

theorem undecided_move {s s' : Sys} {call i : Nat} {p : Phase} (hphase : s'.phase = s.phase)
    (hi : Undecided (s'.move call p) i) :
    (i = call ∧ ∃ period, p = .sent (some period) ∨ p = .failed (some period)) ∨ (i ≠ call ∧ Undecided s i) := by
  by_cases hne : i = call
  · subst hne
    rw [Undecided, move_self] at hi
    exact .inl ⟨rfl, hi⟩
  · rw [Undecided, move_ne s' p hne, hphase] at hi
    exact .inr ⟨hne, hi⟩

/-- A call that moves to where no probe is undecided leaves those of the others. -/
theorem undecided_of_move {s s' : Sys} {call i : Nat} {p : Phase} (hphase : s'.phase = s.phase)
    (hp : ∀ n, p ≠ .sent (some n) ∧ p ≠ .failed (some n)) (hi : Undecided (s'.move call p) i) : Undecided s i := by
  obtain ⟨-, n, hi⟩ | ⟨-, hi⟩ := undecided_move hphase hi
  · exact (hi.elim (hp n).1 (hp n).2).elim
  · exact hi

/-- A call that moves on without a command under way, or one to send. -/
theorem steady_plain {s s' : Sys} {call : Nat} {p : Phase} (h : Steady s) (hphase : s'.phase = s.phase)
    (hhalf : s'.halfOpened = s.halfOpened) (hstate : s'.redis.state = s.redis.state)
    (hcount : s'.redis.consecutiveFails = s.redis.consecutiveFails)
    (hp : p = .idle ∨ p = .succeeded ∨ p = .sleeping ∨ p = .closing ∨ p = .pinging) : Steady (s'.move call p) := by
  refine steady_move h hphase hhalf ?_ (fun hopen => ⟨hstate ▸ hopen, fun hcall => ?_⟩) ?_ fun i hi => ?_
  · rcases hp with rfl | rfl | rfl | rfl | rfl <;> exact fun n hn => by cases hn
  · rw [Ahead, Probing, move_self] at hcall
    rcases hp with rfl | rfl | rfl | rfl | rfl <;> obtain (hcall | hcall) | hcall := hcall <;> cases hcall
  · rw [hstate, hcount]
    exact h.fails
  · rw [hcount]
    exact h.undecided i (undecided_of_move hphase (by rcases hp with rfl | rfl | rfl | rfl | rfl <;> simp) hi)

/-- Where no call is about to send, or probes, the one that moves is alone. -/
theorem single_move {s : Sys} {call : Nat} {p : Phase} (h : ∀ k, ¬ Ahead s k ∧ ¬ Probing s k) (i j : Nat)
    (hi : Ahead (s.move call p) i ∨ Probing (s.move call p) i)
    (hj : Ahead (s.move call p) j ∨ Probing (s.move call p) j) : i = j := by
  have hcall {k : Nat} (hk : Ahead (s.move call p) k ∨ Probing (s.move call p) k) : k = call := by
    by_contra hne
    rw [Ahead, Probing, move_ne _ _ hne, move_halfOpened] at hk
    exact hk.elim (h k).1 (h k).2
  rw [hcall hi, hcall hj]

theorem steady_step {s : Sys} {a : Action} (h : Steady s) (ha : Apart s a) : Steady (step s a).1 := by
  have hmoves := step_moves s a
  generalize (step s a).1 = s', (step s a).2 = e at hmoves
  cases hmoves with
  | enters hp hstate =>
    refine ⟨?_, ?_, h.fails, ?_⟩
    · intro i n hn
      by_cases hi : i = a.call
      · rw [hi, move_self] at hn
        cases hn
      · rw [move_ne _ _ hi] at hn
        exact h.period i n hn
    · exact fun hopen => single_move (ha.arrives hp hopen)
    · exact fun i hi => h.undecided i (undecided_of_move rfl (by simp) hi)
  | halfOpens hp hstate htime =>
    refine ⟨?_, ?_, fun _ => h.fails (by simp [hstate]), ?_⟩
    · intro i n hn
      by_cases hi : i = a.call
      · rw [hi, move_self] at hn
        cases hn
      · rw [move_ne _ _ hi] at hn
        exact Nat.le_succ_of_le (h.period i n hn)
    · -- every command in flight is from an earlier period
      refine fun _ => single_move fun k => ⟨ha.opens hp hstate htime k, fun hk => ?_⟩
      exact Nat.not_succ_le_self _ (h.period k _ hk)
    · exact fun i hi => h.undecided i (undecided_of_move rfl (by simp) hi)
  | sends hp hclient =>
    refine steady_move h rfl rfl (fun n hn => (le_of_period n hn).1) (fun hopen => ⟨hopen, fun _ => .inl (.inl hp)⟩)
      h.fails fun i hi => ?_
    obtain ⟨-, n, hi⟩ | ⟨-, hi⟩ := undecided_move rfl hi
    · -- a probe is sent in the half-open circuit
      rcases hi with hi | hi
      · have hopen := (le_of_period n (Phase.sent.inj hi)).2
        exact h.fails (by simp [hopen])
      · cases hi
    · exact h.undecided i hi
  | resends hp =>
    refine steady_move h rfl rfl (fun n hn => (le_of_period n hn).1) (fun hopen => ⟨hopen, fun _ => .inl (.inr hp)⟩)
      h.fails fun i hi => h.undecided i (undecided_of_move rfl (by simp) hi)
  | @lost period hp =>
    refine steady_move h rfl rfl (fun n hn => by cases hn) (fun hopen => ⟨hopen, fun hcall => ?_⟩) h.fails
      fun i hi => ?_
    · rw [Ahead, Probing, move_self] at hcall
      rcases hcall with (hcall | hcall) | hcall <;> cases hcall
    · obtain ⟨rfl, n, hi⟩ | ⟨-, hi⟩ := undecided_move rfl hi
      · rcases hi with hi | hi
        · cases hi
        · exact h.undecided a.call ⟨n, .inl (Phase.failed.inj hi ▸ hp)⟩
      · exact h.undecided i hi
  | quiet _ hp =>
    exact steady_plain h rfl rfl rfl rfl (by rcases hp with hp | hp | hp <;> simp [hp])
  | pings => exact steady_plain h rfl rfl rfl rfl (by simp)
  | ends => exact steady_plain h rfl rfl rfl rfl (by simp)
  | succeeds hp =>
    obtain ⟨hstate, hnone⟩ := ha.succeeds hp
    refine steady_move h rfl rfl (fun n hn => by cases hn) (fun hopen => ?_) (fun hne => ?_) fun i hi => ?_
    · exact absurd hopen s.redis.recordSuccess_ne_halfOpen
    · cases hs : s.redis.state with
      | closed => simp [Sys.setRedis, ResilientRedis.recordSuccess, hs] at hne
      | halfOpen => simp [Sys.setRedis, ResilientRedis.recordSuccess, hs] at hne
      | opened => exact absurd hs hstate
    · exact absurd (undecided_of_move rfl (by simp) hi) (hnone i)
  | @fails period hp =>
    have hcount : (s.redis.recordFailure a.now).consecutiveFails = s.redis.consecutiveFails + 1 :=
      s.redis.recordFailure_fails a.now
    refine steady_move h rfl rfl (fun n hn => by cases hn)
      (fun hopen => ⟨ResilientRedis.recordFailure_halfOpen hopen, fun hcall => ?_⟩) (fun hne => ?_) fun i hi => ?_
    · rw [Ahead, Probing, move_self] at hcall
      rcases hcall with (hcall | hcall) | hcall <;> cases hcall
    · change cbFailThresh ≤ (s.redis.recordFailure a.now).consecutiveFails
      rw [hcount]
      by_contra hfew
      have hsame : (s.redis.recordFailure a.now).state = s.redis.state := by
        unfold ResilientRedis.recordFailure
        dsimp only
        rw [if_neg hfew]
      exact hfew (Nat.le_succ_of_le (h.fails (hsame ▸ hne)))
    · change cbFailThresh ≤ (s.redis.recordFailure a.now).consecutiveFails
      rw [hcount]
      exact Nat.le_succ_of_le (h.undecided i (undecided_of_move rfl (by simp) hi))
  | reconnects hp ho =>
    refine steady_move h rfl rfl (fun n hn => by cases hn) (fun hopen => by cases hopen) (fun hne => absurd rfl hne)
      fun i hi => absurd (undecided_of_move rfl (by simp) hi) (ha.reconnects hp ho i)

/-! ## A step that does not keep apart -/

/-- What each step of a run is to leave behind. -/
def Good (s : Sys) (a : Action) : Prop :=
  OneProbe (step s a).1 ∧ (ProbeFails s a.call → (step s a).1.redis.state = .opened)

/-- The run can go on at `t`, from `s`, to break it. -/
def Breaks (s : Sys) (t : ℚ) : Prop := ∃ rest : List Action, (∀ b ∈ rest, b.now = t) ∧ ¬ Mealy.Always step Good s rest

theorem Breaks.cons {s : Sys} {t : ℚ} {b : Action} (hb : b.now = t) (h : Breaks (step s b).1 t) : Breaks s t := by
  obtain ⟨rest, hnow, hrest⟩ := h
  exact ⟨b :: rest, List.forall_mem_cons.2 ⟨hb, hnow⟩, fun hgood => hrest hgood.2⟩

/-- An undecided probe fails when the count has started again and the circuit is not open. -/
theorem breaks_of_undecided {s : Sys} {i : Nat} (t : ℚ) (hi : Undecided s i) (hstate : s.redis.state ≠ .opened)
    (hcount : s.redis.consecutiveFails = 0) : Breaks s t := by
  obtain ⟨period, hi⟩ := hi
  have hfailed {s : Sys} (hi : s.phase i = .failed (some period)) (hstate : s.redis.state ≠ .opened)
      (hcount : s.redis.consecutiveFails = 0) : Breaks s t := by
    refine ⟨[⟨i, t, .ok⟩], by simp, fun hgood => ?_⟩
    have hopened := hgood.1.2 ⟨period, hi⟩
    have hstep : (step s ⟨i, t, .ok⟩).1.redis = s.redis.recordFailure t := by simp [step, hi, Sys.setRedis]
    rw [hstep, ResilientRedis.recordFailure_opened, hcount] at hopened
    exact hopened.elim hstate (by decide)
  rcases hi with hi | hi
  · -- the answer is a connection error
    refine .cons (b := ⟨i, t, .connection⟩) rfl (hfailed ?_ ?_ ?_) <;> simp [step, hi, hstate, hcount]
  · exact hfailed hi hstate hcount

/-- Two calls go on to send their commands in the half-open circuit, or the second does beside a probe. -/
theorem breaks_of_two {s : Sys} {i j : Nat} (t : ℚ) (hopen : s.redis.state = .halfOpen)
    (hclient : s.redis.client = true) (hij : i ≠ j) (hi : s.phase i = .checked) (hj : Ahead s j ∨ Probing s j) :
    Breaks s t := by
  have hperiod : s.period = some s.halfOpened := if_pos hopen
  have hprobing {s : Sys} (hopen : s.redis.state = .halfOpen) (hclient : s.redis.client = true)
      (hi : s.phase i = .checked) (hj : Probing s j) : Breaks s t := by
    refine ⟨[⟨i, t, .ok⟩], by simp, fun hgood => ?_⟩
    have hstep : (step s ⟨i, t, .ok⟩).1 = s.move i (.sent s.period) := by simp [step, hi, hclient]
    have hone := hgood.1.1
    rw [hstep] at hone
    refine hij (hone hopen i j ?_ ?_)
    · rw [Probing, move_self, Sys.period, if_pos hopen]
      rfl
    · rwa [Probing, move_ne _ _ hij.symm, move_halfOpened]
  have hkeep (p : Phase) : (s.move j p).phase i = .checked := by rw [move_ne s p hij, hi]
  rcases hj with (hj | hj) | hj
  · have hstep : (step s ⟨j, t, .ok⟩).1 = s.move j (.sent s.period) := by simp [step, hj, hclient]
    refine .cons (b := ⟨j, t, .ok⟩) rfl ?_
    rw [hstep]
    exact hprobing hopen hclient (hkeep _) (by rw [Probing, move_self, hperiod]; rfl)
  · have hstep : (step s ⟨j, t, .ok⟩).1 = s.move j (.resent s.period) := by simp [step, hj]
    refine .cons (b := ⟨j, t, .ok⟩) rfl ?_
    rw [hstep]
    exact hprobing hopen hclient (hkeep _) (by rw [Probing, move_self, hperiod]; rfl)
  · exact hprobing hopen hclient hi hj

/-- A call that finds the circuit open for long, and the count at its start, probes and fails. -/
theorem breaks_of_opened {s : Sys} {i : Nat} {t : ℚ} (hopen : s.redis.state = .opened) (hclient : s.redis.client = true)
    (hcount : s.redis.consecutiveFails = 0) (hi : s.phase i = .idle) (ht : cbResetAfter ≤ t - s.redis.lastFailureTs) :
    Breaks s t := by
  have hchecked : (step s ⟨i, t, .ok⟩).1 =
      { s with redis := { s.redis with state := .halfOpen }, halfOpened := s.halfOpened + 1 }.move i .checked := by
    simp [step, hi, Sys.check, ResilientRedis.checkCircuit, hopen, ht]
  refine .cons (b := ⟨i, t, .ok⟩) rfl ?_
  rw [hchecked]
  refine .cons (b := ⟨i, t, .ok⟩) rfl (breaks_of_undecided (i := i) t ⟨s.halfOpened + 1, .inl ?_⟩ ?_ ?_)
  · simp [step, hclient, Sys.period]
  · simp [step, hclient]
  · simp [step, hclient, hcount]

/-- A client is made before anything is counted. -/
def Made (s : Sys) : Prop :=
  s.redis.client = true ∨ (s.redis.state = .closed ∧ ∀ i, s.phase i = .idle ∨ s.phase i = .checked)

theorem made_step {s : Sys} (h : Made s) (a : Action) : Made (step s a).1 := by
  rcases h with hclient | ⟨hclosed, hphase⟩
  · refine .inl ?_
    have hmoves := step_moves s a
    generalize (step s a).1 = s', (step s a).2 = e at hmoves
    cases hmoves with
    | fails =>
      change (s.redis.recordFailure a.now).client = true
      unfold ResilientRedis.recordFailure
      dsimp only
      split <;> exact hclient
    | pings => rfl
    | _ => exact hclient
  · have hmoved {p : Phase} (hp : p = .idle ∨ p = .checked) : Made (s.move a.call p) := by
      refine .inr ⟨hclosed, fun i => ?_⟩
      by_cases hi : i = a.call
      · rwa [hi, move_self]
      · rw [move_ne _ _ hi]
        exact hphase i
    rcases hphase a.call with hp | hp
    · have hstep : (step s a).1 = s.move a.call .checked := by
        simp [step, hp, Sys.check, ResilientRedis.checkCircuit, hclosed]
      rw [hstep]
      exact hmoved (.inr rfl)
    · by_cases hclient : s.redis.client = true
      · exact .inl (by simp [step, hp, hclient])
      · have hstep : (step s a).1 = s.move a.call .idle := by simp [step, hp, hclient, Sys.finish]
        rw [hstep]
        exact hmoved (.inl rfl)

theorem client_of_ne_closed (client : Bool) (acts : List Action) (h : (after client acts).redis.state ≠ .closed) :
    (after client acts).redis.client = true :=
  (Mealy.after_inv step Made _ (.inr ⟨rfl, fun _ => .inl rfl⟩) (fun _ a hs => made_step hs a) acts).resolve_right
    fun hmade => h hmade.1

/-- Wherever a step does not keep apart, the run can go on to break the property. -/
theorem breaks_of_not_apart {client : Bool} {done : List Action} {a : Action} (h : ¬ Apart (after client done) a) :
    ∃ t, a.now ≤ t ∧ Breaks (step (after client done) a).1 t := by
  have hmade := client_of_ne_closed client done
  generalize after client done = s at h hmade
  by_contra hno
  have hnow (hbreaks : Breaks (step s a).1 a.now) : False := hno ⟨a.now, le_rfl, hbreaks⟩
  have hother {j : Nat} {p : Phase} (hp : s.phase a.call = p) (hj : s.phase j ≠ p) : j ≠ a.call := by
    rintro rfl
    exact hj hp
  have hfollow {j : Nat} {s' : Sys} {p : Phase} (hphase : s'.phase = s.phase) (hj : j ≠ a.call)
      (hundecided : Undecided s j) : Undecided (s'.move a.call p) j := by
    rwa [Undecided, move_ne _ _ hj, hphase]
  refine h ⟨?_, ?_, ?_, ?_⟩
  · intro hp hopen j
    have hstep : (step s a).1 = s.move a.call .checked := by
      simp [step, hp, Sys.check, ResilientRedis.checkCircuit, hopen]
    rw [hstep] at hnow
    have htwo (hne : s.phase j ≠ .idle) (hj : Ahead (s.move a.call .checked) j ∨ Probing (s.move a.call .checked) j) :
        False :=
      hnow (breaks_of_two a.now hopen (hmade (by simp [hopen])) (hother hp hne).symm (move_self _ _ _) hj)
    refine ⟨fun hj => ?_, fun hj => ?_⟩
    · have hne : s.phase j ≠ .idle := by rcases hj with hj | hj <;> simp [hj]
      exact htwo hne (.inl (by rwa [Ahead, move_ne _ _ (hother hp hne)]))
    · have hne : s.phase j ≠ .idle := fun hidle => by rw [Probing, hidle] at hj; cases hj
      exact htwo hne (.inr (by rwa [Probing, move_ne _ _ (hother hp hne)]))
  · intro hp hopen htime j hj
    have hstep : (step s a).1 =
        { s with redis := { s.redis with state := .halfOpen }, halfOpened := s.halfOpened + 1 }.move a.call
          .checked := by
      simp [step, hp, Sys.check, ResilientRedis.checkCircuit, hopen, htime]
    rw [hstep] at hnow
    have hne : j ≠ a.call := hother hp (by rcases hj with hj | hj <;> simp [hj])
    refine hnow (breaks_of_two a.now rfl (hmade (by simp [hopen])) hne.symm (move_self _ _ _) (.inl ?_))
    rwa [Ahead, move_ne _ _ hne]
  · intro hp
    have hstep : (step s a).1 = (s.setRedis s.redis.recordSuccess).move a.call .idle := by simp [step, hp, Sys.finish]
    rw [hstep] at hno hnow
    have hstate : s.redis.state ≠ .opened := by
      intro hopen
      -- the count starts again in the open circuit, and the next probe fails
      refine hno ⟨max a.now (s.redis.lastFailureTs + cbResetAfter), le_max_left _ _, ?_⟩
      refine breaks_of_opened (i := a.call) ?_ (hmade (by simp [hopen])) rfl (move_self _ _ _) ?_
      · simp [Sys.setRedis, ResilientRedis.recordSuccess, hopen]
      · change cbResetAfter ≤ max a.now (s.redis.lastFailureTs + cbResetAfter) - s.redis.lastFailureTs
        exact le_sub_iff_add_le'.2 (le_max_right _ _)
    refine ⟨hstate, fun j hj => ?_⟩
    have hne : j ≠ a.call := hother hp (by obtain ⟨_, hj | hj⟩ := hj <;> simp [hj])
    refine hnow (breaks_of_undecided a.now (hfollow rfl hne hj) ?_ rfl)
    cases hs : s.redis.state with
    | opened => exact absurd hs hstate
    | _ => simp [Sys.setRedis, ResilientRedis.recordSuccess, hs]
  · intro hp ho j hj
    have hstep : (step s a).1 = (s.setRedis s.redis.reconnected).move a.call .reconnected := by simp [step, hp, ho]
    have hne : j ≠ a.call := hother hp (by obtain ⟨_, hj | hj⟩ := hj <;> simp [hj])
    rw [hstep] at hnow
    exact hnow (breaks_of_undecided a.now (hfollow rfl hne hj) (by simp [Sys.setRedis, ResilientRedis.reconnected]) rfl)

/-! ## Runs -/

instance (s : Sys) (call : Nat) : Decidable (Ahead s call) := inferInstanceAs (Decidable (_ ∨ _))

instance (s : Sys) (call : Nat) : Decidable (Probing s call) := inferInstanceAs (Decidable (_ = _))

instance (s : Sys) (call : Nat) : Decidable (Undecided s call) :=
  match hp : s.phase call with
  | .sent (some n) => isTrue ⟨n, .inl hp⟩
  | .failed (some n) => isTrue ⟨n, .inr hp⟩
  | .idle | .checked | .sent none | .succeeded | .failed none | .sleeping | .closing | .pinging | .reconnected
  | .resent _ => isFalse fun ⟨_, h⟩ => by simp [hp] at h

/-- `Apart` of the calls below `n`. -/
def ApartBelow (n : Nat) (s : Sys) (a : Action) : Prop :=
  (s.phase a.call = .idle → s.redis.state = .halfOpen → ∀ j < n, ¬ Ahead s j ∧ ¬ Probing s j) ∧
    (s.phase a.call = .idle → s.redis.state = .opened → cbResetAfter ≤ a.now - s.redis.lastFailureTs →
      ∀ j < n, ¬ Ahead s j) ∧
    (s.phase a.call = .succeeded → s.redis.state ≠ .opened ∧ ∀ j < n, ¬ Undecided s j) ∧
    (s.phase a.call = .pinging → a.outcome = .ok → ∀ j < n, ¬ Undecided s j)

instance (n : Nat) (s : Sys) (a : Action) : Decidable (ApartBelow n s a) := inferInstanceAs (Decidable (_ ∧ _ ∧ _ ∧ _))

theorem apart_of_below {n : Nat} {s : Sys} {a : Action} (hidle : ∀ j, n ≤ j → s.phase j = .idle)
    (h : ApartBelow n s a) : Apart s a := by
  obtain ⟨harrives, hopens, hsucceeds, hreconnects⟩ := h
  have hahead (j : Nat) (hj : n ≤ j) : ¬ Ahead s j ∧ ¬ Probing s j ∧ ¬ Undecided s j := by
    simp [Ahead, Probing, Undecided, hidle j hj, Phase.inFlight]
  refine ⟨fun hp hs j => ?_, fun hp hs ht j => ?_, fun hp => ⟨(hsucceeds hp).1, fun j => ?_⟩, fun hp ho j => ?_⟩
  · exact (lt_or_ge j n).elim (harrives hp hs j) fun hj => ⟨(hahead j hj).1, (hahead j hj).2.1⟩
  · exact (lt_or_ge j n).elim (hopens hp hs ht j) fun hj => (hahead j hj).1
  · exact (lt_or_ge j n).elim ((hsucceeds hp).2 j) fun hj => (hahead j hj).2.2
  · exact (lt_or_ge j n).elim (hreconnects hp ho j) fun hj => (hahead j hj).2.2

/-- In a run of calls below `n` only those count. -/
theorem always_apart_of_below {client : Bool} {acts : List Action} (n : Nat) (hcalls : ∀ a ∈ acts, a.call < n)
    (h : Mealy.Always step (ApartBelow n) (.init client) acts) : Mealy.Always step Apart (.init client) acts := by
  refine Mealy.always_iff_forall.2 fun done a rest hacts => ?_
  refine apart_of_below (fun j hj => ?_) (Mealy.always_iff_forall.1 h done a rest hacts)
  refine phase_after_idle fun b hb hcall => ?_
  have hlt := hcalls b (hacts ▸ List.mem_append_left _ hb)
  omega

/-- Calls 0 to 4 overlap and fail, and open the circuit. A minute later the probe of call 5
fails and opens it again, and another minute later that of call 6 closes it. -/
def reopens : List Action :=
  (List.range 5).flatMap (fun i => [⟨i, 1, .ok⟩, ⟨i, 1, .ok⟩]) ++
    (List.range 5).flatMap (fun i => [⟨i, 2, .connection⟩, ⟨i, 2, .ok⟩]) ++
    (List.range 5).map (fun i => ⟨i, 2, .cancelled⟩) ++
    [⟨5, 62, .ok⟩, ⟨5, 62, .ok⟩, ⟨5, 63, .connection⟩, ⟨5, 63, .ok⟩, ⟨5, 63, .cancelled⟩] ++
    [⟨6, 123, .ok⟩, ⟨6, 123, .ok⟩, ⟨6, 124, .ok⟩, ⟨6, 124, .ok⟩]

/-- In every run whose calls keep apart there is one probe at a time and each that fails
opens the circuit; and after every step that does not keep apart a run can go on, in time,
to break that. -/
theorem one_probe_apart (client : Bool) :
    (∀ acts, Mealy.Always step Apart (.init client) acts → OneProbeEach client acts) ∧
      ∀ done a, ¬ Apart (after client done) a →
        ∃ t rest, a.now ≤ t ∧ (∀ b ∈ rest, b.now = t) ∧ ¬ OneProbeEach client (done ++ a :: rest) := by
  refine ⟨fun acts h => ?_, fun done a h => ?_⟩
  · refine (Mealy.always_iff_forall).2 fun done a rest hacts => ?_
    subst hacts
    obtain ⟨hdone, ha, -⟩ := Mealy.always_append.1 h
    have hsteady := hdone.after_inv (fun _ _ => steady_step) (steady_init client)
    refine ⟨fun hopen i j hi hj => (steady_step hsteady ha).single hopen i j (.inr hi) (.inr hj), ?_⟩
    rintro ⟨period, hp⟩
    have hstep : (step (Mealy.after step (.init client) done) a).1.redis =
        (Mealy.after step (.init client) done).redis.recordFailure a.now := by simp [step, hp, Sys.setRedis]
    rw [hstep, ResilientRedis.recordFailure_opened]
    exact .inr (Nat.le_succ_of_le (hsteady.undecided a.call ⟨period, .inr hp⟩))
  · obtain ⟨t, ht, rest, hnow, hrest⟩ := breaks_of_not_apart h
    exact ⟨t, rest, ht, hnow, fun hone => hrest (Mealy.always_append.1 hone).2.2⟩

theorem one_probe_apart_reopens :
    OneProbeEach true reopens ∧ (after true reopens).halfOpened = 2 ∧ (after true reopens).redis.state = .closed :=
  ⟨(one_probe_apart true).1 reopens (always_apart_of_below 7 (by decide) (by decide +kernel)), by decide +kernel,
    by decide +kernel⟩

/-- Calls 0 to 4 fail and are cancelled while they reconnect, and open the circuit.
A minute later call 5 makes it half-open and sends its command, and so does call 6. -/
def twoProbes : List Action :=
  (List.range 5).flatMap (fun i => [⟨i, 1, .ok⟩, ⟨i, 1, .ok⟩]) ++
    (List.range 5).flatMap (fun i => [⟨i, 2, .connection⟩, ⟨i, 2, .ok⟩]) ++
    (List.range 5).map (fun i => ⟨i, 2, .cancelled⟩) ++
    [⟨5, 62, .ok⟩, ⟨5, 62, .ok⟩, ⟨6, 63, .ok⟩, ⟨6, 63, .ok⟩]

theorem one_probe_fails :
    ¬ ∀ (client : Bool) (acts : List Action), acts.Pairwise (fun a b => a.now ≤ b.now) →
      OneProbeEach client acts := by
  intro hall
  have hone : OneProbe (after true twoProbes) :=
    (Mealy.always_append.1 (hall true twoProbes (by decide +kernel))).2.2.2.2.1.1
  have hopen : (after true twoProbes).redis.state = .halfOpen := by decide +kernel
  have hfive : (after true twoProbes).phase 5 = .sent (some 1) := by decide +kernel
  have hsix : (after true twoProbes).phase 6 = .sent (some 1) := by decide +kernel
  have hperiod : (after true twoProbes).halfOpened = 1 := by decide +kernel
  have hsame : 5 = 6 := hone hopen 5 6 (by rw [Probing, hfive, hperiod]; rfl) (by rw [Probing, hsix, hperiod]; rfl)
  cases hsame

end Netra.Redis
