import Netra.Lib.Machine
import Mathlib.Algebra.Order.Ring.Rat
import Mathlib.Data.List.Chain
import Mathlib.Data.NNRat.Defs
import Mathlib.Tactic.Linarith
import Mathlib.Tactic.NormNum
/-!
# The source of a camera

`RTSPSource.frames` (`backend/services/mediabridge/source.py`), one attempt to open
the stream or to read a frame at a time. `close` ends a run wherever it is.

It waits only after it failed to open the stream, twice as long each time
(`backoff_doubles`), and yields the frames of a connection no faster than
`target_fps` (`frames_paced`).
-/
namespace Netra.Ingest.RTSPSource

variable {F : Type}

/-- `_BACKOFF_BASE` -/
def backoffBase : ℚ := 1

/-- `_BACKOFF_MAX` -/
def backoffMax : ℚ := 60

/-- `_BACKOFF_FACTOR` -/
def backoffFactor : ℚ := 2

/-- The variables of `frames`. -/
structure State where
  backoff : ℚ
  /-- `last_frame_time`, while a capture is open -/
  lastFrameTime : Option ℚ

def State.init : State := ⟨backoffBase, none⟩

/-- What the next `_open()` or `cap.read()` gives. -/
inductive Met (F : Type) where
  | opened
  | unopened
  /-- read at `now` on the monotonic clock; `late` is what the governor's sleep takes too long -/
  | frame (frame : F) (now : ℚ) (late : ℚ≥0)
  | ended

inductive Did (F : Type) where
  | nothing
  | connected
  /-- `time.sleep(backoff)` -/
  | slept (seconds : ℚ)
  | released
  | yielded (frame : F) (time : ℚ)

section
variable (targetFps : ℚ)

def frameInterval : ℚ := 1 / targetFps

/-- How long the governor sleeps. -/
def pause (lastFrameTime now : ℚ) : ℚ :=
  let elapsed := now - lastFrameTime
  if elapsed < frameInterval targetFps then frameInterval targetFps - elapsed else 0

/-- An attempt that `frames` does not make in the state it is in changes nothing. -/
def step (s : State) (m : Met F) : State × Did F :=
  match s.lastFrameTime, m with
  | none, .unopened => (⟨min (s.backoff * backoffFactor) backoffMax, none⟩, .slept s.backoff)
  | none, .opened => (⟨backoffBase, some 0⟩, .connected)
  | some last, .frame frame now late =>
    let woken := now + pause targetFps last now + late
    (⟨s.backoff, some woken⟩, .yielded frame woken)
  | some _, .ended => (⟨s.backoff, none⟩, .released)
  | _, _ => (s, .nothing)

def after (ms : List (Met F)) : State := Mealy.after (step targetFps) .init ms

def did (ms : List (Met F)) : List (Did F) := Mealy.outs (step targetFps) .init ms

end

/-! ## Waiting -/

/-- The attempts to open that failed since the last that did not. -/
def failures (ds : List (Did F)) : Nat :=
  ds.foldl (fun n d => match d with
    | .slept _ => n + 1
    | .connected => 0
    | _ => n) 0

/-- The frames yielded since the stream was last opened, by their time. -/
def current (ds : List (Did F)) : List ℚ :=
  ds.foldl (fun times d => match d with
    | .yielded _ time => times ++ [time]
    | .connected => []
    | _ => times) []

theorem failures_concat (ds : List (Did F)) (d : Did F) :
    failures (ds ++ [d]) = match d with
      | .slept _ => failures ds + 1
      | .connected => 0
      | _ => failures ds := by
  rw [failures, List.foldl_append]
  rfl

theorem current_concat (ds : List (Did F)) (d : Did F) :
    current (ds ++ [d]) = match d with
      | .yielded _ time => current ds ++ [time]
      | .connected => []
      | _ => current ds := by
  rw [current, List.foldl_append]
  rfl

variable {targetFps : ℚ} {s : State} {ms : List (Met F)}

theorem min_double (n : Nat) :
    min (min ((2 : ℚ) ^ n) backoffMax * backoffFactor) backoffMax = min (2 ^ (n + 1)) backoffMax := by
  rw [pow_succ, backoffFactor]
  rcases le_total ((2 : ℚ) ^ n) backoffMax with h | h
  · rw [min_eq_left h]
  · have hmax : (0 : ℚ) < backoffMax := by norm_num [backoffMax]
    rw [min_eq_right h, min_eq_right (by linarith), min_eq_right (by linarith)]

theorem interval_le_pause (last now : ℚ) (late : ℚ≥0) :
    last + frameInterval targetFps ≤ now + pause targetFps last now + late := by
  have hlate := late.coe_nonneg
  unfold pause
  dsimp only
  split <;> linarith

/-- What one attempt does to the backoff and to the clock of the governor. -/
theorem step_cases (targetFps : ℚ) (s : State) (m : Met F) :
    (s.lastFrameTime = none ∧
      step targetFps s m = (⟨min (s.backoff * backoffFactor) backoffMax, none⟩, .slept s.backoff)) ∨
      step targetFps s m = (⟨backoffBase, some 0⟩, .connected) ∨
      (∃ last frame woken, s.lastFrameTime = some last ∧ last + frameInterval targetFps ≤ woken ∧
        step targetFps s m = (⟨s.backoff, some woken⟩, .yielded frame woken)) ∨
      step targetFps s m = (⟨s.backoff, none⟩, .released) ∨
      step targetFps s m = (s, .nothing) := by
  obtain ⟨backoff, lastFrameTime⟩ := s
  cases lastFrameTime with
  | none => cases m <;> simp [step]
  | some last =>
    cases m with
    | frame frame now late =>
      exact .inr (.inr (.inl ⟨last, frame, _, rfl, interval_le_pause last now late, rfl⟩))
    | _ => simp [step]

/-! ## Runs -/

/-- What the variables say about the attempts so far. -/
structure Recalls (targetFps : ℚ) (ds : List (Did F)) (s : State) : Prop where
  backoff : s.backoff = min (2 ^ failures ds) backoffMax
  paced : (current ds).IsChain (· + frameInterval targetFps ≤ ·)
  last : ∀ last time, s.lastFrameTime = some last → (current ds).getLast? = some time → time = last

theorem recalls_init (targetFps : ℚ) : Recalls targetFps ([] : List (Did F)) .init where
  backoff := by norm_num [State.init, backoffBase, failures, backoffMax]
  paced := .nil
  last := nofun

theorem recalls_step {ds : List (Did F)} (h : Recalls targetFps ds s) (m : Met F) :
    Recalls targetFps (ds ++ [(step targetFps s m).2]) (step targetFps s m).1 := by
  obtain ⟨hbackoff, hpaced, hlast⟩ := h
  rcases step_cases targetFps s m with
    ⟨-, he⟩ | he | ⟨last, frame, woken, hopen, hlate, he⟩ | he | he <;>
    rw [he] <;> refine ⟨?_, ?_, ?_⟩ <;> simp only [failures_concat, current_concat]
  · rw [hbackoff, min_double]
  · exact hpaced
  · exact nofun
  · norm_num [backoffBase, backoffMax]
  · exact .nil
  · exact nofun
  · exact hbackoff
  · rw [List.isChain_append]
    refine ⟨hpaced, .singleton _, fun time htime woken' hwoken => ?_⟩
    obtain rfl := hlast last time hopen htime
    obtain rfl := Option.some.inj hwoken
    exact hlate
  · intro last' time hnew htime
    rw [List.getLast?_concat] at htime
    exact (Option.some.inj htime).symm.trans (Option.some.inj hnew)
  · exact hbackoff
  · exact hpaced
  · exact nofun
  · exact hbackoff
  · exact hpaced
  · exact hlast

theorem recalls_after (targetFps : ℚ) (ms : List (Met F)) :
    Recalls targetFps (did targetFps ms) (after targetFps ms) := by
  induction ms using List.reverseRecOn with
  | nil => exact recalls_init targetFps
  | append_singleton ms m ih =>
    rw [did, Mealy.outs_append, after, Mealy.after_concat]
    exact recalls_step ih m

/-- The `k`-th failure in a row to open the stream, counted from 0, is followed by a
`time.sleep(backoff)` of 2^k seconds, at most 60, and nothing else is. The governor's
sleep is another wait: it holds the frames of a connection at least `1 / target_fps` apart. -/
theorem source_run (targetFps : ℚ) (ms : List (Met F)) (m : Met F) :
    (∀ seconds, (step targetFps (after targetFps ms) m).2 = .slept seconds ↔
        (after targetFps ms).lastFrameTime = none ∧ m = .unopened ∧
          seconds = min (2 ^ failures (did targetFps ms)) backoffMax) ∧
      (current (did targetFps ms)).IsChain (· + frameInterval targetFps ≤ ·) := by
  have h := recalls_after targetFps ms
  refine ⟨fun seconds => ?_, h.paced⟩
  rw [← h.backoff]
  obtain ⟨backoff, lastFrameTime⟩ := after targetFps ms
  cases lastFrameTime <;> cases m <;> simp [step, eq_comm]

end Netra.Ingest.RTSPSource
