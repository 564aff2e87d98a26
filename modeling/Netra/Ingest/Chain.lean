import Netra.Ingest.Order
import Netra.Shm.Underway
/-!
# From the camera to the detector

A camera worker writes a frame to the ring and pushes its pointer; `run_worker`
pops the pointer and reads the frame back, unless it finds it too old or is
overloaded. The ring is written and read a step at a time, and a picture is copied
in one. What was made and not yet popped stands in the queue without a gap
(`Linked`), so the number of a pointer says how many frames were written after its
own.
-/
namespace Netra

open PyLib Wire

namespace Ingest

variable {F : Type}

/-- The settings of `run_worker`, and the ring's `shm_num_slots`. -/
structure Limits where
  numSlots : Nat
  maxFrameAgeMs : ℚ
  adaptiveFpsEnabled : Bool
  adaptiveFpsTargetLatencyMs : ℚ

/-- The `reason` of `frames_dropped`. -/
inductive Reason where
  | stale
  | adaptiveFps
  | staleShm
  deriving DecidableEq

/-- What a turn of `run_worker` finds: `time.time()`, `random.random()`, whether
`ReaderCache.get` has the segments of the camera, and how many milliseconds the
detector takes. -/
structure Tick where
  now : ℚ
  random : ℚ
  found : Bool
  elapsed : ℚ

/-- Where `run_worker` is with the pointer it popped. -/
inductive Reading (F : Type) where
  | idle
  /-- the age of the frame and the load are next -/
  | popped (fp : FramePointer)
  /-- `ReaderCache.get` and the first check of `read` are next -/
  | admitted (fp : FramePointer)
  /-- the copy is next -/
  | checked (fp : FramePointer)
  /-- the second check is next -/
  | copied (fp : FramePointer) (frame : F)

def Reading.pointer : Reading F → Option FramePointer
  | .idle => none
  | .popped fp | .admitted fp | .checked fp | .copied fp _ => some fp

structure Chain (F : Type) where
  redis : State
  memory : Shm.Memory F
  /-- of the camera worker, which has no command to give before `write` returns -/
  writing : Shm.Writing F
  reading : Reading F
  /-- `_proc_times[cam_id]` -/
  procTimes : List ℚ

def Chain.init (ring : Nat → F) : Chain F := ⟨.init, Shm.RingBufferWriter.init ring, .idle, .idle, []⟩

inductive Turn (F : Type) where
  /-- the next step of the camera worker; `frame` is the frame it reads if it comes to one -/
  | worker (frame : F) (now : ℚ)
  /-- the next step of the inference worker -/
  | inference (t : Tick)

inductive Happened (F : Type) where
  | nothing
  /-- the frame is in its slot -/
  | began (frame : F)
  /-- its generation is bumped -/
  | wrote (frame : F)
  /-- `now` goes into the pointer -/
  | stamped (now : ℚ)
  | popped (fp : FramePointer)
  /-- young enough at `now`, and not skipped -/
  | admitted (fp : FramePointer) (now : ℚ)
  | dropped (fp : FramePointer) (reason : Reason)
  /-- `FileNotFoundError` -/
  | notFound (fp : FramePointer)
  /-- `detector.detect` was given the frame -/
  | processed (fp : FramePointer) (frame : F)

section
variable (py : PyJson) (cfg : Config) (lim : Limits)

/-- What `reader.read` is called with; it takes the slot modulo the number of slots. -/
def shmPointer (fp : FramePointer) : Shm.Pointer := ⟨(fp.slotIndex % lim.numSlots).toNat, fp.generation⟩

/-- The mean of the last five processing times is more than twice the target. -/
def overloaded (procTimes : List ℚ) : Bool :=
  let recent := procTimes.rtake 5
  lim.adaptiveFpsEnabled ∧ procTimes ≠ [] ∧ lim.adaptiveFpsTargetLatencyMs * 2 < recent.sum / recent.length

namespace Chain

open Shm.RingBufferWriter Shm.RingBufferReader

/-- The next step of `CameraWorker.run`. -/
def worker (c : Chain F) (frame : F) (now : ℚ) : Chain F × Happened F :=
  match c.redis.worker, c.writing with
  | .frame, .idle =>
    let slot := slotOf lim.numSlots c.memory.idx
    ({ c with memory := copyFrame c.memory slot frame, writing := .copied slot frame }, .began frame)
  | .frame, .copied slot frame => ({ c with memory := bumpIdx c.memory, writing := .bumped slot frame }, .nothing)
  | .frame, .bumped slot frame =>
    let memory := bumpGen c.memory slot
    ({ c with memory, writing := .wrote (pointerTo memory slot) }, .wrote frame)
  | .frame, .wrote p =>
    ({ c with
      writing := .idle
      redis := (Ingest.step py cfg c.redis (.worker ⟨p.slotIndex, p.generation, now⟩)).1 }, .stamped now)
  | _, _ => ({ c with redis := (Ingest.step py cfg c.redis (.worker ⟨0, 0, now⟩)).1 }, .nothing)

/-- The next step of `run_worker`. -/
def inference (c : Chain F) (t : Tick) : Chain F × Happened F :=
  match c.reading with
  | .idle =>
    let (redis, e) := Ingest.step py cfg c.redis .inference
    match e.obtained.bind (readPointer py) with
    | some fp => ({ c with redis, reading := .popped fp }, .popped fp)
    | none => ({ c with redis }, .nothing)
  | .popped fp =>
    if lim.maxFrameAgeMs < (t.now - fp.timestamp) * 1000 then ({ c with reading := .idle }, .dropped fp .stale)
    else if overloaded lim c.procTimes ∧ t.random < 1 / 2 then
      ({ c with reading := .idle }, .dropped fp .adaptiveFps)
    else ({ c with reading := .admitted fp }, .admitted fp t.now)
  | .admitted fp =>
    if ¬ t.found then ({ c with reading := .idle }, .notFound fp)
    else if ¬ current lim.numSlots c.memory.gen (shmPointer lim fp) then
      ({ c with reading := .idle }, .dropped fp .staleShm)
    else ({ c with reading := .checked fp }, .nothing)
  | .checked fp =>
    let frame := c.memory.ring (slot lim.numSlots (shmPointer lim fp))
    ({ c with reading := .copied fp frame }, .nothing)
  | .copied fp frame =>
    if ¬ current lim.numSlots c.memory.gen (shmPointer lim fp) then
      ({ c with reading := .idle }, .dropped fp .staleShm)
    else ({ c with reading := .idle, procTimes := push 20 c.procTimes t.elapsed }, .processed fp frame)

def step (c : Chain F) : Turn F → Chain F × Happened F
  | .worker frame now => worker py cfg lim c frame now
  | .inference t => inference py cfg lim c t

def after (ring : Nat → F) (turns : List (Turn F)) : Chain F := Mealy.after (step py cfg lim) (init ring) turns

def happened (ring : Nat → F) (turns : List (Turn F)) : List (Happened F) :=
  Mealy.outs (step py cfg lim) (init ring) turns

end Chain

end

namespace Happened

def began? : Happened F → Option F
  | .began frame => some frame
  | _ => none

def wrote? : Happened F → Option F
  | .wrote frame => some frame
  | _ => none

def stamp? : Happened F → Option ℚ
  | .stamped now => some now
  | _ => none

def popped? : Happened F → Option FramePointer
  | .popped fp => some fp
  | _ => none

/-- The pointer that was dealt with. -/
def judged? : Happened F → Option FramePointer
  | .dropped fp _ | .notFound fp | .processed fp _ => some fp
  | _ => none

end Happened

/-- The frames whose write was begun, in order. -/
def begun (es : List (Happened F)) : List F := es.filterMap Happened.began?

/-- The frames whose write was finished, in order. -/
def written (es : List (Happened F)) : List F := es.filterMap Happened.wrote?

/-- The timestamps of their pointers. -/
def stamps (es : List (Happened F)) : List ℚ := es.filterMap Happened.stamp?

def popped (es : List (Happened F)) : List FramePointer := es.filterMap Happened.popped?

def judged (es : List (Happened F)) : List FramePointer := es.filterMap Happened.judged?

theorem begun_concat (es : List (Happened F)) (e : Happened F) :
    begun (es ++ [e]) = begun es ++ e.began?.toList := Mealy.filterMap_concat ..

theorem written_concat (es : List (Happened F)) (e : Happened F) :
    written (es ++ [e]) = written es ++ e.wrote?.toList := Mealy.filterMap_concat ..

theorem stamps_concat (es : List (Happened F)) (e : Happened F) :
    stamps (es ++ [e]) = stamps es ++ e.stamp?.toList := Mealy.filterMap_concat ..

theorem popped_concat (es : List (Happened F)) (e : Happened F) :
    popped (es ++ [e]) = popped es ++ e.popped?.toList := Mealy.filterMap_concat ..

theorem judged_concat (es : List (Happened F)) (e : Happened F) :
    judged (es ++ [e]) = judged es ++ e.judged?.toList := Mealy.filterMap_concat ..

theorem begun_grows (es es' : List (Happened F)) : begun es <+: begun (es ++ es') := by
  rw [begun, begun, List.filterMap_append]
  exact List.prefix_append _ _

theorem written_grows (es es' : List (Happened F)) : written es <+: written (es ++ es') := by
  rw [written, written, List.filterMap_append]
  exact List.prefix_append _ _

section
variable (py : PyJson) (cfg : Config) (lim : Limits)

open Shm.RingBufferWriter Shm.RingBufferReader

/-- `Chain.step` as a relation. -/
inductive Chain.Moves (c : Chain F) : Turn F → Chain F × Happened F → Prop
  | copyFrame {frame : F} {now : ℚ} (hworker : c.redis.worker = .frame) (hwriting : c.writing = .idle) :
    Moves c (.worker frame now)
      ({ c with
        memory := Shm.RingBufferWriter.copyFrame c.memory (slotOf lim.numSlots c.memory.idx) frame
        writing := .copied (slotOf lim.numSlots c.memory.idx) frame }, .began frame)
  | bumpIdx {frame' frame : F} {now : ℚ} {slot : Nat} (hworker : c.redis.worker = .frame)
      (hwriting : c.writing = .copied slot frame) :
    Moves c (.worker frame' now)
      ({ c with memory := Shm.RingBufferWriter.bumpIdx c.memory, writing := .bumped slot frame }, .nothing)
  | bumpGen {frame' frame : F} {now : ℚ} {slot : Nat} (hworker : c.redis.worker = .frame)
      (hwriting : c.writing = .bumped slot frame) :
    Moves c (.worker frame' now)
      ({ c with
        memory := Shm.RingBufferWriter.bumpGen c.memory slot
        writing := .wrote (pointerTo (Shm.RingBufferWriter.bumpGen c.memory slot) slot) }, .wrote frame)
  | make {frame : F} {now : ℚ} {p : Shm.Pointer} (hworker : c.redis.worker = .frame) (hwriting : c.writing = .wrote p) :
    Moves c (.worker frame now)
      ({ c with
        writing := .idle
        redis := (Ingest.step py cfg c.redis (.worker ⟨p.slotIndex, p.generation, now⟩)).1 }, .stamped now)
  | command {frame : F} {now : ℚ} (hworker : c.redis.worker ≠ .frame) :
    Moves c (.worker frame now)
      ({ c with redis := (Ingest.step py cfg c.redis (.worker ⟨0, 0, now⟩)).1 }, .nothing)
  | pop {t : Tick} {fp : FramePointer} (hreading : c.reading = .idle)
      (hfp : (Ingest.step py cfg c.redis .inference).2.obtained.bind (readPointer py) = some fp) :
    Moves c (.inference t)
      ({ c with redis := (Ingest.step py cfg c.redis .inference).1, reading := .popped fp }, .popped fp)
  | wait {t : Tick} (hreading : c.reading = .idle)
      (hfp : (Ingest.step py cfg c.redis .inference).2.obtained.bind (readPointer py) = none) :
    Moves c (.inference t) ({ c with redis := (Ingest.step py cfg c.redis .inference).1 }, .nothing)
  | refuse {t : Tick} {fp : FramePointer} {r : Reason} (hreading : c.reading = .popped fp) (hr : r ≠ .staleShm) :
    Moves c (.inference t) ({ c with reading := .idle }, .dropped fp r)
  | pass {t : Tick} {fp : FramePointer} (hreading : c.reading = .popped fp)
      (hage : (t.now - fp.timestamp) * 1000 ≤ lim.maxFrameAgeMs) :
    Moves c (.inference t) ({ c with reading := .admitted fp }, .admitted fp t.now)
  | notFound {t : Tick} {fp : FramePointer} (hreading : c.reading = .admitted fp) (hfound : t.found = false) :
    Moves c (.inference t) ({ c with reading := .idle }, .notFound fp)
  | stale {t : Tick} {fp : FramePointer} (hreading : c.reading = .admitted fp) (hfound : t.found = true)
      (hold : ¬ current lim.numSlots c.memory.gen (shmPointer lim fp)) :
    Moves c (.inference t) ({ c with reading := .idle }, .dropped fp .staleShm)
  | check {t : Tick} {fp : FramePointer} (hreading : c.reading = .admitted fp) (hfound : t.found = true)
      (hcurrent : current lim.numSlots c.memory.gen (shmPointer lim fp)) :
    Moves c (.inference t) ({ c with reading := .checked fp }, .nothing)
  | copyOut {t : Tick} {fp : FramePointer} (hreading : c.reading = .checked fp) :
    Moves c (.inference t)
      ({ c with reading := .copied fp (c.memory.ring (slot lim.numSlots (shmPointer lim fp))) }, .nothing)
  | overwritten {t : Tick} {fp : FramePointer} {frame : F} (hreading : c.reading = .copied fp frame)
      (hold : ¬ current lim.numSlots c.memory.gen (shmPointer lim fp)) :
    Moves c (.inference t) ({ c with reading := .idle }, .dropped fp .staleShm)
  | process {t : Tick} {fp : FramePointer} {frame : F} (hreading : c.reading = .copied fp frame)
      (hcurrent : current lim.numSlots c.memory.gen (shmPointer lim fp)) :
    Moves c (.inference t)
      ({ c with reading := .idle, procTimes := push 20 c.procTimes t.elapsed }, .processed fp frame)

theorem Chain.worker_moves (c : Chain F) (frame : F) (now : ℚ) :
    Moves py cfg lim c (.worker frame now) (worker py cfg lim c frame now) := by
  unfold worker
  split
  · exact .copyFrame ‹_› ‹_›
  · exact .bumpIdx ‹_› ‹_›
  · exact .bumpGen ‹_› ‹_›
  · exact .make ‹_› ‹_›
  · rename_i hidle hcopied hbumped hwrote
    refine .command fun hframe => ?_
    cases hw : c.writing with
    | idle => exact hidle hframe hw
    | copied slot frame => exact hcopied slot frame hframe hw
    | bumped slot frame => exact hbumped slot frame hframe hw
    | wrote p => exact hwrote p hframe hw

theorem Chain.inference_moves (c : Chain F) (t : Tick) :
    Moves py cfg lim c (.inference t) (inference py cfg lim c t) := by
  unfold inference
  split
  · dsimp only
    split
    · exact .pop ‹_› ‹_›
    · exact .wait ‹_› ‹_›
  · split
    · exact .refuse ‹_› (by decide)
    · split
      · exact .refuse ‹_› (by decide)
      · exact .pass ‹_› (not_lt.1 ‹_›)
  · split
    · exact .notFound ‹_› (Bool.eq_false_of_not_eq_true ‹_›)
    · split
      · exact .stale ‹_› (by simpa using ‹¬ ¬ t.found = true›) ‹_›
      · exact .check ‹_› (by simpa using ‹¬ ¬ t.found = true›) (not_not.1 ‹_›)
  · exact .copyOut ‹_›
  · split
    · exact .overwritten ‹_› ‹_›
    · exact .process ‹_› (not_not.1 ‹_›)

theorem Chain.step_moves (c : Chain F) (turn : Turn F) : Moves py cfg lim c turn (step py cfg lim c turn) := by
  cases turn with
  | worker frame now => exact worker_moves py cfg lim c frame now
  | inference t => exact inference_moves py cfg lim c t

end

/-! ## The line -/

section
variable {py : PyJson} {cfg : Config} {s : State} {fps : List FramePointer}

/-- The pointer the worker makes at its next command. -/
def makes (cfg : Config) (s : State) (f : Frame) : List FramePointer :=
  match s.worker with
  | .frame => [pointer cfg (s.frameSeq + 1) f]
  | _ => []

/-- A command of the worker moves at most one pointer, and makes at most one. -/
theorem line_worker (hroom : Roomy cfg s) (hdepth : 1 ≤ cfg.maxDepth) (hqueue : s.queue = fps.map (payload py))
    (f : Frame) :
    ∃ (out fps' : List FramePointer), (step py cfg s (.worker f)).1.queue = fps'.map (payload py) ∧
      fps.reverse ++ s.worker.pending ++ makes cfg s f =
        out ++ fps'.reverse ++ (step py cfg s (.worker f)).1.worker.pending ∧
      (step py cfg s (.worker f)).1.frameSeq = s.frameSeq + (makes cfg s f).length := by
  have hlen := hroom.length
  cases hw : s.worker with
  | frame =>
    simp only [step, makes, hw]
    refine ⟨[], fps, hqueue, ?_, rfl⟩
    split <;> simp [WorkerAt.pending]
  | full fp =>
    simp only [step, makes, hw]
    rw [hqueue]
    rcases rpop_map py fps with ⟨rfl, hpop⟩ | ⟨rest, old, rfl, hpop⟩ <;> rw [hpop]
    · exact ⟨[], [], rfl, by simp [WorkerAt.pending], by simp⟩
    · exact ⟨[old], rest, rfl, by simp [WorkerAt.pending], by simp⟩
  | push fp =>
    simp only [step, makes, hw]
    refine ⟨[], fp :: fps, by rw [hqueue, List.map_cons], ?_, by simp⟩
    simp [WorkerAt.pending]
  | trim =>
    simp only [step, makes, hw]
    rw [ltrim_of_le (by omega) (by omega)]
    exact ⟨[], fps, hqueue, by simp [WorkerAt.pending], by simp⟩
  | count =>
    simp only [step, makes, hw]
    exact ⟨[], fps, hqueue, by simp [WorkerAt.pending], by simp⟩

/-- A command of the inference worker takes the oldest pointer, or none. -/
theorem line_inference (hroom : Roomy cfg s) (hqueue : s.queue = fps.map (payload py)) :
    ∃ (new : Option FramePointer) (fps' : List FramePointer),
      (step py cfg s .inference).1.queue = fps'.map (payload py) ∧ fps.reverse = new.toList ++ fps'.reverse ∧
      (step py cfg s .inference).2.obtained.bind (readPointer py) = new ∧
      (step py cfg s .inference).1.worker = s.worker ∧ (step py cfg s .inference).1.frameSeq = s.frameSeq := by
  cases hi : s.inference with
  | depth =>
    simp only [step, hi]
    exact ⟨none, fps, hqueue, rfl, rfl, trivial, trivial⟩
  | drain left => exact absurd hi (hroom.drain left)
  | pop =>
    simp only [step, hi]
    rw [hqueue]
    rcases rpop_map py fps with ⟨rfl, hpop⟩ | ⟨rest, old, rfl, hpop⟩ <;> rw [hpop]
    · exact ⟨none, [], rfl, rfl, rfl, trivial, trivial⟩
    · refine ⟨some old, rest, rfl, by simp, ?_, trivial, trivial⟩
      rw [obtained_payload, Option.bind_some, readPointer_payload]

end

/-! ## Pointers and writes -/

section
variable {lim : Limits} {ws : List (Shm.Issued F)} {made : List FramePointer}

/-- The `k`-th pointer is numbered `k + 1` and is what the `k`-th write returned. -/
def Made (lim : Limits) (ws : List (Shm.Issued F)) (made : List FramePointer) : Prop :=
  ∀ (k : Nat) fp, made[k]? = some fp → fp.frameSeq = k + 1 ∧ ∃ w, ws[k]? = some w ∧ shmPointer lim fp = w.pointer

theorem shmPointer_pointer (lim : Limits) (cfg : Config) (seq : Int) {p : Shm.Pointer} (now : ℚ)
    (hp : p.slotIndex % lim.numSlots = p.slotIndex) :
    shmPointer lim (pointer cfg seq ⟨p.slotIndex, p.generation, now⟩) = p := by
  have hslot : ((p.slotIndex : Int) % lim.numSlots).toNat = p.slotIndex := by
    rw [← Int.natCast_mod, Int.toNat_natCast]
    exact hp
  rw [shmPointer]
  dsimp only [pointer]
  rw [hslot]

/-- One more write leaves the pointers as they are. -/
theorem Made.write (h : Made lim ws made) (w : Shm.Issued F) : Made lim (ws ++ [w]) made := by
  intro k fp hk
  obtain ⟨hseq, w', hw', hfp⟩ := h k fp hk
  refine ⟨hseq, w', ?_, hfp⟩
  rw [List.getElem?_append_left (List.getElem?_eq_some_iff.1 hw').1]
  exact hw'

theorem Made.concat (h : Made lim ws made) {w : Shm.Issued F} {fp : FramePointer} (hw : ws[made.length]? = some w)
    (hseq : fp.frameSeq = made.length + 1) (hfp : shmPointer lim fp = w.pointer) : Made lim ws (made ++ [fp]) := by
  intro k fp' hk
  rcases Nat.lt_or_ge k made.length with hlt | hge
  · rw [List.getElem?_append_left hlt] at hk
    exact h k fp' hk
  · rw [List.getElem?_append_right hge, List.getElem?_singleton] at hk
    obtain ⟨hzero, hsame⟩ := Option.ite_none_right_eq_some.1 hk
    obtain rfl := Option.some.inj hsame
    have hlast : k = made.length := by omega
    subst hlast
    exact ⟨hseq, w, hw, hfp⟩

/-- Pointers stand in the order of their numbers. -/
theorem Made.ordered (h : Made lim ws made) : made.Pairwise (·.frameSeq < ·.frameSeq) := by
  rw [List.pairwise_iff_getElem]
  intro j k hj hk hjk
  have hseqj := (h j _ (List.getElem?_eq_getElem hj)).1
  have hseqk := (h k _ (List.getElem?_eq_getElem hk)).1
  omega

end

/-! ## Runs -/

section
variable {py : PyJson} {cfg : Config} {lim : Limits} {c : Chain F} {es : List (Happened F)}
  {ws : List (Shm.Issued F)} {gone fps : List FramePointer}

/-- After `es`: `ws` are the writes, the pointers in `gone` have left the queue, and
those in `fps` are in it, the newest first. -/
structure Linked (py : PyJson) (cfg : Config) (lim : Limits) (es : List (Happened F)) (c : Chain F)
    (ws : List (Shm.Issued F)) (gone fps : List FramePointer) : Prop where
  roomy : Roomy cfg c.redis
  queue : c.redis.queue = fps.map (payload py)
  ring : Shm.Underway lim.numSlots c.memory c.writing ws
  returned : c.redis.worker ≠ .frame → c.writing = .idle
  frames : ws.map (·.frame) = written es
  begun : begun es = written es ++ (c.writing.busy.map (·.2)).toList
  stamped : (line c.redis gone fps).map (·.timestamp) = stamps es
  made : Made lim ws (line c.redis gone fps)
  length : (line c.redis gone fps).length + c.writing.unreturned = ws.length
  seq : c.redis.frameSeq = (line c.redis gone fps).length
  taken : (popped es).Sublist gone

theorem linked_init (ring : Nat → F) (hdepth : 1 ≤ cfg.maxDepth) :
    Linked py cfg lim [] (Chain.init ring) [] [] [] where
  roomy := roomy_after py hdepth []
  queue := rfl
  ring := .init ring
  returned _ := rfl
  frames := rfl
  begun := rfl
  stamped := rfl
  made k fp hk := by simp [line, Chain.init, State.init, WorkerAt.pending] at hk
  length := rfl
  seq := rfl
  taken := .slnil

/-- A turn of the reader that leaves the queue alone. -/
theorem Linked.read (h : Linked py cfg lim es c ws gone fps) {e : Happened F} (hbegan : e.began? = none)
    (hwrote : e.wrote? = none) (hstamp : e.stamp? = none) (hpopped : e.popped? = none) (reading : Reading F)
    (procTimes : List ℚ) : Linked py cfg lim (es ++ [e]) { c with reading, procTimes } ws gone fps where
  roomy := h.roomy
  queue := h.queue
  ring := h.ring
  returned := h.returned
  frames := by rw [h.frames, written_concat, hwrote, Option.toList_none, List.append_nil]
  begun := by
    rw [begun_concat, written_concat, hbegan, hwrote, Option.toList_none, List.append_nil, List.append_nil, h.begun]
  stamped := by rw [stamps_concat, hstamp, Option.toList_none, List.append_nil]; exact h.stamped
  made := h.made
  length := h.length
  seq := h.seq
  taken := by rw [popped_concat, hpopped, Option.toList_none, List.append_nil]; exact h.taken

/-- A step of `write`: the queue stays as it is. -/
theorem Linked.write (h : Linked py cfg lim es c ws gone fps) (hworker : c.redis.worker = .frame) {e : Happened F}
    (hstamp : e.stamp? = none) (hpopped : e.popped? = none) {memory : Shm.Memory F} {writing : Shm.Writing F}
    {ws' : List (Shm.Issued F)} (hring : Shm.Underway lim.numSlots memory writing ws')
    (hframes : ws'.map (·.frame) = written (es ++ [e]))
    (hbegun : Ingest.begun (es ++ [e]) = written (es ++ [e]) ++ (writing.busy.map (·.2)).toList)
    (hmade : Made lim ws' (line c.redis gone fps))
    (hlength : (line c.redis gone fps).length + writing.unreturned = ws'.length) :
    Linked py cfg lim (es ++ [e]) { c with memory, writing } ws' gone fps where
  roomy := h.roomy
  queue := h.queue
  ring := hring
  returned hne := absurd hworker hne
  frames := hframes
  begun := hbegun
  stamped := by rw [stamps_concat, hstamp, Option.toList_none, List.append_nil]; exact h.stamped
  made := hmade
  length := hlength
  seq := h.seq
  taken := by rw [popped_concat, hpopped, Option.toList_none, List.append_nil]; exact h.taken

/-- The line after a command of the worker, with what it makes. -/
theorem Linked.line_worker (h : Linked py cfg lim es c ws gone fps) (hdepth : 1 ≤ cfg.maxDepth) (f : Frame) :
    ∃ out fps', (Ingest.step py cfg c.redis (.worker f)).1.queue = fps'.map (payload py) ∧
      line (Ingest.step py cfg c.redis (.worker f)).1 (gone ++ out) fps' =
        line c.redis gone fps ++ makes cfg c.redis f ∧
      (Ingest.step py cfg c.redis (.worker f)).1.frameSeq =
        (line (Ingest.step py cfg c.redis (.worker f)).1 (gone ++ out) fps').length := by
  obtain ⟨out, fps', hqueue, hmoved, hseq⟩ := Ingest.line_worker h.roomy hdepth h.queue f
  have hline : line (Ingest.step py cfg c.redis (.worker f)).1 (gone ++ out) fps' =
      line c.redis gone fps ++ makes cfg c.redis f := by
    rw [line, line, List.append_assoc, List.append_assoc, ← List.append_assoc out, ← hmoved]
    simp only [List.append_assoc]
  refine ⟨out, fps', hqueue, hline, ?_⟩
  rw [hline, hseq, h.seq, List.length_append, Nat.cast_add]

/-- A command of the worker moves on to the next. -/
theorem Linked.command (h : Linked py cfg lim es c ws gone fps) (hdepth : 1 ≤ cfg.maxDepth)
    (hworker : c.redis.worker ≠ .frame) (now : ℚ) :
    ∃ gone' fps', Linked py cfg lim (es ++ [.nothing])
      { c with redis := (Ingest.step py cfg c.redis (.worker ⟨0, 0, now⟩)).1 } ws gone' fps' := by
  obtain ⟨out, fps', hqueue, hline, hseq⟩ := h.line_worker hdepth ⟨0, 0, now⟩
  have hidle := h.returned hworker
  have hmakes : makes cfg c.redis ⟨0, 0, now⟩ = [] := by
    rw [makes]
    split
    · contradiction
    · rfl
  rw [hmakes, List.append_nil] at hline
  refine ⟨gone ++ out, fps', roomy_step hdepth h.roomy _, hqueue, h.ring, fun _ => hidle, ?_, ?_, ?_, ?_, ?_, hseq, ?_⟩
  · rw [h.frames, written_concat]
    exact (List.append_nil _).symm
  · rw [begun_concat, written_concat, h.begun]
    simp [Happened.began?, Happened.wrote?]
  · rw [hline, h.stamped, stamps_concat]
    exact (List.append_nil _).symm
  · rw [hline]
    exact h.made
  · rw [hline]
    exact h.length
  · rw [popped_concat]
    exact (List.append_nil _).symm ▸ h.taken.trans (List.sublist_append_left gone out)

/-- `write` returned the pointer `p`, and its frame pointer is made. -/
theorem Linked.make (h : Linked py cfg lim es c ws gone fps) (hdepth : 1 ≤ cfg.maxDepth)
    (hworker : c.redis.worker = .frame) {p : Shm.Pointer} (hwriting : c.writing = .wrote p) (now : ℚ) :
    ∃ gone' fps', Linked py cfg lim (es ++ [.stamped now])
      { c with
        writing := .idle
        redis := (Ingest.step py cfg c.redis (.worker ⟨p.slotIndex, p.generation, now⟩)).1 } ws gone' fps' := by
  obtain ⟨out, fps', hqueue, hline, hseq⟩ := h.line_worker hdepth ⟨p.slotIndex, p.generation, now⟩
  have hmakes : makes cfg c.redis ⟨p.slotIndex, p.generation, now⟩ =
      [pointer cfg (c.redis.frameSeq + 1) ⟨p.slotIndex, p.generation, now⟩] := by
    rw [makes, hworker]
  rw [hmakes] at hline
  have hring := h.ring
  have hlength := h.length
  have hbegun := h.begun
  rw [hwriting] at hring hlength hbegun
  obtain ⟨w, hw, hp⟩ := hring.last p rfl
  have hlast : ws[(line c.redis gone fps).length]? = some w := by
    have hlen : (line c.redis gone fps).length = ws.length - 1 := by
      rw [← hlength]
      rfl
    rw [hlen, ← List.getLast?_eq_getElem?]
    exact hw
  have hslot : p.slotIndex % lim.numSlots = p.slotIndex := by
    rw [← hp]
    exact hring.recorded.inRange w (List.mem_of_getLast? hw)
  refine ⟨gone ++ out, fps', roomy_step hdepth h.roomy _, hqueue, hring.finish, fun _ => rfl, ?_, ?_, ?_, ?_, ?_,
    hseq, ?_⟩
  · rw [h.frames, written_concat]
    exact (List.append_nil _).symm
  · rw [begun_concat, written_concat, hbegun]
    simp [Happened.began?, Happened.wrote?, Shm.Writing.busy]
  · rw [hline, List.map_append, h.stamped, stamps_concat]
    rfl
  · rw [hline]
    refine h.made.concat hlast ?_ ?_
    · rw [← h.seq]
      rfl
    · rw [hp]
      exact shmPointer_pointer lim cfg _ now hslot
  · rw [hline, List.length_append]
    exact hlength
  · rw [popped_concat]
    exact (List.append_nil _).symm ▸ h.taken.trans (List.sublist_append_left gone out)

/-- The reader's turn at the queue. -/
theorem Linked.take (h : Linked py cfg lim es c ws gone fps) (hdepth : 1 ≤ cfg.maxDepth) {e : Happened F}
    (hbegan : e.began? = none) (hwrote : e.wrote? = none) (hstamp : e.stamp? = none)
    (hpopped : (Ingest.step py cfg c.redis .inference).2.obtained.bind (readPointer py) = e.popped?)
    (reading : Reading F) :
    ∃ gone' fps', Linked py cfg lim (es ++ [e])
      { c with redis := (Ingest.step py cfg c.redis .inference).1, reading } ws gone' fps' := by
  obtain ⟨new, fps', hqueue, hmoved, hnew, hworker, hseq⟩ := line_inference h.roomy h.queue
  have hline : line (Ingest.step py cfg c.redis .inference).1 (gone ++ new.toList) fps' = line c.redis gone fps := by
    rw [line, line, hmoved, hworker, List.append_assoc gone]
  refine ⟨gone ++ new.toList, fps', roomy_step hdepth h.roomy .inference, hqueue, h.ring, ?_, ?_, ?_, ?_, ?_, ?_, ?_,
    ?_⟩
  · intro hne
    exact h.returned (hworker ▸ hne)
  · rw [h.frames, written_concat, hwrote, Option.toList_none, List.append_nil]
  · rw [begun_concat, written_concat, hbegan, hwrote, Option.toList_none, List.append_nil, List.append_nil, h.begun]
  · rw [hline, h.stamped, stamps_concat, hstamp, Option.toList_none, List.append_nil]
  · rw [hline]
    exact h.made
  · rw [hline]
    exact h.length
  · rw [hline, hseq, h.seq]
  · rw [popped_concat, ← hpopped, hnew]
    exact h.taken.append (.refl new.toList)

theorem linked_step (h : Linked py cfg lim es c ws gone fps) (hdepth : 1 ≤ cfg.maxDepth) (turn : Turn F) :
    ∃ ws' gone' fps', Linked py cfg lim (es ++ [(Chain.step py cfg lim c turn).2]) (Chain.step py cfg lim c turn).1
      ws' gone' fps' := by
  have hmoves := Chain.step_moves py cfg lim c turn
  generalize Chain.step py cfg lim c turn = next at hmoves
  have hring := h.ring
  have hbegun := h.begun
  have hlength := h.length
  cases hmoves with
  | @copyFrame frame now hworker hwriting =>
    rw [hwriting] at hring hbegun hlength
    refine ⟨ws, gone, fps, h.write hworker rfl rfl (hring.copyFrame frame) ?_ ?_ h.made hlength⟩
    · rw [h.frames, written_concat]
      exact (List.append_nil _).symm
    · rw [begun_concat, written_concat, hbegun]
      simp [Happened.began?, Happened.wrote?, Shm.Writing.busy]
  | bumpIdx hworker hwriting =>
    rw [hwriting] at hring hbegun hlength
    refine ⟨ws, gone, fps, h.write hworker rfl rfl hring.bumpIdx ?_ ?_ h.made hlength⟩
    · rw [h.frames, written_concat]
      exact (List.append_nil _).symm
    · rw [begun_concat, written_concat, hbegun]
      simp [Happened.began?, Happened.wrote?, Shm.Writing.busy]
  | bumpGen hworker hwriting =>
    rw [hwriting] at hring hbegun hlength
    refine ⟨_, gone, fps, h.write hworker rfl rfl hring.bumpGen ?_ ?_ (h.made.write _) ?_⟩
    · rw [List.map_append, h.frames, written_concat]
      rfl
    · rw [begun_concat, written_concat, hbegun]
      simp [Happened.began?, Happened.wrote?, Shm.Writing.busy]
    · rw [List.length_append, ← hlength]
      rfl
  | make hworker hwriting => exact ⟨ws, h.make hdepth hworker hwriting _⟩
  | command hworker => exact ⟨ws, h.command hdepth hworker _⟩
  | @pop t fp hreading hfp => exact ⟨ws, h.take (e := .popped fp) hdepth rfl rfl rfl hfp (.popped fp)⟩
  | wait hreading hfp => exact ⟨ws, h.take (e := .nothing) hdepth rfl rfl rfl hfp c.reading⟩
  | refuse | pass | notFound | stale | check | copyOut | overwritten | process =>
    exact ⟨ws, gone, fps, h.read rfl rfl rfl rfl _ _⟩

variable (py cfg lim) in
theorem happened_concat (ring : Nat → F) (turns : List (Turn F)) (turn : Turn F) :
    Chain.happened py cfg lim ring (turns ++ [turn]) = Chain.happened py cfg lim ring turns ++
      [(Chain.step py cfg lim (Chain.after py cfg lim ring turns) turn).2] := by
  rw [Chain.happened, Mealy.outs_append]
  rfl

variable (py cfg lim) in
theorem chain_concat (ring : Nat → F) (turns : List (Turn F)) (turn : Turn F) :
    Chain.after py cfg lim ring (turns ++ [turn]) =
      (Chain.step py cfg lim (Chain.after py cfg lim ring turns) turn).1 := Mealy.after_concat ..

variable (py cfg lim) in
theorem happened_append (ring : Nat → F) (pre post : List (Turn F)) :
    Chain.happened py cfg lim ring (pre ++ post) = Chain.happened py cfg lim ring pre ++
      Mealy.outs (Chain.step py cfg lim) (Chain.after py cfg lim ring pre) post := Mealy.outs_append ..

variable (py cfg lim) in
theorem linked_after (ring : Nat → F) (hdepth : 1 ≤ cfg.maxDepth) (turns : List (Turn F)) :
    ∃ ws gone fps, Linked py cfg lim (Chain.happened py cfg lim ring turns) (Chain.after py cfg lim ring turns)
      ws gone fps := by
  induction turns using List.reverseRecOn with
  | nil => exact ⟨[], [], [], linked_init ring hdepth⟩
  | append_singleton turns turn ih =>
    obtain ⟨ws, gone, fps, h⟩ := ih
    rw [happened_concat, chain_concat]
    exact linked_step h hdepth turn

theorem Linked.length_written (h : Linked py cfg lim es c ws gone fps) : (written es).length = ws.length := by
  rw [← h.frames, List.length_map]

/-- At most one write is begun and not finished. -/
theorem Linked.length_begun (h : Linked py cfg lim es c ws gone fps) :
    (Ingest.begun es).length = ws.length + (c.writing.busy.map (·.2)).toList.length := by
  rw [h.begun, List.length_append, h.length_written]

end

end Ingest

end Netra
