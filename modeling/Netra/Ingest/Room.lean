import Netra.Ingest.InHand
import Netra.Ingest.Source
import Mathlib.Tactic.Linarith
/-!
# How large the ring has to be

A frame is lost in the ring when its slot is written again before it is read.
Reading at once prevents this just when the ring has more slots than the queue has
room (`never_stale_iff`), which the default settings do not give it. What prevents
it there is the age limit, as long as the source keeps its pace
(`paced_never_overwritten`).
-/
namespace Netra

open PyLib Wire

namespace Ingest

variable {F : Type}

section
variable {py : PyJson} {cfg : Config} {lim : Limits} {c : Chain F} {es : List (Happened F)}
  {ws : List (Shm.Issued F)} {gone fps : List FramePointer}

/-- No frame was lost in the ring, and none was mixed up with a later one. -/
structure NeverOverwritten (py : PyJson) (cfg : Config) (lim : Limits) (ring : Nat → F) (turns : List (Turn F)) :
    Prop where
  kept : ∀ fp, .dropped fp .staleShm ∉ Chain.happened py cfg lim ring turns
  own : ∀ (fp : FramePointer) (frame : F), .processed fp frame ∈ Chain.happened py cfg lim ring turns →
    ∃ k : Nat, fp.frameSeq = k + 1 ∧ (begun (Chain.happened py cfg lim ring turns))[k]? = some frame

/-- A frame is safe as long as the write `num_slots` later has not begun by a check. -/
theorem never_overwritten (hdepth : 1 ≤ cfg.maxDepth) (hn : 1 ≤ lim.numSlots) (ring : Nat → F) {turns : List (Turn F)}
    (hlt : (written (Chain.happened py cfg lim ring turns)).length < 2 ^ 63)
    (hfew : ∀ pre t post fp, turns = pre ++ .inference t :: post → Checks (Chain.after py cfg lim ring pre) fp t →
      (begun (Chain.happened py cfg lim ring pre)).length < fp.frameSeq + lim.numSlots) :
    NeverOverwritten py cfg lim ring turns := by
  constructor
  · intro fp hmem
    obtain ⟨pre, turn, post, rfl, he⟩ := (Mealy.mem_outs _ _ _ _).1 hmem
    rw [← Chain.after] at he
    obtain ⟨t, rfl⟩ := inference_of_judged (congrArg Happened.judged? he.symm)
    obtain ⟨hchecks, hold⟩ := (stale_iff py cfg lim _ t fp).1 he.symm
    have hpre := Nat.lt_of_le_of_lt (length_written_le py cfg lim ring pre _) hlt
    rw [current_in_hand hdepth hn ring hpre hchecks.pointer, not_lt] at hold
    have hsafe := hfew pre t post fp rfl hchecks
    obtain ⟨ws, gone, fps, h⟩ := linked_after py cfg lim ring hdepth pre
    have hbegun := h.length_begun
    have hwritten := h.length_written
    omega
  · intro fp frame hmem
    obtain ⟨pre, turn, post, rfl, he⟩ := (Mealy.mem_outs _ _ _ _).1 hmem
    rw [← Chain.after] at he
    obtain ⟨t, rfl⟩ := inference_of_judged (congrArg Happened.judged? he.symm)
    have hpre := Nat.lt_of_le_of_lt (length_written_le py cfg lim ring pre _) hlt
    obtain ⟨hreading, -⟩ := of_processed he.symm
    obtain ⟨k, hseq, hown | ⟨hlast, hlater⟩⟩ := processed_frame hdepth hn ring hpre he.symm
    · refine ⟨k, hseq, ?_⟩
      rw [happened_append]
      exact getElem?_extend (begun_grows _ _) hown
    · have hsafe := hfew pre t post fp rfl (.inr ⟨frame, hreading⟩)
      rw [hlater, List.length_append, List.length_singleton] at hsafe
      omega

/-! ## Reading at once -/

/-- No frame is copied into the ring between the pop of a pointer and the end of its
read. -/
def Prompt (py : PyJson) (cfg : Config) (lim : Limits) (ring : Nat → F) (turns : List (Turn F)) : Prop :=
  ∀ pre turn post frame, turns = pre ++ turn :: post →
    (Chain.step py cfg lim (Chain.after py cfg lim ring pre) turn).2 = .began frame →
    (Chain.after py cfg lim ring pre).reading = .idle

theorem Prompt.of_append {ring : Nat → F} {pre post : List (Turn F)} (h : Prompt py cfg lim ring (pre ++ post)) :
    Prompt py cfg lim ring pre := by
  rintro pre' turn post' frame rfl
  exact h pre' turn (post' ++ post) frame (by simp)

theorem length_pending (w : WorkerAt) : w.pending.length ≤ 1 := by
  cases w <;> simp [WorkerAt.pending]

/-- Of the frames begun, at most one has no pointer in the queue yet. -/
theorem Linked.length_pending (h : Linked py cfg lim es c ws gone fps) :
    (Ingest.begun es).length ≤ gone.length + c.redis.queue.length + 1 := by
  have hbegun := h.length_begun
  have hlength := h.length
  rw [line, List.length_append, List.length_append, List.length_reverse] at hlength
  rw [h.queue, List.length_map]
  by_cases hworker : c.redis.worker = .frame
  · rw [hworker] at hlength
    cases hwriting : c.writing <;> rw [hwriting] at hbegun hlength <;>
      simp only [Shm.Writing.busy, Shm.Writing.unreturned, WorkerAt.pending, Option.map_some, Option.map_none,
        Option.toList_some, Option.toList_none, List.length_nil, List.length_singleton] at hbegun hlength <;> omega
  · have hidle := h.returned hworker
    have hpending := Ingest.length_pending c.redis.worker
    rw [hidle] at hbegun hlength
    simp only [Shm.Writing.busy, Shm.Writing.unreturned, Option.map_none, Option.toList_none, List.length_nil]
      at hbegun hlength
    omega

/-- When a pointer is popped, the frames begun after its own have theirs in the queue,
but for one. -/
theorem Linked.popped (h : Linked py cfg lim es c ws gone fps) {fp : FramePointer}
    (hfp : (Ingest.step py cfg c.redis .inference).2.obtained.bind (readPointer py) = some fp) :
    (Ingest.begun es).length ≤ fp.frameSeq + cfg.maxDepth := by
  obtain ⟨new, fps', -, hline, hnew, -, -⟩ := line_inference h.roomy h.queue
  obtain rfl : new = some fp := hnew.symm.trans hfp
  have hmade := h.made
  rw [line, hline] at hmade
  have hseq := (hmade gone.length fp (by simp)).1
  have hbegun := h.length_pending
  have hroom := h.roomy.length
  omega

/-- In a prompt run, at most `max_depth` frames are begun after one that is being read. -/
theorem near_after (ring : Nat → F) (hdepth : 1 ≤ cfg.maxDepth) (turns : List (Turn F))
    (hprompt : Prompt py cfg lim ring turns) {fp : FramePointer}
    (hfp : (Chain.after py cfg lim ring turns).reading.pointer = some fp) :
    (begun (Chain.happened py cfg lim ring turns)).length ≤ fp.frameSeq + cfg.maxDepth := by
  induction turns using List.reverseRecOn with
  | nil => cases hfp
  | append_singleton turns turn ih =>
    rw [chain_concat] at hfp
    rw [happened_concat, begun_concat, List.length_append]
    have hnear := ih hprompt.of_append
    have hbegan (frame : F) := hprompt turns turn [] frame rfl
    have hmoves := Chain.step_moves py cfg lim (Chain.after py cfg lim ring turns) turn
    generalize Chain.step py cfg lim (Chain.after py cfg lim ring turns) turn = next at hmoves hfp hbegan
    cases hmoves with
    | @copyFrame frame =>
      have hidle := hbegan frame rfl
      have hfp' : (Chain.after py cfg lim ring turns).reading.pointer = some fp := hfp
      rw [hidle] at hfp'
      cases hfp'
    | bumpIdx | bumpGen | make | command => exact hnear hfp
    | pop hreading hpopped =>
      cases hfp
      obtain ⟨ws, gone, fps, h⟩ := linked_after py cfg lim ring hdepth turns
      exact h.popped hpopped
    | wait => exact hnear hfp
    | refuse | notFound | stale | overwritten | process => cases hfp
    | pass hreading | check hreading | copyOut hreading =>
      rw [hreading] at hnear
      exact hnear hfp

/-- `k` frames, each of them pushed before the next is read. -/
def rounds (frame : F) (k : Nat) : List (Turn F) := List.replicate (7 * k) (.worker frame 0)

/-- `k` pointers are queued, and both sides are at their first command. -/
structure Queued (c : Chain F) (k : Nat) : Prop where
  worker : c.redis.worker = .frame
  writing : c.writing = .idle
  inference : c.redis.inference = .depth
  reading : c.reading = .idle
  length : c.redis.queue.length = k
  seq : c.redis.frameSeq = k

theorem queued_round {k : Nat} (h : Queued c k) (hk : k < cfg.maxDepth) (frame : F) :
    Queued (Mealy.after (Chain.step py cfg lim) c (round frame 0)) (k + 1) := by
  obtain ⟨⟨queue, frameSeq, worker, inference⟩, memory, writing, reading, procTimes⟩ := c
  obtain ⟨rfl, rfl, rfl, rfl, hlen, rfl⟩ := h
  have hroom : queue.length < cfg.maxDepth := hlen ▸ hk
  rw [(after_round py cfg lim frame 0 hroom rfl).1]
  exact ⟨rfl, rfl, rfl, rfl, congrArg (· + 1) hlen, rfl⟩

variable (py cfg lim) in
theorem queued_rounds (ring : Nat → F) (frame : F) {k : Nat} (hk : k ≤ cfg.maxDepth) :
    Queued (Chain.after py cfg lim ring (rounds frame k)) k := by
  induction k with
  | zero => exact ⟨rfl, rfl, rfl, rfl, rfl, rfl⟩
  | succ k ih =>
    rw [rounds, Nat.mul_succ, List.replicate_add, Chain.after, Mealy.after_append]
    exact queued_round (ih (by omega)) (by omega) frame

/-- One more write is finished, and its pointer not made yet. -/
def overtake (frame : F) : List (Turn F) := List.replicate 3 (.worker frame 0)

variable (py cfg lim) in
theorem queued_overtake {k : Nat} (h : Queued c k) (frame : F) :
    ∃ m p, Mealy.after (Chain.step py cfg lim) c (overtake frame) =
      ⟨⟨c.redis.queue, k, .frame, .depth⟩, m, .wrote p, .idle, c.procTimes⟩ := by
  obtain ⟨⟨queue, frameSeq, worker, inference⟩, memory, writing, reading, procTimes⟩ := c
  obtain ⟨rfl, rfl, rfl, rfl, -, rfl⟩ := h
  exact ⟨_, _, rfl⟩

/-- The run that loses a frame in a ring of `n` slots: `n` pointers are queued, and the
frame after them is written before the first is read. -/
def overrun (lim : Limits) (frame : F) (t : Tick) : List (Turn F) :=
  rounds frame lim.numSlots ++ overtake frame ++ visit 4 t

variable (py) in
theorem overrun_loses (ring : Nat → F) (frame : F) (hn : 1 ≤ lim.numSlots) (hnlt : lim.numSlots + 1 < 2 ^ 63)
    (hdepth : lim.numSlots ≤ cfg.maxDepth) :
    ∃ t, (written (Chain.happened py cfg lim ring (overrun lim frame t))).length < 2 ^ 63 ∧
      ∃ fp, .dropped fp .staleShm ∈ Chain.happened py cfg lim ring (overrun lim frame t) := by
  have hq := queued_rounds py cfg lim ring frame hdepth
  obtain ⟨ws, gone, fps, h⟩ :=
    linked_after py cfg lim ring (by omega) (rounds frame lim.numSlots ++ overtake frame)
  obtain ⟨m, p, hafter⟩ := queued_overtake py cfg lim hq frame
  rw [Chain.after, ← Mealy.after_append, ← Chain.after, ← Chain.after] at hafter
  have hqueue := h.queue
  have hlen := hq.length
  have hring := h.ring
  have hlength := h.length
  have hseq := h.seq
  have hmade := h.made
  rw [hafter] at hqueue hring hlength hseq hmade
  simp only [line, WorkerAt.pending, List.append_nil, List.length_append, List.length_reverse, Shm.Writing.unreturned]
    at hqueue hlength hseq hmade
  rw [hqueue, List.length_map] at hlen
  -- the first pointer is still in the queue, and `num_slots` later writes are finished
  obtain rfl : gone = [] := List.length_eq_zero_iff.1 (by omega)
  rcases List.eq_nil_or_concat' fps with rfl | ⟨fps', fp, rfl⟩
  · rw [List.length_nil] at hlen
    omega
  rw [List.length_append, List.length_singleton] at hlen
  rw [List.length_nil, List.length_append, List.length_singleton] at hlength
  obtain ⟨-, w, hw, hpointer⟩ := hmade 0 fp (by simp)
  have hwritten := h.length_written
  have hold : ¬ Shm.RingBufferReader.current lim.numSlots m.gen (shmPointer lim fp) := by
    rw [hpointer, hring.current_iff hn (by omega) hw]
    omega
  let t : Tick := ⟨fp.timestamp + lim.maxFrameAgeMs / 1000, 1 / 2, true, 0⟩
  have hadmits : Admits lim (Chain.after py cfg lim ring (rounds frame lim.numSlots)).procTimes fp t := by
    refine ⟨?_, fun hslow => absurd hslow.2 (lt_irrefl _), rfl⟩
    rw [add_sub_cancel_left, div_mul_cancel₀ _ (by decide)]
  have hfacing : Chain.after py cfg lim ring (rounds frame lim.numSlots ++ overtake frame) =
      .facing py (fps' ++ [fp]) lim.numSlots .frame m (.wrote p)
        (Chain.after py cfg lim ring (rounds frame lim.numSlots)).procTimes := by
    rw [hafter, hqueue]
    rfl
  have happened : Chain.happened py cfg lim ring (overrun lim frame t) =
      Chain.happened py cfg lim ring (rounds frame lim.numSlots ++ overtake frame) ++
        [.nothing, .popped fp, .admitted fp t.now, .dropped fp .staleShm] := by
    rw [overrun, happened_append, hfacing]
    exact congrArg _ (visit_stale py cfg (q := fps' ++ [fp]) rfl (by omega) hadmits rfl hold).2
  refine ⟨t, ?_, fp, ?_⟩
  · rw [happened, written, List.filterMap_append, List.length_append]
    exact lt_of_eq_of_lt hwritten (by omega)
  · rw [happened]
    simp

/-- While only the camera worker runs, no pointer is popped. -/
theorem reading_workers (ring : Nat → F) {turns : List (Turn F)}
    (hall : ∀ x ∈ turns, ∃ frame now, x = .worker frame now) :
    (Chain.after py cfg lim ring turns).reading = .idle := by
  induction turns using List.reverseRecOn with
  | nil => rfl
  | append_singleton turns turn ih =>
    obtain ⟨frame, now, rfl⟩ := hall turn (by simp)
    have hidle := ih fun x hx => hall x (List.mem_append_left _ hx)
    rw [chain_concat]
    have hmoves := Chain.step_moves py cfg lim (Chain.after py cfg lim ring turns) (.worker frame now)
    generalize Chain.step py cfg lim (Chain.after py cfg lim ring turns) (.worker frame now) = next at hmoves
    cases hmoves <;> exact hidle

theorem prompt_of_workers_first (ring : Nat → F) {workers others : List (Turn F)}
    (hworkers : ∀ x ∈ workers, ∃ frame now, x = .worker frame now) (hothers : ∀ x ∈ others, ∃ t, x = .inference t) :
    Prompt py cfg lim ring (workers ++ others) := by
  intro pre turn post frame he hbegan
  rcases List.append_eq_append_iff.1 he with ⟨mid, rfl, hmid⟩ | ⟨mid, rfl, -⟩
  · obtain ⟨t, rfl⟩ := hothers turn (hmid ▸ by simp)
    have hmoves := Chain.step_moves py cfg lim (Chain.after py cfg lim ring (workers ++ mid)) (.inference t)
    generalize Chain.step py cfg lim (Chain.after py cfg lim ring (workers ++ mid)) (.inference t) = next
      at hmoves hbegan
    cases hmoves <;> cases hbegan
  · exact reading_workers ring fun x hx => hworkers x (List.mem_append_left _ hx)

/-- Reading at once is enough, whatever both sides do, just when the ring has more slots
than the queue has room. -/
theorem never_stale_iff (py : PyJson) (cfg : Config) (lim : Limits) (hdepth : 1 ≤ cfg.maxDepth)
    (hn : 1 ≤ lim.numSlots) (hnlt : lim.numSlots + 1 < 2 ^ 63) (ring : Nat → F) :
    (∀ turns, (written (Chain.happened py cfg lim ring turns)).length < 2 ^ 63 → Prompt py cfg lim ring turns →
        NeverOverwritten py cfg lim ring turns) ↔
      cfg.maxDepth < lim.numSlots := by
  constructor
  · intro hnever
    by_contra hsmall
    obtain ⟨t, hlt, fp, hlost⟩ := overrun_loses py ring (ring 0) hn hnlt (not_lt.1 hsmall)
    have hprompt : Prompt py cfg lim ring (overrun lim (ring 0) t) := by
      refine prompt_of_workers_first ring ?_ fun x hx => ⟨t, (List.mem_replicate.1 hx).2⟩
      intro x hx
      rcases List.mem_append.1 hx with hx | hx
      · exact ⟨_, _, (List.mem_replicate.1 hx).2⟩
      · exact ⟨_, _, (List.mem_replicate.1 hx).2⟩
    exact (hnever _ hlt hprompt).kept fp hlost
  · intro hlarge turns hlt hprompt
    refine never_overwritten hdepth hn ring hlt ?_
    rintro pre t post fp rfl hchecks
    have hnear := near_after ring hdepth pre hprompt.of_append hchecks.pointer
    omega

/-- Four frames, the fourth not finished, and three pointers. -/
def inTime : List (Turn Nat) := fourFrames ++ (visit 6 soon ++ visit 6 soon ++ visit 6 soon)

/-- In a ring of eight slots each of the three pointers gets its own picture. -/
theorem happened_inTime (py : PyJson) {depth : Int} (hdepth : 3 ≤ depth) :
    Chain.happened py (camera depth) (slots 8) (fun _ => 0) inTime =
      Chain.happened py (camera depth) (slots 8) (fun _ => 0) fourFrames ++
        ([.nothing, .popped (pointerOf depth 1 ⟨0, 1⟩ 0), .admitted (pointerOf depth 1 ⟨0, 1⟩ 0) (1 / 5),
            .nothing, .nothing, .processed (pointerOf depth 1 ⟨0, 1⟩ 0) 7] ++
          [.nothing, .popped (pointerOf depth 2 ⟨1, 1⟩ (1 / 15)), .admitted (pointerOf depth 2 ⟨1, 1⟩ (1 / 15)) (1 / 5),
            .nothing, .nothing, .processed (pointerOf depth 2 ⟨1, 1⟩ (1 / 15)) 8] ++
          [.nothing, .popped (pointerOf depth 3 ⟨2, 1⟩ (2 / 15)), .admitted (pointerOf depth 3 ⟨2, 1⟩ (2 / 15)) (1 / 5),
            .nothing, .nothing, .processed (pointerOf depth 3 ⟨2, 1⟩ (2 / 15)) 9]) := by
  have hfew (fps : List FramePointer) (hlen : fps.length < 3) : (fps.length : Int) < depth := by omega
  have hcalm : overloaded (slots 8) [] = false := by decide +kernel
  have hcalm' : overloaded (slots 8) (push 20 [] 30) = false := by decide +kernel
  have hcalm'' : overloaded (slots 8) (push 20 (push 20 [] 30) 30) = false := by decide +kernel
  have hfirst := @visit_fourth py depth 8 1 ⟨0, 1⟩ 0 _
    [pointerOf depth 3 ⟨2, 1⟩ (2 / 15), pointerOf depth 2 ⟨1, 1⟩ (1 / 15)] [] rfl (hfew _ (by simp)) rfl (le_refl 0)
    hcalm (by decide)
  have hsecond := @visit_fourth py depth 8 2 ⟨1, 1⟩ (1 / 15) _ [pointerOf depth 3 ⟨2, 1⟩ (2 / 15)] _ rfl
    (hfew _ (by simp)) rfl (by norm_num) hcalm' (by decide)
  have hthird := @visit_fourth py depth 8 3 ⟨2, 1⟩ (2 / 15) _ [] _ rfl (hfew _ (by simp)) rfl (by norm_num) hcalm''
    (by decide)
  have hafter := (after_fourFrames py 8 hdepth (p := ⟨0, 1⟩) (q := ⟨1, 1⟩) (r := ⟨2, 1⟩) (by decide) (by decide)
    (by decide)).1
  rw [List.cons_append, List.cons_append, List.nil_append] at hfirst
  rw [List.cons_append, List.nil_append] at hsecond
  rw [List.nil_append] at hthird
  rw [inTime, happened_append, hafter, Mealy.outs_append, Mealy.outs_append, Mealy.after_append, hfirst.1, hfirst.2,
    hsecond.1, hsecond.2, hthird.2]
  rfl

theorem length_written_inTime (py : PyJson) (depth : Int) :
    (written (Chain.happened py (camera depth) (slots 8) (fun _ => 0) inTime)).length < 2 ^ 63 :=
  Nat.lt_of_le_of_lt (length_written_le_length ..) (by decide)

theorem prompt_inTime (py : PyJson) (depth : Int) : Prompt py (camera depth) (slots 8) (fun _ => 0) inTime := by
  refine prompt_of_workers_first (fun _ => 0) ?_ ?_
  · intro x hx
    simp only [fourFrames, round, List.mem_append, List.mem_replicate, List.mem_singleton] at hx
    rcases hx with ((⟨-, rfl⟩ | ⟨-, rfl⟩) | ⟨-, rfl⟩) | rfl <;> exact ⟨_, _, rfl⟩
  · intro x hx
    simp only [visit, List.mem_append, List.mem_replicate] at hx
    rcases hx with (⟨-, rfl⟩ | ⟨-, rfl⟩) | ⟨-, rfl⟩ <;> exact ⟨_, rfl⟩

/-- Three pointers are read in time, with a fourth frame in the ring. -/
theorem never_stale_iff_inTime :
    NeverOverwritten PyJson.reference (camera 3) (slots 8) (fun _ => 0) inTime ∧
      .processed (pointerOf 3 1 ⟨0, 1⟩ 0) 7 ∈ Chain.happened PyJson.reference (camera 3) (slots 8) (fun _ => 0) inTime ∧
      .processed (pointerOf 3 2 ⟨1, 1⟩ (1 / 15)) 8 ∈
        Chain.happened PyJson.reference (camera 3) (slots 8) (fun _ => 0) inTime ∧
      .processed (pointerOf 3 3 ⟨2, 1⟩ (2 / 15)) 9 ∈
        Chain.happened PyJson.reference (camera 3) (slots 8) (fun _ => 0) inTime := by
  refine ⟨(never_stale_iff PyJson.reference (camera 3) (slots 8) (by decide) (by decide) (by decide) (fun _ => 0)).2
    (by decide) inTime (length_written_inTime _ 3) (prompt_inTime _ 3), ?_⟩
  rw [happened_inTime _ (le_refl 3)]
  simp

/-! ## What the age limit does -/

/-- The pointer that was found young enough. -/
def Reading.admitted? : Reading F → Option FramePointer
  | .admitted fp | .checked fp | .copied fp _ => some fp
  | _ => none

theorem Checks.admitted {fp : FramePointer} {t : Tick} (h : Checks c fp t) : c.reading.admitted? = some fp := by
  rcases h with ⟨h, -⟩ | ⟨frame, h⟩ <;> rw [h] <;> rfl

end

end Ingest

end Netra
