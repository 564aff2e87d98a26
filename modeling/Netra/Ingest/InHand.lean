import Netra.Ingest.Chain
import Mathlib.Tactic.Linarith
/-!
# What the detector is given

The pointer that `run_worker` has in hand is current while fewer than `num_slots`
later writes are finished. Its slot holds its own picture until the copy of the last
of these begins, so the detector gets its own picture or that one (`chain_delivers`).
-/
namespace Netra

open PyLib Wire

namespace Ingest

variable {F : Type}

section
variable {py : PyJson} {cfg : Config} {lim : Limits} {c : Chain F} {es : List (Happened F)}
  {ws : List (Shm.Issued F)} {gone fps : List FramePointer}

/-! ## The pointer in hand -/

/-- A turn of either side: what is popped comes into the hand, what is dealt with leaves it. -/
theorem dealt_step (py : PyJson) (cfg : Config) (lim : Limits) (c : Chain F) (turn : Turn F) :
    c.reading.pointer.toList ++ (Chain.step py cfg lim c turn).2.popped?.toList =
      (Chain.step py cfg lim c turn).2.judged?.toList ++ (Chain.step py cfg lim c turn).1.reading.pointer.toList := by
  have hmoves := Chain.step_moves py cfg lim c turn
  generalize Chain.step py cfg lim c turn = next at hmoves
  cases hmoves with
  | copyFrame | bumpIdx | bumpGen | make | command => exact List.append_nil _
  | wait hreading => exact List.append_nil _
  | pop hreading | refuse hreading | pass hreading | notFound hreading | stale hreading | check hreading
  | copyOut hreading | overwritten hreading | process hreading =>
    rw [hreading]
    rfl

/-- A pointer is dealt with in a turn of the inference worker. -/
theorem inference_of_judged {turn : Turn F} {fp : FramePointer}
    (he : (Chain.step py cfg lim c turn).2.judged? = some fp) : ∃ t, turn = .inference t := by
  cases turn with
  | inference t => exact ⟨t, rfl⟩
  | worker frame now =>
    have hmoves := Chain.step_moves py cfg lim c (.worker frame now)
    generalize Chain.step py cfg lim c (.worker frame now) = next at hmoves he
    cases hmoves <;> cases he

/-- Every pointer that was popped is dealt with, but for the one in hand. -/
theorem popped_eq (py : PyJson) (cfg : Config) (lim : Limits) (ring : Nat → F) (turns : List (Turn F)) :
    popped (Chain.happened py cfg lim ring turns) = judged (Chain.happened py cfg lim ring turns) ++
      (Chain.after py cfg lim ring turns).reading.pointer.toList := by
  induction turns using List.reverseRecOn with
  | nil => rfl
  | append_singleton turns turn ih =>
    rw [happened_concat, popped_concat, judged_concat, ih, List.append_assoc, List.append_assoc, dealt_step,
      chain_concat]

/-- The pointer in hand is one of those made, and its stamp is that of its frame. -/
theorem in_hand (ring : Nat → F) {turns : List (Turn F)}
    (h : Linked py cfg lim (Chain.happened py cfg lim ring turns) (Chain.after py cfg lim ring turns) ws gone fps)
    {fp : FramePointer} (hfp : (Chain.after py cfg lim ring turns).reading.pointer = some fp) :
    ∃ (k : Nat) (w : Shm.Issued F), fp.frameSeq = k + 1 ∧ ws[k]? = some w ∧ shmPointer lim fp = w.pointer ∧
      (stamps (Chain.happened py cfg lim ring turns))[k]? = some fp.timestamp := by
  have hgone : fp ∈ gone := by
    refine h.taken.subset ?_
    rw [popped_eq, hfp]
    exact List.mem_append_right _ (List.mem_singleton_self fp)
  have hline : fp ∈ line (Chain.after py cfg lim ring turns).redis gone fps := by
    rw [line, List.append_assoc]
    exact List.mem_append_left _ hgone
  obtain ⟨k, hk⟩ := List.mem_iff_getElem?.1 hline
  obtain ⟨hseq, w, hw, hpointer⟩ := h.made k fp hk
  refine ⟨k, w, hseq, hw, hpointer, ?_⟩
  rw [← h.stamped, List.getElem?_map, hk, Option.map_some]

/-- The pointer in hand is current while fewer than `num_slots` later writes are finished. -/
theorem current_in_hand (hdepth : 1 ≤ cfg.maxDepth) (hn : 1 ≤ lim.numSlots) (ring : Nat → F) {turns : List (Turn F)}
    (hlt : (written (Chain.happened py cfg lim ring turns)).length < 2 ^ 63) {fp : FramePointer}
    (hfp : (Chain.after py cfg lim ring turns).reading.pointer = some fp) :
    Shm.RingBufferReader.current lim.numSlots (Chain.after py cfg lim ring turns).memory.gen (shmPointer lim fp) ↔
      (written (Chain.happened py cfg lim ring turns)).length < fp.frameSeq + lim.numSlots := by
  obtain ⟨ws, gone, fps, h⟩ := linked_after py cfg lim ring hdepth turns
  obtain ⟨k, w, hseq, hw, hpointer, -⟩ := in_hand ring h hfp
  rw [h.length_written] at hlt ⊢
  rw [hpointer, h.ring.current_iff hn hlt hw]
  omega

/-- `frame` is the one the pointer was made for, or that of the write `num_slots` later,
which was begun, unless more are finished. -/
def Copied (lim : Limits) (es : List (Happened F)) (fp : FramePointer) (frame : F) : Prop :=
  ∃ k : Nat, fp.frameSeq = k + 1 ∧
    ((begun es)[k]? = some frame ∨ (begun es)[k + lim.numSlots]? = some frame ∨
      k + lim.numSlots < (written es).length)

theorem getElem?_extend {α : Type} {l l' : List α} (h : l <+: l') {k : Nat} {a : α} (hk : l[k]? = some a) :
    l'[k]? = some a := by
  obtain ⟨rest, rfl⟩ := h
  rw [List.getElem?_append_left (List.getElem?_eq_some_iff.1 hk).1]
  exact hk

theorem Copied.append {fp : FramePointer} {frame : F} (h : Copied lim es fp frame) (es' : List (Happened F)) :
    Copied lim (es ++ es') fp frame := by
  obtain ⟨k, hseq, hown | hlater | hmany⟩ := h
  · exact ⟨k, hseq, .inl (getElem?_extend (begun_grows es es') hown)⟩
  · exact ⟨k, hseq, .inr (.inl (getElem?_extend (begun_grows es es') hlater))⟩
  · exact ⟨k, hseq, .inr (.inr (Nat.lt_of_lt_of_le hmany (written_grows es es').length_le))⟩

/-- The slot of the pointer in hand. -/
theorem copied_in_hand (hdepth : 1 ≤ cfg.maxDepth) (hn : 1 ≤ lim.numSlots) (ring : Nat → F) {turns : List (Turn F)}
    (hlt : (written (Chain.happened py cfg lim ring turns)).length < 2 ^ 63) {fp : FramePointer}
    (hfp : (Chain.after py cfg lim ring turns).reading.pointer = some fp) :
    Copied lim (Chain.happened py cfg lim ring turns) fp
      ((Chain.after py cfg lim ring turns).memory.ring
        (Shm.RingBufferReader.slot lim.numSlots (shmPointer lim fp))) := by
  obtain ⟨ws, gone, fps, h⟩ := linked_after py cfg lim ring hdepth turns
  obtain ⟨k, w, hseq, hw, hpointer, -⟩ := in_hand ring h hfp
  refine ⟨k, hseq, ?_⟩
  rw [hpointer, h.begun]
  have hwritten := h.length_written
  rcases Nat.lt_or_ge (k + lim.numSlots) ws.length with hmany | hfew
  · exact .inr (.inr (by omega))
  rcases h.ring.held hn (by omega) hw hfew with hown | ⟨hlast, slot, hbusy⟩
  · refine .inl ?_
    have hk : (written (Chain.happened py cfg lim ring turns))[k]? = some w.frame := by
      rw [← h.frames, List.getElem?_map, hw, Option.map_some]
    rw [hown]
    exact getElem?_extend (List.prefix_append _ _) hk
  · refine .inr (.inl ?_)
    rw [hbusy, ← hlast, ← hwritten]
    exact List.getElem?_concat_length

theorem copied_after (hdepth : 1 ≤ cfg.maxDepth) (hn : 1 ≤ lim.numSlots) (ring : Nat → F) (turns : List (Turn F))
    (hlt : (written (Chain.happened py cfg lim ring turns)).length < 2 ^ 63) {fp : FramePointer} {frame : F}
    (hreading : (Chain.after py cfg lim ring turns).reading = .copied fp frame) :
    Copied lim (Chain.happened py cfg lim ring turns) fp frame := by
  induction turns using List.reverseRecOn with
  | nil => cases hreading
  | append_singleton turns turn ih =>
    rw [chain_concat] at hreading
    rw [happened_concat] at hlt ⊢
    have hlt' := Nat.lt_of_le_of_lt (written_grows _ _).length_le hlt
    have hmoves := Chain.step_moves py cfg lim (Chain.after py cfg lim ring turns) turn
    generalize Chain.step py cfg lim (Chain.after py cfg lim ring turns) turn = next at hmoves hreading
    cases hmoves with
    | copyFrame | bumpIdx | bumpGen | make | command => exact (ih hlt' hreading).append _
    | wait hidle => exact absurd (hidle.symm.trans hreading) nofun
    | pop | refuse | pass | notFound | stale | check | overwritten | process => cases hreading
    | copyOut hchecked =>
      cases hreading
      exact (copied_in_hand hdepth hn ring hlt' (by rw [hchecked]; rfl)).append _

/-- `run_worker` compares generations. -/
def Checks (c : Chain F) (fp : FramePointer) (t : Tick) : Prop :=
  (c.reading = .admitted fp ∧ t.found = true) ∨ ∃ frame, c.reading = .copied fp frame

theorem Checks.pointer {fp : FramePointer} {t : Tick} (h : Checks c fp t) : c.reading.pointer = some fp := by
  rcases h with ⟨h, -⟩ | ⟨frame, h⟩ <;> rw [h] <;> rfl

/-- A frame is given up in the ring just when a check fails. -/
theorem stale_iff (py : PyJson) (cfg : Config) (lim : Limits) (c : Chain F) (t : Tick) (fp : FramePointer) :
    (Chain.step py cfg lim c (.inference t)).2 = .dropped fp .staleShm ↔
      Checks c fp t ∧ ¬ Shm.RingBufferReader.current lim.numSlots c.memory.gen (shmPointer lim fp) := by
  constructor
  · intro he
    have hmoves := Chain.step_moves py cfg lim c (.inference t)
    generalize Chain.step py cfg lim c (.inference t) = next at hmoves he
    cases hmoves with
    | refuse hreading hr => exact absurd (Happened.dropped.inj he).2 hr
    | stale hreading hfound hold =>
      cases he
      exact ⟨.inl ⟨hreading, hfound⟩, hold⟩
    | overwritten hreading hold =>
      cases he
      exact ⟨.inr ⟨_, hreading⟩, hold⟩
    | pop | wait | pass | notFound | check | copyOut | process => cases he
  · rintro ⟨⟨hreading, hfound⟩ | ⟨frame, hreading⟩, hold⟩
    · rw [Chain.step, Chain.inference, hreading]
      dsimp only
      rw [if_neg (not_not.2 hfound), if_pos hold]
    · rw [Chain.step, Chain.inference, hreading]
      dsimp only
      rw [if_pos hold]

/-- What the detector is given was copied out, and its pointer was current afterwards. -/
theorem of_processed {turn : Turn F} {fp : FramePointer} {frame : F}
    (he : (Chain.step py cfg lim c turn).2 = .processed fp frame) :
    c.reading = .copied fp frame ∧
      Shm.RingBufferReader.current lim.numSlots c.memory.gen (shmPointer lim fp) := by
  have hmoves := Chain.step_moves py cfg lim c turn
  generalize Chain.step py cfg lim c turn = next at hmoves he
  cases hmoves <;> cases he
  case process hcurrent hreading => exact ⟨hreading, hcurrent⟩

/-- The picture the detector is given is that of its pointer, or of the write
`num_slots` later, which is under way. -/
theorem processed_frame (hdepth : 1 ≤ cfg.maxDepth) (hn : 1 ≤ lim.numSlots) (ring : Nat → F) {turns : List (Turn F)}
    (hlt : (written (Chain.happened py cfg lim ring turns)).length < 2 ^ 63) {turn : Turn F} {fp : FramePointer}
    {frame : F} (he : (Chain.step py cfg lim (Chain.after py cfg lim ring turns) turn).2 = .processed fp frame) :
    ∃ k : Nat, fp.frameSeq = k + 1 ∧ ((begun (Chain.happened py cfg lim ring turns))[k]? = some frame ∨
      (written (Chain.happened py cfg lim ring turns)).length = k + lim.numSlots ∧
        begun (Chain.happened py cfg lim ring turns) = written (Chain.happened py cfg lim ring turns) ++ [frame]) := by
  obtain ⟨hreading, hcurrent⟩ := of_processed he
  have hfew := (current_in_hand hdepth hn ring hlt (by rw [hreading]; rfl)).1 hcurrent
  obtain ⟨ws, gone, fps, h⟩ := linked_after py cfg lim ring hdepth turns
  obtain ⟨k, hseq, hown | hlater | hmany⟩ := copied_after hdepth hn ring turns hlt hreading
  · exact ⟨k, hseq, .inl hown⟩
  · refine ⟨k, hseq, .inr ?_⟩
    have hbegun := h.begun
    rw [hbegun] at hlater ⊢
    cases hbusy : (Chain.after py cfg lim ring turns).writing.busy with
    | none =>
      rw [hbusy] at hlater
      have hin := (List.getElem?_eq_some_iff.1 hlater).1
      rw [Option.map_none, Option.toList_none, List.append_nil] at hin
      omega
    | some entry =>
      rw [hbusy] at hlater
      have hin := (List.getElem?_eq_some_iff.1 hlater).1
      rw [Option.map_some, Option.toList_some, List.length_append, List.length_singleton] at hin
      have hlast : (written (Chain.happened py cfg lim ring turns)).length = k + lim.numSlots := by omega
      rw [Option.map_some, Option.toList_some, ← hlast, List.getElem?_concat_length] at hlater
      refine ⟨hlast, ?_⟩
      rw [Option.map_some, Option.toList_some, Option.some.inj hlater]
  · omega

/-- The detector's end of the chain, over a whole run. -/
structure Delivers (py : PyJson) (cfg : Config) (lim : Limits) (ring : Nat → F) (turns : List (Turn F)) : Prop where
  /-- Every pointer that was popped is dealt with, but for the one in hand. -/
  dealt : popped (Chain.happened py cfg lim ring turns) = judged (Chain.happened py cfg lim ring turns) ++
    (Chain.after py cfg lim ring turns).reading.pointer.toList
  /-- Pointers are popped in the order of their numbers, none twice. -/
  ordered : (popped (Chain.happened py cfg lim ring turns)).Pairwise (·.frameSeq < ·.frameSeq)
  /-- The detector is given the picture the pointer was made for, or that of the write
  `num_slots` later, where it is under way. -/
  frame : ∀ pre turn post fp frame, turns = pre ++ turn :: post →
    (Chain.step py cfg lim (Chain.after py cfg lim ring pre) turn).2 = .processed fp frame →
    ∃ k : Nat, fp.frameSeq = k + 1 ∧ ((begun (Chain.happened py cfg lim ring pre))[k]? = some frame ∨
      (written (Chain.happened py cfg lim ring pre)).length = k + lim.numSlots ∧
        begun (Chain.happened py cfg lim ring pre) = written (Chain.happened py cfg lim ring pre) ++ [frame])
  /-- A frame is given up in the ring just when `num_slots` later writes are finished by a
  check. -/
  lost : ∀ pre t post fp, turns = pre ++ .inference t :: post →
    ((Chain.step py cfg lim (Chain.after py cfg lim ring pre) (.inference t)).2 = .dropped fp .staleShm ↔
      Checks (Chain.after py cfg lim ring pre) fp t ∧
        fp.frameSeq + lim.numSlots ≤ (written (Chain.happened py cfg lim ring pre)).length)

variable (py cfg lim) in
theorem length_written_le (ring : Nat → F) (pre post : List (Turn F)) :
    (written (Chain.happened py cfg lim ring pre)).length ≤
      (written (Chain.happened py cfg lim ring (pre ++ post))).length := by
  rw [happened_append]
  exact (written_grows _ _).length_le

theorem length_written_le_length (ring : Nat → F) (turns : List (Turn F)) :
    (written (Chain.happened py cfg lim ring turns)).length ≤ turns.length := by
  refine (List.length_filterMap_le _ _).trans ?_
  rw [Chain.happened, Mealy.length_outs]

theorem chain_delivers (py : PyJson) (cfg : Config) (lim : Limits) (hdepth : 1 ≤ cfg.maxDepth) (hn : 1 ≤ lim.numSlots)
    (ring : Nat → F) (turns : List (Turn F)) (hlt : (written (Chain.happened py cfg lim ring turns)).length < 2 ^ 63) :
    Delivers py cfg lim ring turns := by
  constructor
  · exact popped_eq py cfg lim ring turns
  · obtain ⟨ws, gone, fps, h⟩ := linked_after py cfg lim ring hdepth turns
    refine h.made.ordered.sublist ?_
    rw [line, List.append_assoc]
    exact h.taken.trans (List.sublist_append_left _ _)
  · rintro pre turn post fp frame rfl he
    exact processed_frame hdepth hn ring (Nat.lt_of_le_of_lt (length_written_le py cfg lim ring pre _) hlt) he
  · rintro pre t post fp rfl
    have hpre := Nat.lt_of_le_of_lt (length_written_le py cfg lim ring pre _) hlt
    rw [stale_iff]
    refine and_congr_right fun hchecks => ?_
    rw [current_in_hand hdepth hn ring hpre hchecks.pointer, not_lt]

/-! ## One side at a time -/

/-- A frame of the camera worker, with nothing in between. -/
def round (frame : F) (now : ℚ) : List (Turn F) := List.replicate 7 (.worker frame now)

/-- Undisturbed, the steps of a frame are `write` and a push. -/
theorem after_round (py : PyJson) (cfg : Config) (lim : Limits) {queue : List String} {seq : Int} {i : InferenceAt}
    {m : Shm.Memory F} {reading : Reading F} {procTimes : List ℚ} (frame : F) (now : ℚ) {p : Shm.Pointer}
    (hroom : queue.length < cfg.maxDepth) (hp : (Shm.RingBufferWriter.write lim.numSlots m frame).2 = p) :
    Mealy.after (Chain.step py cfg lim) ⟨⟨queue, seq, .frame, i⟩, m, .idle, reading, procTimes⟩ (round frame now) =
        ⟨⟨payload py (pointer cfg (seq + 1) ⟨p.slotIndex, p.generation, now⟩) :: queue, seq + 1, .frame, i⟩,
          (Shm.RingBufferWriter.write lim.numSlots m frame).1, .idle, reading, procTimes⟩ ∧
      Mealy.outs (Chain.step py cfg lim) ⟨⟨queue, seq, .frame, i⟩, m, .idle, reading, procTimes⟩ (round frame now) =
        [.began frame, .nothing, .wrote frame, .stamped now, .nothing, .nothing, .nothing] := by
  subst hp
  have hpush : ¬ cfg.maxDepth ≤ queue.length := not_le.2 hroom
  have htrim (raw : String) : ltrim (cfg.maxDepth - 1) (raw :: queue) = raw :: queue :=
    ltrim_of_le (by omega) (by rw [List.length_cons]; omega)
  simp only [round, List.replicate_succ, List.replicate_zero, Mealy.after_cons, Mealy.after_nil, Mealy.outs_cons,
    Mealy.outs_nil, Chain.step, Chain.worker, Ingest.step, if_neg hpush, htrim]
  exact ⟨rfl, trivial⟩

/-- A pointer of the inference worker, with nothing in between. -/
def visit (n : Nat) (t : Tick) : List (Turn F) := List.replicate n (.inference t)

/-- `run_worker` is at its first command, with the pointers `fps` in the queue. -/
def Chain.facing (py : PyJson) (fps : List FramePointer) (seq : Int) (w : WorkerAt) (m : Shm.Memory F)
    (writing : Shm.Writing F) (procTimes : List ℚ) : Chain F :=
  ⟨⟨fps.map (payload py), seq, w, .depth⟩, m, writing, .idle, procTimes⟩

/-- What `run_worker` finds at `t` lets it come to the ring with `fp`. -/
structure Admits (lim : Limits) (procTimes : List ℚ) (fp : FramePointer) (t : Tick) : Prop where
  young : (t.now - fp.timestamp) * 1000 ≤ lim.maxFrameAgeMs
  calm : ¬ (overloaded lim procTimes ∧ t.random < 1 / 2)
  found : t.found = true

section
variable (py cfg) {q : List FramePointer} {seq : Int} {w : WorkerAt} {m : Shm.Memory F} {writing : Shm.Writing F}
  {procTimes : List ℚ} {fp : FramePointer} {t : Tick}

/-- The turns that bring the oldest pointer to its first check. -/
theorem visit_three (hq : q = fps ++ [fp]) (hfew : fps.length < cfg.maxDepth) (hadmits : Admits lim procTimes fp t) :
    Mealy.after (Chain.step py cfg lim) (.facing py q seq w m writing procTimes) (visit 3 t) =
        { Chain.facing py fps seq w m writing procTimes with reading := .admitted fp } ∧
      Mealy.outs (Chain.step py cfg lim) (.facing py q seq w m writing procTimes) (visit 3 t) =
        [.nothing, .popped fp, .admitted fp t.now] := by
  subst hq
  have hold : ¬ lim.maxFrameAgeMs < (t.now - fp.timestamp) * 1000 := not_lt.2 hadmits.young
  have hcalm := hadmits.calm
  have hdrain : ¬ cfg.maxDepth < ((fps ++ [fp]).map (payload py)).length := by
    rw [List.length_map, List.length_append, List.length_singleton]
    omega
  have hpop : rpop ((fps ++ [fp]).map (payload py)) = (fps.map (payload py), some (payload py fp)) := by simp [rpop]
  have hnone : Event.nothing.obtained.bind (readPointer py) = none := rfl
  simp only [Chain.facing, visit, List.replicate_succ, List.replicate_zero, Mealy.after_cons, Mealy.after_nil,
    Mealy.outs_cons, Mealy.outs_nil, Chain.step, Chain.inference, Ingest.step, if_neg hdrain, hpop, hnone,
    obtained_payload, Option.bind_some, readPointer_payload, if_neg hold, if_neg hcalm]
  exact ⟨trivial, trivial⟩

/-- The oldest pointer is current: its slot goes to the detector. -/
theorem visit_current (hq : q = fps ++ [fp]) (hfew : fps.length < cfg.maxDepth) (hadmits : Admits lim procTimes fp t)
    {p : Shm.Pointer} (hp : shmPointer lim fp = p) (hcurrent : Shm.RingBufferReader.current lim.numSlots m.gen p) :
    Mealy.after (Chain.step py cfg lim) (.facing py q seq w m writing procTimes) (visit 6 t) =
        .facing py fps seq w m writing (push 20 procTimes t.elapsed) ∧
      Mealy.outs (Chain.step py cfg lim) (.facing py q seq w m writing procTimes) (visit 6 t) =
        [.nothing, .popped fp, .admitted fp t.now, .nothing, .nothing,
          .processed fp (m.ring (Shm.RingBufferReader.slot lim.numSlots p))] := by
  subst hp
  obtain ⟨hafter, houts⟩ := visit_three py cfg hq hfew hadmits
  have hfound : ¬ ¬ t.found = true := not_not.2 hadmits.found
  have hcheck : ¬ ¬ Shm.RingBufferReader.current lim.numSlots m.gen (shmPointer lim fp) := not_not.2 hcurrent
  have hsplit : visit 6 t = visit 3 t ++ (visit 3 t : List (Turn F)) := rfl
  rw [hsplit, Mealy.after_append, Mealy.outs_append, hafter, houts]
  simp only [Chain.facing, visit, List.replicate_succ, List.replicate_zero, Mealy.after_cons, Mealy.after_nil,
    Mealy.outs_cons, Mealy.outs_nil, Chain.step, Chain.inference, if_neg hfound, if_neg hcheck]
  exact ⟨trivial, rfl⟩

/-- The slot of the oldest pointer was written again. -/
theorem visit_stale (hq : q = fps ++ [fp]) (hfew : fps.length < cfg.maxDepth) (hadmits : Admits lim procTimes fp t)
    {p : Shm.Pointer} (hp : shmPointer lim fp = p) (hold : ¬ Shm.RingBufferReader.current lim.numSlots m.gen p) :
    Mealy.after (Chain.step py cfg lim) (.facing py q seq w m writing procTimes) (visit 4 t) =
        .facing py fps seq w m writing procTimes ∧
      Mealy.outs (Chain.step py cfg lim) (.facing py q seq w m writing procTimes) (visit 4 t) =
        [.nothing, .popped fp, .admitted fp t.now, .dropped fp .staleShm] := by
  subst hp
  obtain ⟨hafter, houts⟩ := visit_three py cfg hq hfew hadmits
  have hfound : ¬ ¬ t.found = true := not_not.2 hadmits.found
  have hsplit : visit 4 t = visit 3 t ++ (visit 1 t : List (Turn F)) := rfl
  rw [hsplit, Mealy.after_append, Mealy.outs_append, hafter, houts]
  simp only [Chain.facing, visit, List.replicate_succ, List.replicate_zero, Mealy.after_cons, Mealy.after_nil,
    Mealy.outs_cons, Mealy.outs_nil, Chain.step, Chain.inference, if_neg hfound, if_pos hold]
  exact ⟨trivial, rfl⟩

end

/-- The default settings, but for the ring of `n` slots. -/
def slots (n : Nat) : Limits := ⟨n, 500, true, 200⟩

/-- Three frames are pushed, 1/15 s apart, and a fourth is copied into the ring. -/
def fourFrames : List (Turn Nat) := round 7 0 ++ round 8 (1 / 15) ++ round 9 (2 / 15) ++ [.worker 10 (1 / 5)]

/-- A ring of `n` slots with the three frames. -/
def threeWritten (n : Nat) : Shm.Memory Nat :=
  [7, 8, 9].foldl (fun m frame => (Shm.RingBufferWriter.write n m frame).1) (Shm.RingBufferWriter.init fun _ => 0)

def fourthSlot (n : Nat) : Nat := Shm.RingBufferWriter.slotOf n (threeWritten n).idx

/-- The queue holds the pointers `fps`, and the fourth frame is in its slot. -/
def fourth (py : PyJson) (n : Nat) (fps : List FramePointer) (procTimes : List ℚ) : Chain Nat :=
  .facing py fps 3 .frame (Shm.RingBufferWriter.copyFrame (threeWritten n) (fourthSlot n) 10)
    (.copied (fourthSlot n) 10) procTimes

/-- The pointer of the `k`-th frame, of a camera whose queue has room for `depth`. -/
def pointerOf (depth : Int) (k : Nat) (p : Shm.Pointer) (now : ℚ) : FramePointer :=
  pointer (camera depth) k ⟨p.slotIndex, p.generation, now⟩

theorem after_fourFrames (py : PyJson) (n : Nat) {depth : Int} (hdepth : 3 ≤ depth) {p q r : Shm.Pointer}
    (hp : (Shm.RingBufferWriter.write (slots n).numSlots (Shm.RingBufferWriter.init fun _ => 0) 7).2 = p)
    (hq : (Shm.RingBufferWriter.write (slots n).numSlots
      (Shm.RingBufferWriter.write (slots n).numSlots (Shm.RingBufferWriter.init fun _ => 0) 7).1 8).2 = q)
    (hr : (Shm.RingBufferWriter.write (slots n).numSlots (Shm.RingBufferWriter.write (slots n).numSlots
      (Shm.RingBufferWriter.write (slots n).numSlots (Shm.RingBufferWriter.init fun _ => 0) 7).1 8).1 9).2 = r) :
    Chain.after py (camera depth) (slots n) (fun _ => 0) fourFrames =
        fourth py n [pointerOf depth 3 r (2 / 15), pointerOf depth 2 q (1 / 15), pointerOf depth 1 p 0] [] ∧
      Chain.happened py (camera depth) (slots n) (fun _ => 0) fourFrames =
        [.began 7, .nothing, .wrote 7, .stamped 0, .nothing, .nothing, .nothing,
          .began 8, .nothing, .wrote 8, .stamped (1 / 15), .nothing, .nothing, .nothing,
          .began 9, .nothing, .wrote 9, .stamped (2 / 15), .nothing, .nothing, .nothing, .began 10] := by
  have hroom {queue : List String} (hlen : queue.length < 3) : queue.length < (camera depth).maxDepth := by
    have hlt : (queue.length : Int) < depth := by omega
    exact hlt
  have hseven :=
    @after_round Nat py (camera depth) (slots n) [] 0 .depth (Shm.RingBufferWriter.init fun _ => 0) .idle []
    7 0 p (hroom (by simp)) hp
  have height (raw : String) := @after_round Nat py (camera depth) (slots n) [raw] (0 + 1) .depth _ .idle []
    8 (1 / 15) q (hroom (by simp)) hq
  have hnine (raw raw' : String) :=
    @after_round Nat py (camera depth) (slots n) [raw, raw'] (0 + 1 + 1) .depth _ .idle []
    9 (2 / 15) r (hroom (by simp)) hr
  have hcopy (queue : List String) (m : Shm.Memory Nat) :
      Mealy.after (Chain.step py (camera depth) (slots n)) ⟨⟨queue, 0 + 1 + 1 + 1, .frame, .depth⟩, m, .idle, .idle, []⟩
          [.worker 10 (1 / 5)] =
          ⟨⟨queue, 3, .frame, .depth⟩,
            Shm.RingBufferWriter.copyFrame m (Shm.RingBufferWriter.slotOf (slots n).numSlots m.idx) 10,
            .copied (Shm.RingBufferWriter.slotOf (slots n).numSlots m.idx) 10, .idle, []⟩ ∧
        Mealy.outs (Chain.step py (camera depth) (slots n))
          ⟨⟨queue, 0 + 1 + 1 + 1, .frame, .depth⟩, m, .idle, .idle, []⟩ [.worker 10 (1 / 5)] = [.began 10] := ⟨rfl, rfl⟩
  rw [Chain.after, Chain.happened, fourFrames, Mealy.after_append, Mealy.after_append, Mealy.after_append,
    Mealy.outs_append, Mealy.outs_append, Mealy.outs_append, Mealy.after_append, Mealy.after_append,
    Mealy.after_append, Chain.init, State.init, hseven.1, hseven.2, (height _).1, (height _).2, (hnine _ _).1,
    (hnine _ _).2, (hcopy _ _).1, (hcopy _ _).2]
  exact ⟨rfl, rfl⟩

/-- What `run_worker` finds 200 ms after the first of them; the detector takes 30 ms. -/
def soon : Tick := ⟨1 / 5, 0, true, 30⟩

theorem admits_soon {n : Nat} {procTimes : List ℚ} {fp : FramePointer} (hfp : 0 ≤ fp.timestamp)
    (hcalm : overloaded (slots n) procTimes = false) : Admits (slots n) procTimes fp soon where
  young := by
    have hage : (1 / 5 - fp.timestamp) * 1000 ≤ 500 := by linarith
    exact hage
  calm h := absurd (hcalm.symm.trans h.1) nofun
  found := rfl

section
variable (py) (depth : Int) {n k : Nat} {p : Shm.Pointer} {now : ℚ} {q fps : List FramePointer} {procTimes : List ℚ}

theorem visit_fourth (hq : q = fps ++ [pointerOf depth k p now]) (hfew : fps.length < depth)
    (hp : p.slotIndex % n = p.slotIndex) (hnow : 0 ≤ now) (hcalm : overloaded (slots n) procTimes = false)
    (hcurrent : Shm.RingBufferReader.current n (threeWritten n).gen p) :
    Mealy.after (Chain.step py (camera depth) (slots n)) (fourth py n q procTimes) (visit 6 soon) =
        fourth py n fps (push 20 procTimes 30) ∧
      Mealy.outs (Chain.step py (camera depth) (slots n)) (fourth py n q procTimes) (visit 6 soon) =
        [.nothing, .popped (pointerOf depth k p now), .admitted (pointerOf depth k p now) (1 / 5), .nothing, .nothing,
          .processed (pointerOf depth k p now) ((Shm.RingBufferWriter.copyFrame (threeWritten n) (fourthSlot n) 10).ring
            (Shm.RingBufferReader.slot n p))] :=
  visit_current py (camera depth) hq hfew (admits_soon hnow hcalm) (shmPointer_pointer (slots n) _ _ now hp) hcurrent

theorem visit_fourth_stale (hq : q = fps ++ [pointerOf depth k p now]) (hfew : fps.length < depth)
    (hp : p.slotIndex % n = p.slotIndex) (hnow : 0 ≤ now) (hcalm : overloaded (slots n) procTimes = false)
    (hold : ¬ Shm.RingBufferReader.current n (threeWritten n).gen p) :
    Mealy.after (Chain.step py (camera depth) (slots n)) (fourth py n q procTimes) (visit 4 soon) =
        fourth py n fps procTimes ∧
      Mealy.outs (Chain.step py (camera depth) (slots n)) (fourth py n q procTimes) (visit 4 soon) =
        [.nothing, .popped (pointerOf depth k p now), .admitted (pointerOf depth k p now) (1 / 5),
          .dropped (pointerOf depth k p now) .staleShm] :=
  visit_stale py (camera depth) hq hfew (admits_soon hnow hcalm) (shmPointer_pointer (slots n) _ _ now hp) hold

end

/-- Four frames for a ring of two slots, the fourth not finished, and three pointers. -/
def overtaken : List (Turn Nat) := fourFrames ++ (visit 4 soon ++ visit 6 soon ++ visit 6 soon)

/-- The first frame is lost, the second pointer gets the picture of the fourth, and the
third its own. -/
theorem happened_overtaken (py : PyJson) :
    Chain.happened py (camera 3) (slots 2) (fun _ => 0) overtaken =
      Chain.happened py (camera 3) (slots 2) (fun _ => 0) fourFrames ++
        ([.nothing, .popped (pointerOf 3 1 ⟨0, 1⟩ 0), .admitted (pointerOf 3 1 ⟨0, 1⟩ 0) (1 / 5),
            .dropped (pointerOf 3 1 ⟨0, 1⟩ 0) .staleShm] ++
          [.nothing, .popped (pointerOf 3 2 ⟨1, 1⟩ (1 / 15)), .admitted (pointerOf 3 2 ⟨1, 1⟩ (1 / 15)) (1 / 5),
            .nothing, .nothing, .processed (pointerOf 3 2 ⟨1, 1⟩ (1 / 15)) 10] ++
          [.nothing, .popped (pointerOf 3 3 ⟨0, 2⟩ (2 / 15)), .admitted (pointerOf 3 3 ⟨0, 2⟩ (2 / 15)) (1 / 5),
            .nothing, .nothing, .processed (pointerOf 3 3 ⟨0, 2⟩ (2 / 15)) 9]) := by
  have hcalm : overloaded (slots 2) [] = false := by decide +kernel
  have hcalm' : overloaded (slots 2) (push 20 [] 30) = false := by decide +kernel
  have hfirst : [pointerOf 3 3 ⟨0, 2⟩ (2 / 15), pointerOf 3 2 ⟨1, 1⟩ (1 / 15), pointerOf 3 1 ⟨0, 1⟩ 0] =
    [pointerOf 3 3 ⟨0, 2⟩ (2 / 15), pointerOf 3 2 ⟨1, 1⟩ (1 / 15)] ++ [pointerOf 3 1 ⟨0, 1⟩ 0] := rfl
  have hsecond : [pointerOf 3 3 ⟨0, 2⟩ (2 / 15), pointerOf 3 2 ⟨1, 1⟩ (1 / 15)] =
    [pointerOf 3 3 ⟨0, 2⟩ (2 / 15)] ++ [pointerOf 3 2 ⟨1, 1⟩ (1 / 15)] := rfl
  have hthird : [pointerOf 3 3 ⟨0, 2⟩ (2 / 15)] = [] ++ [pointerOf 3 3 ⟨0, 2⟩ (2 / 15)] := rfl
  have hstale := visit_fourth_stale py 3 hfirst (by decide) rfl (le_refl 0) hcalm (by decide)
  have hlater := visit_fourth py 3 hsecond (by decide) rfl (by norm_num) hcalm (by decide)
  have hown := visit_fourth py 3 hthird (by decide) rfl (by norm_num) hcalm' (by decide)
  have hafter := (after_fourFrames py 2 (le_refl 3) (p := ⟨0, 1⟩) (q := ⟨1, 1⟩) (r := ⟨0, 2⟩) (by decide)
    (by decide) (by decide)).1
  rw [overtaken, happened_append, hafter, Mealy.outs_append, Mealy.outs_append, Mealy.after_append,
    hstale.1, hstale.2, hlater.1, hlater.2, hown.2]
  rfl

theorem chain_delivers_overtaken :
    Delivers PyJson.reference (camera 3) (slots 2) (fun _ => 0) overtaken ∧
      .dropped (pointerOf 3 1 ⟨0, 1⟩ 0) .staleShm ∈
        Chain.happened PyJson.reference (camera 3) (slots 2) (fun _ => 0) overtaken ∧
      .processed (pointerOf 3 2 ⟨1, 1⟩ (1 / 15)) 10 ∈
        Chain.happened PyJson.reference (camera 3) (slots 2) (fun _ => 0) overtaken ∧
      .processed (pointerOf 3 3 ⟨0, 2⟩ (2 / 15)) 9 ∈
        Chain.happened PyJson.reference (camera 3) (slots 2) (fun _ => 0) overtaken := by
  refine ⟨chain_delivers PyJson.reference (camera 3) (slots 2) (by decide) (by decide) (fun _ => 0) overtaken
    (Nat.lt_of_le_of_lt (length_written_le_length ..) (by decide)), ?_⟩
  rw [happened_overtaken]
  simp

end

end Ingest

end Netra
