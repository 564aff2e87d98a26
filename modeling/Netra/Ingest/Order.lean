import Netra.Ingest.FrameQueue
/-!
# The frame queue is bounded and in order

Whatever both sides read of its length may be stale, but only the camera worker
makes the queue longer, so it never holds more than the setting allows
(`Roomy`). What the inference worker has obtained, what is queued and the frame
to be pushed stand in one line, in the order of their numbers (`Lined`).
-/
namespace Netra

open PyLib Wire

namespace Ingest

variable {py : PyJson} {cfg : Config} {s : State}

/-! ## Entries -/

theorem wellFormed_payload (fp : FramePointer) :
    (Json.obj (jsonItems (encodeFramePointer py.toPyText fp))).WellFormed :=
  .obj (by simp [jsonItems, encodeFramePointer]) wellFormed_jsonItems

theorem readPointer_payload (fp : FramePointer) : readPointer py (payload py fp) = some fp := by
  rw [readPointer, payload, py.loads_dumps _ (wellFormed_payload fp)]
  dsimp only
  rw [strItems_jsonItems, decode_encodeFramePointer]

theorem payload_ne (fp : FramePointer) : payload py fp ≠ "" := by
  intro h
  refine py.dumps_ne (.obj (jsonItems (encodeFramePointer py.toPyText fp))) ?_
  rw [show py.dumps _ = "" from h, String.toList_empty]

theorem obtained_payload (fp : FramePointer) : (Event.popped (some (payload py fp))).obtained = some (payload py fp) :=
  if_neg (payload_ne fp)

theorem ltrim_of_le {stop : Int} {q : List String} (hstop : 0 ≤ stop) (hq : (q.length : Int) ≤ stop + 1) :
    ltrim stop q = q := by
  rw [ltrim, if_neg (by omega)]
  exact List.take_of_length_le (by omega)

/-- What a pop does to the entries of `fps`. -/
theorem rpop_map (py : PyJson) (fps : List FramePointer) :
    (fps = [] ∧ rpop (fps.map (payload py)) = ([], none)) ∨
      ∃ rest fp, fps = rest ++ [fp] ∧ rpop (fps.map (payload py)) = (rest.map (payload py), some (payload py fp)) := by
  rcases List.eq_nil_or_concat' fps with rfl | ⟨rest, fp, rfl⟩
  · exact .inl ⟨rfl, rfl⟩
  · exact .inr ⟨rest, fp, rfl, by simp [rpop]⟩

/-! ## The length -/

/-- There is room for what is pushed next, and nothing to drain. -/
structure Roomy (cfg : Config) (s : State) : Prop where
  length : (s.queue.length : Int) ≤ cfg.maxDepth
  push : ∀ fp, s.worker = .push fp → (s.queue.length : Int) < cfg.maxDepth
  drain : ∀ left, s.inference ≠ .drain left

theorem length_rpop (q : List String) : (rpop q).1.length = q.length - 1 := List.length_dropLast

theorem roomy_step (hdepth : 1 ≤ cfg.maxDepth) (h : Roomy cfg s) (a : Action) : Roomy cfg (step py cfg s a).1 := by
  obtain ⟨hlen, hpush, hdrain⟩ := h
  cases a with
  | worker f =>
    cases hw : s.worker with
    | frame =>
      simp only [step, hw]
      refine ⟨hlen, fun fp hfp => ?_, hdrain⟩
      dsimp only at hfp ⊢
      split at hfp
      · cases hfp
      · omega
    | full fp =>
      simp only [step, hw]
      -- one entry less, unless there was none
      refine ⟨?_, fun _ _ => ?_, hdrain⟩ <;> dsimp only <;> rw [length_rpop] <;> omega
    | push fp =>
      have hroom := hpush fp hw
      simp only [step, hw]
      refine ⟨?_, nofun, hdrain⟩
      rw [List.length_cons]
      omega
    | trim =>
      simp only [step, hw]
      refine ⟨?_, nofun, hdrain⟩
      rw [ltrim_of_le (by omega) (by omega)]
      exact hlen
    | count =>
      simp only [step, hw]
      exact ⟨hlen, nofun, hdrain⟩
  | inference =>
    cases hi : s.inference with
    | depth =>
      simp only [step, hi]
      rw [if_neg (by omega)]
      exact ⟨hlen, hpush, nofun⟩
    | drain left => exact absurd hi (hdrain left)
    | pop =>
      simp only [step, hi]
      refine ⟨?_, fun fp hfp => ?_, nofun⟩
      · rw [length_rpop]
        omega
      · have hroom := hpush fp hfp
        rw [length_rpop]
        omega

theorem roomy_after (py : PyJson) (hdepth : 1 ≤ cfg.maxDepth) (as : List Action) : Roomy cfg (stateAfter py cfg as) :=
  Mealy.after_inv (step py cfg) (Roomy cfg) .init
    ⟨by simp only [State.init, List.length_nil]; omega, nofun, nofun⟩
    (fun _ a h => roomy_step hdepth h a) as

/-- `ltrim` cuts nothing off. -/
theorem trimmed_eq_nil (hdepth : 1 ≤ cfg.maxDepth) (h : Roomy cfg s) {a : Action} {raws : List String}
    (he : (step py cfg s a).2 = .trimmed raws) : raws = [] := by
  cases a with
  | worker f =>
    have hlen := h.length
    cases hw : s.worker with
    | trim =>
      simp only [step, hw] at he
      rw [ltrim_of_le (by omega) (by omega), List.drop_length] at he
      exact (Event.trimmed.inj he).symm
    | _ =>
      simp only [step, hw] at he
      cases he
  | inference =>
    cases hi : s.inference <;> simp only [step, hi] at he <;> cases he

/-! ## The order -/

/-- The frame the camera worker is about to push. -/
def WorkerAt.pending : WorkerAt → List FramePointer
  | .full fp | .push fp => [fp]
  | _ => []

/-- The frames obtained, those queued from the oldest on, and the one to be pushed. -/
def line (s : State) (seen fps : List FramePointer) : List FramePointer := seen ++ fps.reverse ++ s.worker.pending

/-- `seen` were obtained and `fps` are queued, the newest first. -/
structure Lined (py : PyJson) (s : State) (seen fps : List FramePointer) : Prop where
  queue : s.queue = fps.map (payload py)
  ordered : (line s seen fps).Pairwise (·.frameSeq < ·.frameSeq)
  bound : ∀ fp ∈ line s seen fps, fp.frameSeq ≤ s.frameSeq

variable {s' : State} {seen seen' fps fps' : List FramePointer}

theorem Lined.sublist (h : Lined py s seen fps) (hqueue : s'.queue = fps'.map (payload py))
    (hseq : s'.frameSeq = s.frameSeq) (hline : (line s' seen' fps').Sublist (line s seen fps)) :
    Lined py s' seen' fps' where
  queue := hqueue
  ordered := h.ordered.sublist hline
  bound fp hfp := hseq ▸ h.bound fp (hline.subset hfp)

/-- A frame with a new number goes to the end of the line. -/
theorem Lined.concat (h : Lined py s seen fps) (fp : FramePointer)
    (hqueue : s'.queue = fps.map (payload py)) (hseq : s'.frameSeq = s.frameSeq + 1)
    (hfp : fp.frameSeq = s.frameSeq + 1)
    (hline : line s' seen fps = line s seen fps ++ [fp]) : Lined py s' seen fps where
  queue := hqueue
  ordered := by
    rw [hline, List.pairwise_append]
    refine ⟨h.ordered, List.pairwise_singleton _ _, fun x hx y hy => ?_⟩
    have hle := h.bound x hx
    obtain rfl := List.mem_singleton.1 hy
    omega
  bound x hx := by
    rw [hline, List.mem_append, List.mem_singleton] at hx
    rcases hx with hx | rfl
    · have hle := h.bound x hx
      omega
    · omega

/-- The camera worker's command: the line loses a frame, gets a new one, or moves on. -/
theorem lined_worker (hdepth : 1 ≤ cfg.maxDepth) (hroom : Roomy cfg s) (h : Lined py s seen fps) (f : Frame) :
    ∃ fps', Lined py (step py cfg s (.worker f)).1 seen fps' ∧ (step py cfg s (.worker f)).2.obtained = none := by
  have hlen := hroom.length
  cases hw : s.worker with
  | frame =>
    simp only [step, hw]
    refine ⟨fps, h.concat (pointer cfg (s.frameSeq + 1) f) h.queue rfl rfl ?_, rfl⟩
    rw [line, line, hw]
    split <;> simp [WorkerAt.pending]
  | full fp =>
    simp only [step, hw]
    rw [h.queue]
    rcases rpop_map py fps with ⟨rfl, hpop⟩ | ⟨rest, old, rfl, hpop⟩ <;> rw [hpop]
    · refine ⟨[], h.sublist rfl rfl ?_, rfl⟩
      rw [line, line, hw]
      exact .refl _
    · refine ⟨rest, h.sublist rfl rfl ?_, rfl⟩
      rw [line, line, hw, List.reverse_append]
      exact ((List.sublist_cons_self _ _).append_left seen).append_right _
  | push fp =>
    simp only [step, hw]
    refine ⟨fp :: fps, h.sublist ?_ rfl ?_, rfl⟩
    · rw [h.queue, List.map_cons]
    · rw [line, line, hw]
      simp [WorkerAt.pending]
  | trim =>
    simp only [step, hw]
    rw [ltrim_of_le (by omega) (by omega)]
    refine ⟨fps, h.sublist h.queue rfl ?_, rfl⟩
    rw [line, line, hw]
    exact .refl _
  | count =>
    simp only [step, hw]
    refine ⟨fps, h.sublist h.queue rfl ?_, rfl⟩
    rw [line, line, hw]
    exact .refl _

/-- The inference worker's command: the oldest frame is obtained, or none. -/
theorem lined_inference (hroom : Roomy cfg s) (h : Lined py s seen fps) :
    ∃ new fps', Lined py (step py cfg s .inference).1 (seen ++ new) fps' ∧
      (step py cfg s .inference).2.obtained.toList = new.map (payload py) := by
  cases hi : s.inference with
  | depth =>
    simp only [step, hi]
    refine ⟨[], fps, ?_, rfl⟩
    rw [List.append_nil]
    exact h.sublist h.queue rfl (.refl _)
  | drain left => exact absurd hi (hroom.drain left)
  | pop =>
    simp only [step, hi]
    rw [h.queue]
    rcases rpop_map py fps with ⟨rfl, hpop⟩ | ⟨rest, old, rfl, hpop⟩ <;> rw [hpop]
    · refine ⟨[], [], ?_, rfl⟩
      rw [List.append_nil]
      exact h.sublist rfl rfl (.refl _)
    · refine ⟨[old], rest, h.sublist rfl rfl ?_, ?_⟩
      · rw [line, line, List.reverse_append]
        simp
      · rw [obtained_payload]
        rfl

/-- One command, and the frame it obtained. -/
theorem lined_step (hdepth : 1 ≤ cfg.maxDepth) (hroom : Roomy cfg s) (h : Lined py s seen fps) (a : Action) :
    ∃ new fps', Lined py (step py cfg s a).1 (seen ++ new) fps' ∧
      (step py cfg s a).2.obtained.toList = new.map (payload py) := by
  cases a with
  | worker f =>
    obtain ⟨fps', hlined, hnone⟩ := lined_worker hdepth hroom h f
    refine ⟨[], fps', ?_, ?_⟩
    · rw [List.append_nil]
      exact hlined
    · rw [hnone]
      rfl
  | inference => exact lined_inference hroom h

/-- What was obtained is the front of the line. -/
theorem lined_after (py : PyJson) (hdepth : 1 ≤ cfg.maxDepth) (as : List Action) :
    ∃ seen fps, Lined py (stateAfter py cfg as) seen fps ∧ obtained py cfg as = seen.map (payload py) := by
  induction as using List.reverseRecOn with
  | nil => exact ⟨[], [], ⟨rfl, .nil, fun _ hfp => by cases hfp⟩, rfl⟩
  | append_singleton as a ih =>
    obtain ⟨seen, fps, hline, hobtained⟩ := ih
    obtain ⟨new, fps', hline', hnew⟩ := lined_step hdepth (roomy_after py hdepth as) hline a
    refine ⟨seen ++ new, fps', ?_, ?_⟩
    · rw [stateAfter, Mealy.after_concat]
      exact hline'
    · rw [obtained, events, Mealy.outs_append, List.filterMap_append, ← events, ← obtained, hobtained, List.map_append,
        ← hnew]
      congr 1

/-- The queue never holds more than the setting allows, so nothing is trimmed and
nothing drained, and frames are obtained in the order of their numbers. -/
theorem queue_bounded_ordered (py : PyJson) (cfg : Config) (hdepth : 1 ≤ cfg.maxDepth) (as : List Action) :
    ((stateAfter py cfg as).queue.length : Int) ≤ cfg.maxDepth ∧
      (∀ left, (stateAfter py cfg as).inference ≠ .drain left) ∧
      (∀ raws, .trimmed raws ∈ events py cfg as → raws = []) ∧
      ∃ fps : List FramePointer, (obtained py cfg as).map (readPointer py) = fps.map some ∧
        fps.Pairwise (·.frameSeq < ·.frameSeq) := by
  have hroom := roomy_after py hdepth as
  refine ⟨hroom.length, hroom.drain, fun raws hraws => ?_, ?_⟩
  · obtain ⟨pre, a, -, -, he⟩ := (Mealy.mem_outs _ _ _ _).1 hraws
    exact trimmed_eq_nil hdepth (roomy_after py hdepth pre) he.symm
  · obtain ⟨seen, fps, hline, hobtained⟩ := lined_after py hdepth as
    refine ⟨seen, ?_, ?_⟩
    · rw [hobtained, List.map_map]
      exact List.map_congr_left fun fp _ => readPointer_payload fp
    · refine hline.ordered.sublist ?_
      rw [line, List.append_assoc]
      exact List.sublist_append_left _ _

/-- A camera whose queue has room for `maxDepth` frames. -/
def camera (maxDepth : Int) : Config := ⟨"cam-01", "netra_cam-01", 1280, 720, maxDepth⟩

/-- Two frames, the length as the inference worker reads it, a third frame that finds the
queue full, and two pops. -/
def threeFrames : List Action :=
  List.replicate 4 (.worker ⟨0, 1, 0⟩) ++ List.replicate 4 (.worker ⟨1, 1, 1 / 15⟩) ++ [.inference] ++
    List.replicate 5 (.worker ⟨2, 1, 2 / 15⟩) ++ [.inference, .inference, .inference]

theorem obtained_threeFrames (py : PyJson) :
    obtained py (camera 2) threeFrames =
      [payload py (pointer (camera 2) 2 ⟨1, 1, 1 / 15⟩), payload py (pointer (camera 2) 3 ⟨2, 1, 2 / 15⟩)] := by
  simp [obtained, events, threeFrames, List.replicate_succ, step, State.init, camera, rpop, ltrim, List.filterMap_cons,
    Event.obtained, payload_ne]

/-- The first frame makes room for the third; the other two are obtained. -/
theorem queue_bounded_ordered_three :
    obtained PyJson.reference (camera 2) threeFrames =
        [payload PyJson.reference (pointer (camera 2) 2 ⟨1, 1, 1 / 15⟩),
          payload PyJson.reference (pointer (camera 2) 3 ⟨2, 1, 2 / 15⟩)] ∧
      ((stateAfter PyJson.reference (camera 2) threeFrames).queue.length : Int) ≤ 2 ∧
      ∃ fps : List FramePointer, (obtained PyJson.reference (camera 2) threeFrames).map (readPointer PyJson.reference) =
        fps.map some ∧ fps.Pairwise (·.frameSeq < ·.frameSeq) := by
  obtain ⟨hlen, -, -, hordered⟩ := queue_bounded_ordered PyJson.reference (camera 2) (by decide) threeFrames
  exact ⟨obtained_threeFrames _, hlen, hordered⟩

end Ingest

end Netra
