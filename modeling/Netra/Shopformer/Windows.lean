import Netra.Shopformer.PoseBuffer
import Netra.Wire.JsonLines
import Mathlib.Data.List.Chain
import Mathlib.Tactic.Linarith
/-!
# Windows across an absence

A window is handed to the model when it is full, so it holds the last poses of
its track. Eviction happens on an idle poll only: while entries keep coming,
poses of a track that was away, or of two persons with one track id, end up in
one window. Where an idle poll evicts in between (`EvictedBetween`), they do not
(`windows_hold`).
-/
namespace Netra

open PyLib Wire

namespace Shopformer

/-! ## What a turn does to one track -/

section
variable (py : PyText) (cameraId : String) (trackId : Int)

/-- The pose a turn pushes for the track. -/
def poseFor : Turn → Option Frame
  | .idle _ => none
  | .entry e => do
    let bev ← decodeBehaviorEvent py e.data
    if bev.suspicious ∧ bev.cameraId = cameraId ∧ bev.trackId = trackId then (← poseOf py e bev) else none

/-- The poses pushed for the track, in order. -/
def posesOf (ts : List Turn) : List Frame := ts.filterMap (poseFor py cameraId trackId)

theorem posesOf_concat (ts : List Turn) (t : Turn) :
    posesOf py cameraId trackId (ts ++ [t]) =
      posesOf py cameraId trackId ts ++ (poseFor py cameraId trackId t).toList := by
  rw [posesOf, List.filterMap_append, ← posesOf]
  congr 1

end

namespace PoseBuffer

variable {w : Settings} {b : PoseBuffer} {cameraId : String} {trackId : Int}

@[simp] theorem frames_new (key : String) : new.frames key = [] := rfl

theorem frames_push (x : Frame) (c : String) (k : Int) :
    (b.push w c k x).frames (Keys.key cameraId trackId) =
      if c = cameraId ∧ k = trackId then PyLib.push w.shopformerSeqLen (b.frames (Keys.key cameraId trackId)) x
      else b.frames (Keys.key cameraId trackId) := by
  rw [frames, push, Dict.get?_set]
  by_cases h : c = cameraId ∧ k = trackId
  · obtain ⟨rfl, rfl⟩ := h
    simp
  · have hkey : Keys.key cameraId trackId ≠ Keys.key c k := fun he =>
      h ⟨(Keys.key_inj.1 he).1.symm, (Keys.key_inj.1 he).2.symm⟩
    rw [if_neg h, if_neg hkey, ← frames]

@[simp] theorem frames_touch (c : String) (k : Int) (key : String) : (b.touch c k).frames key = b.frames key := by
  rw [frames, touch, Dict.get?_set]
  split
  · rename_i he
    rw [he, Option.getD_some]
  · rfl

@[simp] theorem frames_getSequence (c : String) (k : Int) (now : ℚ) (key : String) :
    (b.getSequence c k now).1.frames key = b.frames key := rfl

theorem frames_evictStale (now : ℚ) (key : String) :
    (b.evictStale now).frames key = if isStale now 30 (b.frames key) then [] else b.frames key := by
  rw [frames, evictStale, Dict.get?_filter, frames]
  cases hb : b.buffers.get? key with
  | none => simp
  | some buf => cases hs : isStale now 30 buf <;> simp [Option.filter, hs]

end PoseBuffer

section
variable {w : Settings} {py : PyText} {s : Worker} {b : PoseBuffer} {cameraId : String} {trackId : Int}

theorem frames_scoreIfReady (e : Entry) (bev : BehaviorEvent) (key : String) :
    (scoreIfReady w py e bev b).1.frames key = b.frames key := by
  rw [scoreIfReady]
  split <;> simp

/-- An entry is passed over, or its pose is pushed and its track's window looked at. -/
theorem handle_cases (w : Settings) (py : PyText) (b : PoseBuffer) (e : Entry) :
    (handle w py b e = (b, { acked := some e.mid }) ∧ ∀ c k, poseFor py c k (.entry e) = none) ∨
      ∃ bev pose, handle w py b e = scoreIfReady w py e bev (pushed w b bev pose) ∧
        ∀ c k, poseFor py c k (.entry e) = if bev.cameraId = c ∧ bev.trackId = k then pose else none := by
  cases hdecode : decodeBehaviorEvent py e.data with
  | none => exact .inl ⟨by simp [handle, hdecode], by simp [poseFor, hdecode]⟩
  | some bev =>
    by_cases hsuspicious : bev.suspicious = true
    · cases hpose : poseOf py e bev with
      | none =>
        exact .inl ⟨by simp [handle, hdecode, hsuspicious, hpose], by simp [poseFor, hdecode, hsuspicious, hpose]⟩
      | some pose =>
        exact .inr ⟨bev, pose, by simp [handle, hdecode, hsuspicious, hpose],
          by simp [poseFor, hdecode, hsuspicious, hpose]⟩
    · exact .inl ⟨by simp [handle, hdecode, hsuspicious], by simp [poseFor, hdecode, hsuspicious]⟩

/-- An entry pushes its pose to the window of its track. -/
theorem frames_handle (e : Entry) :
    (handle w py b e).1.frames (Keys.key cameraId trackId) =
      match poseFor py cameraId trackId (.entry e) with
      | none => b.frames (Keys.key cameraId trackId)
      | some x => PyLib.push w.shopformerSeqLen (b.frames (Keys.key cameraId trackId)) x := by
  rcases handle_cases w py b e with ⟨hhandle, hnone⟩ | ⟨bev, pose, hhandle, hpose⟩
  · rw [hhandle, hnone]
  · rw [hhandle, hpose, frames_scoreIfReady]
    cases pose with
    | none => simp [pushed]
    | some x =>
      rw [pushed, PoseBuffer.frames_push]
      by_cases hid : bev.cameraId = cameraId ∧ bev.trackId = trackId
      · rw [if_pos hid, if_pos hid]
      · rw [if_neg hid, if_neg hid]

theorem frames_turn_entry (e : Entry) :
    (turn w py s (.entry e)).1.poseBuffer.frames (Keys.key cameraId trackId) =
      match poseFor py cameraId trackId (.entry e) with
      | none => s.poseBuffer.frames (Keys.key cameraId trackId)
      | some x => PyLib.push w.shopformerSeqLen (s.poseBuffer.frames (Keys.key cameraId trackId)) x := frames_handle e

/-- An idle poll leaves a window alone, or evicts it. -/
theorem frames_turn_idle (now : ℚ) (key : String) :
    (turn w py s (.idle now)).1.poseBuffer.frames key =
      if 60 < now - s.lastEvict ∧ PoseBuffer.isStale now 30 (s.poseBuffer.frames key) then []
      else s.poseBuffer.frames key := by
  rw [turn]
  by_cases hperiod : 60 < now - s.lastEvict
  · rw [if_pos hperiod, PoseBuffer.frames_evictStale]
    simp [hperiod]
  · rw [if_neg hperiod, if_neg fun h => hperiod h.1]

/-- What is handed to the model is the whole window of the track, which is full. -/
theorem scored_turn {t : Turn} {sequence : List (List (Json × Json))}
    (h : (turn w py s t).2.scored = some (cameraId, trackId, sequence)) :
    sequence = ((turn w py s t).1.poseBuffer.frames (Keys.key cameraId trackId)).map Prod.snd ∧
      w.shopformerSeqLen ≤ ((turn w py s t).1.poseBuffer.frames (Keys.key cameraId trackId)).length := by
  cases t with
  | idle now =>
    rw [turn] at h
    split at h <;> cases h
  | entry e =>
    rw [turn] at h ⊢
    rcases handle_cases w py s.poseBuffer e with ⟨hhandle, -⟩ | ⟨bev, pose, hhandle, -⟩
    · rw [hhandle] at h
      cases h
    · rw [hhandle] at h ⊢
      dsimp only at h ⊢
      rw [frames_scoreIfReady]
      generalize pushed w s.poseBuffer bev pose = b at h ⊢
      rw [scoreIfReady] at h
      split at h
      · rename_i hready
        simp only [Option.some.injEq, Prod.mk.injEq] at h
        obtain ⟨rfl, rfl, rfl⟩ := h
        refine ⟨by simp [PoseBuffer.getSequence], ?_⟩
        rw [PoseBuffer.ready] at hready
        by_contra hlt
        rw [if_pos (not_le.1 hlt)] at hready
        cases hready
      · cases h

end

/-! ## Eviction -/

/-- `last_evict` after an idle poll. -/
def lastEvictAfter (t0 : ℚ) (ts : List Turn) : ℚ :=
  ts.foldl (fun last t =>
    match t with
    | .idle now => if 60 < now - last then now else last
    | .entry _ => last) t0

theorem lastEvict_workerAfter (w : Settings) (py : PyText) (t0 : ℚ) (ts : List Turn) :
    (workerAfter w py t0 ts).lastEvict = lastEvictAfter t0 ts := by
  induction ts using List.reverseRecOn with
  | nil => rfl
  | append_singleton ts t ih =>
    rw [workerAfter, Mealy.after_concat, ← workerAfter, lastEvictAfter, List.foldl_concat, ← lastEvictAfter, ← ih]
    cases t with
    | idle now =>
      rw [turn]
      dsimp only
      split <;> rfl
    | entry e => rfl

/-- The turn `t` after `ts` is an idle poll that evicts a window whose last pose is `x`. -/
def Evicts (t0 : ℚ) (ts : List Turn) (t : Turn) (x : Frame) : Prop :=
  ∃ now, t = .idle now ∧ 60 < now - lastEvictAfter t0 ts ∧ 30 < now - x.1

/-- Between two poses of a track that are more than 90 s apart there is an idle poll
that evicts the first. -/
def EvictedBetween (py : PyText) (t0 : ℚ) (ts : List Turn) : Prop :=
  ∀ cameraId trackId pre a mid b post x y, ts = pre ++ a :: (mid ++ b :: post) →
    poseFor py cameraId trackId a = some x → (∀ t ∈ mid, poseFor py cameraId trackId t = none) →
      poseFor py cameraId trackId b = some y → 90 < |y.1 - x.1| →
        ∃ mid₁ t mid₂, mid = mid₁ ++ t :: mid₂ ∧ Evicts t0 (pre ++ a :: mid₁) t x

theorem EvictedBetween.of_prefix {py : PyText} {t0 : ℚ} {ts ts' : List Turn} (h : EvictedBetween py t0 (ts ++ ts')) :
    EvictedBetween py t0 ts := by
  rintro cameraId trackId pre a mid b post x y rfl
  exact h cameraId trackId pre a mid b (post ++ ts') x y (by simp)

/-! ## Windows along a run -/

/-- Event times no more than 90 s apart. -/
def Near (x y : Frame) : Prop := |y.1 - x.1| ≤ 90

section
variable {w : Settings} {py : PyText} {t0 : ℚ} {cameraId : String} {trackId : Int} {ts : List Turn} {t : Turn}
  {fs : List Frame}

/-- What the turns `ts` make of a window: it holds the last poses of its track, and
nothing has evicted it since the last one came. -/
structure Kept (w : Settings) (py : PyText) (t0 : ℚ) (cameraId : String) (trackId : Int) (ts : List Turn)
    (fs : List Frame) : Prop where
  suffix : fs <:+ posesOf py cameraId trackId ts
  length : fs.length ≤ w.shopformerSeqLen
  chain : fs.IsChain Near
  since : ∀ x, fs.getLast? = some x → ∃ pre a mid, ts = pre ++ a :: mid ∧ poseFor py cameraId trackId a = some x ∧
    (∀ t ∈ mid, poseFor py cameraId trackId t = none) ∧
      ∀ mid₁ t mid₂, mid = mid₁ ++ t :: mid₂ → ¬ Evicts t0 (pre ++ a :: mid₁) t x

theorem Kept.empty (ts : List Turn) : Kept w py t0 cameraId trackId ts [] where
  suffix := List.nil_suffix
  length := Nat.zero_le _
  chain := .nil
  since x hx := by simp at hx

/-- A turn that neither pushes nor evicts. -/
theorem Kept.other (h : Kept w py t0 cameraId trackId ts fs) (hno : poseFor py cameraId trackId t = none)
    (hevicts : ∀ x, fs.getLast? = some x → ¬ Evicts t0 ts t x) :
    Kept w py t0 cameraId trackId (ts ++ [t]) fs where
  suffix := by
    rw [posesOf_concat, hno, Option.toList_none, List.append_nil]
    exact h.suffix
  length := h.length
  chain := h.chain
  since x hx := by
    obtain ⟨pre, a, mid, rfl, ha, hmid, hnever⟩ := h.since x hx
    refine ⟨pre, a, mid ++ [t], by simp, ha, fun t' ht' => ?_, fun mid₁ t' mid₂ he => ?_⟩
    · rcases List.mem_append.1 ht' with ht' | ht'
      · exact hmid t' ht'
      · exact List.mem_singleton.1 ht' ▸ hno
    · rcases Mealy.split_concat.1 he with ⟨rfl, rfl, -⟩ | ⟨mid₂', -, he⟩
      · exact hevicts x hx
      · exact hnever mid₁ t' mid₂' he

theorem rtake_suffix {α : Type} (n : Nat) (l : List α) : l.rtake n <:+ l := List.drop_suffix _ _

theorem length_rtake_le {α : Type} (n : Nat) (l : List α) : (l.rtake n).length ≤ n := by
  rw [List.rtake, List.length_drop]
  omega

/-- A pose joins a window whose last one is near, since else it would have been evicted. -/
theorem Kept.pushed {x : Frame} (hbetween : EvictedBetween py t0 (ts ++ [t]))
    (h : Kept w py t0 cameraId trackId ts fs) (hx : poseFor py cameraId trackId t = some x) :
    Kept w py t0 cameraId trackId (ts ++ [t]) (PyLib.push w.shopformerSeqLen fs x) where
  suffix := by
    rw [posesOf_concat, hx, Option.toList_some]
    refine (rtake_suffix _ _).trans ?_
    obtain ⟨old, hold⟩ := h.suffix
    exact ⟨old, by rw [← hold, List.append_assoc]⟩
  length := length_rtake_le _ _
  chain := by
    refine List.IsChain.suffix (List.isChain_append.2 ⟨h.chain, .singleton x, fun y hy z hz => ?_⟩) (rtake_suffix _ _)
    obtain rfl : x = z := by simpa using hz
    obtain ⟨pre, a, mid, rfl, ha, hmid, hnever⟩ := h.since y hy
    by_contra hfar
    obtain ⟨mid₁, t', mid₂, he, hevicts⟩ :=
      hbetween cameraId trackId pre a mid t [] y x (by simp) ha hmid hx (not_le.1 hfar)
    exact hnever mid₁ t' mid₂ he hevicts
  since y hy := by
    refine ⟨ts, t, [], rfl, ?_, by simp, by simp⟩
    have hlast : (PyLib.push w.shopformerSeqLen fs x).getLast? = none ∨
        (PyLib.push w.shopformerSeqLen fs x).getLast? = some x := by
      unfold PyLib.push
      cases w.shopformerSeqLen with
      | zero => exact .inl (by simp)
      | succ n => exact .inr (by rw [List.rtake_concat_succ, List.getLast?_concat])
    rcases hlast with hlast | hlast
    · rw [hlast] at hy
      cases hy
    · rw [hx, ← hlast, hy]

theorem Kept.turn {s : Worker} (hlast : s.lastEvict = lastEvictAfter t0 ts)
    (hbetween : EvictedBetween py t0 (ts ++ [t]))
    (h : Kept w py t0 cameraId trackId ts (s.poseBuffer.frames (Keys.key cameraId trackId))) :
    Kept w py t0 cameraId trackId (ts ++ [t])
      ((turn w py s t).1.poseBuffer.frames (Keys.key cameraId trackId)) := by
  cases t with
  | idle now =>
    rw [frames_turn_idle]
    split
    · exact .empty _
    · rename_i hkept
      refine h.other rfl ?_
      rintro x hx ⟨now', he, hperiod, hage⟩
      obtain rfl := Turn.idle.inj he
      rw [← hlast] at hperiod
      exact hkept ⟨hperiod, by simp [PoseBuffer.isStale, hx, hage]⟩
  | entry e =>
    rw [frames_turn_entry]
    cases hpose : poseFor py cameraId trackId (.entry e) with
    | none => exact h.other hpose fun x _ ⟨now, he, _⟩ => nomatch he
    | some x => exact h.pushed hbetween hpose

/-- Every window is kept through a run that evicts in between. -/
theorem kept_workerAfter (cameraId : String) (trackId : Int) (h : EvictedBetween py t0 ts) :
    Kept w py t0 cameraId trackId ts ((workerAfter w py t0 ts).poseBuffer.frames (Keys.key cameraId trackId)) := by
  induction ts using List.reverseRecOn with
  | nil => exact .empty []
  | append_singleton ts t ih =>
    rw [workerAfter, Mealy.after_concat, ← workerAfter]
    exact (ih h.of_prefix).turn (lastEvict_workerAfter w py t0 ts) h

end

/-- Every sequence handed to the model for a track is that of its last `seq_len`
poses, none of them more than 90 s from the next. -/
def WindowsHold (w : Settings) (py : PyText) (t0 : ℚ) (ts : List Turn) : Prop :=
  ∀ pre t post cameraId trackId sequence, ts = pre ++ t :: post →
    (turn w py (workerAfter w py t0 pre) t).2.scored = some (cameraId, trackId, sequence) →
      let fs := (posesOf py cameraId trackId (pre ++ [t])).rtake w.shopformerSeqLen
      sequence = fs.map Prod.snd ∧ fs.length = w.shopformerSeqLen ∧ fs.IsChain Near

theorem eq_rtake_of_suffix {α : Type} {n : Nat} {fs l : List α} (h : fs <:+ l) (hlength : fs.length = n) :
    fs = l.rtake n := by
  obtain ⟨old, rfl⟩ := h
  simp [List.rtake, ← hlength]

/-- Windows do not bridge an absence where an idle poll evicts in between. -/
theorem windows_hold (w : Settings) (py : PyText) (t0 : ℚ) (ts : List Turn) (h : EvictedBetween py t0 ts) :
    WindowsHold w py t0 ts := by
  rintro pre t post cameraId trackId sequence rfl hscored
  have hbetween : EvictedBetween py t0 (pre ++ [t]) := by
    rw [List.append_cons] at h
    exact h.of_prefix
  have hkept := kept_workerAfter (w := w) cameraId trackId hbetween
  obtain ⟨hsequence, hfull⟩ := scored_turn hscored
  rw [workerAfter, Mealy.after_concat, ← workerAfter] at hkept
  have hlength := le_antisymm hkept.length hfull
  have hlast := eq_rtake_of_suffix hkept.suffix hlength
  dsimp only
  rw [← hlast]
  exact ⟨hsequence, hlength, hkept.chain⟩

/-! ## A stream that is never idle -/

def suspect (t : ℚ) : BehaviorEvent :=
  { cameraId := "cam_1", trackId := 1, fsmState := .concealment, fsmScore := 0.8, suspicious := true, timestamp := t }

/-- One keypoint. -/
def keypoints : Json := .arr [.arr [.float 120, .float 80, .float 0.9]]

noncomputable def entryAt (t : ℚ) : Entry where
  mid := "1-0"
  data := encodeBehaviorEvent .reference (suspect t)
  redis _ := some (PyText.reference.dumps keypoints)
  score _ := some (0.5, 0.5, [])
  now := t

noncomputable def seenAt (t : ℚ) : Turn := .entry (entryAt t)

def poseAt (t : ℚ) : Frame := (t, [(.float 120, .float 80)])

theorem decode_entryAt (t : ℚ) : decodeBehaviorEvent .reference (entryAt t).data = some (suspect t) := by
  rw [entryAt, decode_encodeBehaviorEvent]
  rfl

theorem poseOf_entryAt (t : ℚ) : poseOf .reference (entryAt t) (suspect t) = some (some (poseAt t)) := by
  have hread : PyText.reference.loads (PyText.reference.dumps keypoints) = some keypoints :=
    PyText.reference.loads_dumps _ (.arr (by simp [Json.WellFormed.arr, Json.WellFormed.float]))
  have htext : PyText.reference.dumps keypoints ≠ "" := fun he =>
    PyJson.reference.dumps_ne keypoints (congrArg String.toList he)
  simp only [poseOf, entryAt, if_neg htext, hread]
  rfl

theorem poseFor_seenAt (cameraId : String) (trackId : Int) (t : ℚ) :
    poseFor .reference cameraId trackId (seenAt t) =
      if "cam_1" = cameraId ∧ 1 = trackId then some (poseAt t) else none := by
  rw [seenAt, poseFor, decode_entryAt, Option.bind_eq_bind, Option.bind_some, poseOf_entryAt]
  simp [suspect]

/-- `turn` on an entry of `seenAt`. -/
noncomputable def seenTurn (s : Worker) (t : ℚ) : Worker × Effects :=
  let (b, effects) := scoreIfReady .default .reference (entryAt t) (suspect t)
    (s.poseBuffer.push .default "cam_1" 1 (poseAt t))
  (⟨b, s.lastEvict⟩, effects)

theorem turn_seenAt (s : Worker) (t : ℚ) : turn .default .reference s (seenAt t) = seenTurn s t := by
  have hhandle : handle .default .reference s.poseBuffer (entryAt t) =
      scoreIfReady .default .reference (entryAt t) (suspect t) (s.poseBuffer.push .default "cam_1" 1 (poseAt t)) := by
    have hsuspicious : (suspect t).suspicious = true := rfl
    have hcamera : (suspect t).cameraId = "cam_1" := rfl
    have htrack : (suspect t).trackId = 1 := rfl
    simp only [handle, decode_entryAt, hsuspicious, if_true, poseOf_entryAt, pushed, hcamera, htrack]
  rw [seenAt, turn, hhandle, seenTurn]

theorem after_seenAt (s : Worker) (times : List ℚ) :
    Mealy.after (turn .default .reference) s (times.map seenAt) = Mealy.after seenTurn s times := by
  have hturn : (fun s t => turn .default .reference s (seenAt t)) = seenTurn :=
    funext fun s => funext fun t => turn_seenAt s t
  rw [Mealy.after_map, hturn]

theorem frames_seen (s : Worker) (t : ℚ) (h : (s.poseBuffer.frames (Keys.key "cam_1" 1)).length < 24) :
    (s.poseBuffer.push .default "cam_1" 1 (poseAt t)).frames (Keys.key "cam_1" 1) =
      s.poseBuffer.frames (Keys.key "cam_1" 1) ++ [poseAt t] := by
  have hroom : (s.poseBuffer.frames (Keys.key "cam_1" 1) ++ [poseAt t]).length - 24 = 0 := by
    rw [List.length_append, List.length_singleton]
    omega
  rw [PoseBuffer.frames_push, if_pos ⟨rfl, rfl⟩, PyLib.push, List.rtake]
  change List.drop (_ - 24) _ = _
  rw [hroom, List.drop_zero]

/-- While its window has room, an entry is not scored. -/
theorem seenTurn_short (s : Worker) (t : ℚ) (h : (s.poseBuffer.frames (Keys.key "cam_1" 1)).length + 1 < 24) :
    (seenTurn s t).1.poseBuffer.frames (Keys.key "cam_1" 1) = s.poseBuffer.frames (Keys.key "cam_1" 1) ++ [poseAt t] ∧
      (seenTurn s t).1.poseBuffer.lastScored = s.poseBuffer.lastScored := by
  have hframes := frames_seen s t (Nat.lt_of_succ_lt h)
  have hready : (s.poseBuffer.push .default "cam_1" 1 (poseAt t)).ready .default "cam_1" 1 (entryAt t).now = false := by
    rw [PoseBuffer.ready, hframes, List.length_append, List.length_singleton]
    exact if_pos h
  refine ⟨?_, ?_⟩
  · rw [seenTurn, ← hframes]
    exact frames_scoreIfReady _ _ _
  · simp only [seenTurn, scoreIfReady, suspect, hready]
    rfl

/-- No window of the track, and none scored. -/
def Fresh (s : Worker) : Prop := s.poseBuffer.frames (Keys.key "cam_1" 1) = [] ∧ s.poseBuffer.lastScored = .empty

theorem after_seenTurn {s : Worker} (hs : Fresh s) {times : List ℚ} (h : times.length < 24) :
    (Mealy.after seenTurn s times).poseBuffer.frames (Keys.key "cam_1" 1) = times.map poseAt ∧
      (Mealy.after seenTurn s times).poseBuffer.lastScored = .empty := by
  induction times using List.reverseRecOn with
  | nil => exact hs
  | append_singleton times t ih =>
    rw [List.length_append, List.length_singleton] at h
    obtain ⟨hframes, hscored⟩ := ih (Nat.lt_of_succ_lt h)
    have hturn := seenTurn_short (Mealy.after seenTurn s times) t (by rwa [hframes, List.length_map])
    rw [Mealy.after_concat, List.map_append, List.map_singleton, ← hframes, ← hscored]
    exact hturn

/-- The pose that fills the first window of the track has it scored. -/
theorem scored_seenAt {s : Worker} (hs : Fresh s) {times : List ℚ} (h : times.length = 23) {t : ℚ} (ht : 1.2 ≤ t) :
    ∃ sequence, (turn .default .reference (Mealy.after (turn .default .reference) s (times.map seenAt))
      (seenAt t)).2.scored = some ("cam_1", 1, sequence) ∧ sequence.length = 24 := by
  obtain ⟨hframes, hlast⟩ := after_seenTurn hs (h.trans_lt (by decide))
  rw [turn_seenAt, after_seenAt, seenTurn]
  generalize Mealy.after seenTurn s times = s' at hframes hlast ⊢
  have hpush := frames_seen s' t (by rw [hframes, List.length_map, h]; decide)
  rw [hframes] at hpush
  have hfull : (times.map poseAt ++ [poseAt t]).length = 24 := by simp [h]
  have hready : (s'.poseBuffer.push .default "cam_1" 1 (poseAt t)).ready .default "cam_1" 1 (entryAt t).now = true := by
    rw [PoseBuffer.ready, hpush, hfull, if_neg (by decide), PoseBuffer.push, hlast]
    change decide ((12 : ℚ) / 10 ≤ t - 0) = true
    rw [decide_eq_true_iff, sub_zero]
    linarith
  refine ⟨((times.map poseAt) ++ [poseAt t]).map Prod.snd, ?_, by rw [List.length_map, hfull]⟩
  simp only [scoreIfReady, suspect, hready, if_true, PoseBuffer.getSequence, PoseBuffer.frames_touch, hpush]

theorem posesOf_seenAt (times : List ℚ) : posesOf .reference "cam_1" 1 (times.map seenAt) = times.map poseAt := by
  rw [posesOf, List.filterMap_map]
  have hpose : poseFor .reference "cam_1" 1 ∘ seenAt = some ∘ poseAt := funext fun t => by
    rw [Function.comp_apply, poseFor_seenAt, if_pos ⟨rfl, rfl⟩, Function.comp_apply]
  rw [hpose, List.filterMap_eq_map]

/-! ### An idle poll in between -/

/-- Poses of visits without a gap follow each other closely. -/
theorem near_of_visit {ts : List ℚ} (hts : ts.IsChain fun a b => |b - a| ≤ 90) {cameraId : String} {trackId : Int}
    {pre mid post : List Turn} {a b : Turn} {x y : Frame} (he : ts.map seenAt = pre ++ a :: (mid ++ b :: post))
    (ha : poseFor .reference cameraId trackId a = some x)
    (hmid : ∀ t ∈ mid, poseFor .reference cameraId trackId t = none)
    (hb : poseFor .reference cameraId trackId b = some y) : |y.1 - x.1| ≤ 90 := by
  obtain ⟨l₁, l, rfl, rfl, hl⟩ := List.map_eq_append_iff.1 he
  obtain ⟨t, l', rfl, rfl, hl'⟩ := List.map_eq_cons_iff.1 hl
  obtain ⟨l₂, l'', rfl, rfl, hl''⟩ := List.map_eq_append_iff.1 hl'
  obtain ⟨u, l₃, rfl, rfl, rfl⟩ := List.map_eq_cons_iff.1 hl''
  rw [poseFor_seenAt] at ha hb
  obtain ⟨hid, ha⟩ := Option.ite_none_right_eq_some.1 ha
  obtain ⟨-, hb⟩ := Option.ite_none_right_eq_some.1 hb
  obtain rfl := Option.some.inj ha
  obtain rfl := Option.some.inj hb
  cases l₂ with
  | nil => exact (List.isChain_cons_cons.1 (List.isChain_append.1 hts).2.1).1
  | cons v l₂ =>
    have hv := hmid (seenAt v) (by simp)
    rw [poseFor_seenAt, if_pos hid] at hv
    cases hv

theorem lastEvictAfter_seenAt (t0 : ℚ) (ts : List ℚ) : lastEvictAfter t0 (ts.map seenAt) = t0 := by
  induction ts with
  | nil => rfl
  | cons t ts ih => exact ih

/-- Two visits without a gap, and in between an idle poll that is late enough. -/
theorem evictedBetween_visits {xs ys : List ℚ} {now : ℚ} (hxs : xs.IsChain fun a b => |b - a| ≤ 90)
    (hys : ys.IsChain fun a b => |b - a| ≤ 90) (hperiod : 60 < now) (hage : ∀ x ∈ xs, 30 < now - x) :
    EvictedBetween .reference 0 (xs.map seenAt ++ .idle now :: ys.map seenAt) := by
  intro cameraId trackId pre a mid b post x y he ha hmid hb hfar
  have hidle : poseFor .reference cameraId trackId (.idle now) = none := rfl
  have hne {t : Turn} {f : Frame} (hf : poseFor .reference cameraId trackId t = some f) (ht : .idle now = t) :
      False := by
    rw [← ht, hidle] at hf
    cases hf
  rcases List.append_eq_append_iff.1 he with ⟨as, rfl, has⟩ | ⟨bs, hpre, hbs⟩
  · -- both poses after the poll
    cases as with
    | nil => exact (hne ha (List.cons.inj has).1).elim
    | cons t as => exact absurd (near_of_visit hys (List.cons.inj has).2 ha hmid hb) (not_le.2 hfar)
  · cases bs with
    | nil => exact (hne ha (List.cons.inj hbs).1.symm).elim
    | cons t bs =>
      obtain ⟨rfl, hrest⟩ := List.cons.inj hbs
      rcases List.append_eq_append_iff.1 hrest with ⟨cs, rfl, hcs⟩ | ⟨cs, rfl, hcs⟩
      · -- both before it
        cases cs with
        | nil => exact (hne hb (List.cons.inj hcs).1.symm).elim
        | cons t cs =>
          obtain ⟨rfl, -⟩ := List.cons.inj hcs
          exact absurd (near_of_visit hxs hpre ha hmid hb) (not_le.2 hfar)
      · cases cs with
        | nil => exact (hne hb (List.cons.inj hcs).1).elim
        | cons t cs =>
          obtain ⟨rfl, -⟩ := List.cons.inj hcs
          refine ⟨bs, .idle now, cs, rfl, now, rfl, ?_, ?_⟩
          · rw [← hpre, lastEvictAfter_seenAt, sub_zero]
            exact hperiod
          · obtain ⟨t, ht, rfl⟩ := List.mem_map.1 (hpre ▸ List.mem_append_right pre List.mem_cons_self)
            rw [poseFor_seenAt] at ha
            obtain ⟨-, ha⟩ := Option.ite_none_right_eq_some.1 ha
            obtain rfl := Option.some.inj ha
            exact hage t ht

/-- Two poses, then a minute without an entry. -/
noncomputable def firstVisit : List Turn := [1, 2].map seenAt ++ [.idle 70]

/-- Two minutes later, all but the last pose of a window. -/
def secondVisit : List ℚ := (List.range 23).map fun i => (i + 201 : ℚ)

theorem fresh_firstVisit : Fresh (workerAfter .default .reference 0 firstVisit) := by
  have hlast := lastEvict_workerAfter .default .reference 0 ([1, 2].map seenAt)
  rw [lastEvictAfter_seenAt, workerAfter, after_seenAt] at hlast
  obtain ⟨hframes, hscored⟩ := after_seenTurn (s := .start 0) ⟨rfl, rfl⟩ (show [1, 2].length < 24 by decide)
  rw [firstVisit, workerAfter, Mealy.after_concat, after_seenAt, turn, hlast, if_pos (by norm_num)]
  constructor
  · rw [PoseBuffer.frames_evictStale, hframes]
    exact if_pos (by decide +kernel)
  · simp only [PoseBuffer.evictStale, hscored]
    rfl

/-- A poll evicts the poses of the first visit; the second visit's fill a window, which is
handed to the model. -/
theorem windows_hold_away :
    WindowsHold .default .reference 0 (firstVisit ++ (secondVisit ++ [224]).map seenAt) ∧
      ∃ sequence, (turn .default .reference (workerAfter .default .reference 0 (firstVisit ++ secondVisit.map seenAt))
        (seenAt 224)).2.scored = some ("cam_1", 1, sequence) ∧ sequence.length = 24 := by
  refine ⟨windows_hold _ _ _ _ ?_, ?_⟩
  · rw [firstVisit, List.append_assoc]
    exact evictedBetween_visits (by decide +kernel) (by decide +kernel) (by norm_num) (by decide +kernel)
  · rw [workerAfter, Mealy.after_append]
    exact scored_seenAt fresh_firstVisit (by decide) (by norm_num)

/-! ### None -/

/-- Twelve poses, three minutes without one, twelve poses. -/
def twoVisits : List ℚ := (List.range 12).map (fun i => (i + 1 : ℚ)) ++ (List.range 11).map fun i => (i + 201 : ℚ)

/-- The stream is never idle: the window of the last entry spans the absence. -/
theorem windows_hold_fails : ¬ WindowsHold .default .reference 0 ((twoVisits ++ [212]).map seenAt) := by
  intro h
  obtain ⟨sequence, hscored, -⟩ := scored_seenAt (s := .start 0) ⟨rfl, rfl⟩ (show twoVisits.length = 23 by decide)
    (t := 212) (by norm_num)
  obtain ⟨-, -, hchain⟩ := h (twoVisits.map seenAt) (seenAt 212) [] "cam_1" 1 sequence (by simp) hscored
  have hposes :
      posesOf .reference "cam_1" 1 (twoVisits.map seenAt ++ [seenAt 212]) = (twoVisits ++ [212]).map poseAt := by
    rw [← posesOf_seenAt, List.map_append, List.map_singleton]
  rw [hposes] at hchain
  have htimes : ((((twoVisits ++ [212]).map poseAt).rtake 24).map Prod.fst).IsChain fun a b : ℚ => |b - a| ≤ 90 :=
    (List.isChain_map Prod.fst).2 hchain
  exact absurd htimes (by decide +kernel)

end Shopformer

end Netra
