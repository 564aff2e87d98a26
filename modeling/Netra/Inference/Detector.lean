import Netra.Lib.Argmax
import Netra.Lib.Dict
import Netra.Lib.Machine
import Netra.Lib.Numeric
import Netra.Lib.Scatter
import Netra.Types
/-!
# The detector

`YOLODetector.detect` (`backend/services/inference/ml/detector.py`): the boxes of a
frame, a tracker for each camera, and the pose of each person from a batch of crops.
The networks and the trackers are parameters (`Models`). Every pose is the one
estimated on the person's own crop and lies in it (`detect_reports`). A camera whose
tracker could be made is tracked as if it were alone, and the others share one tracker
(`cameras_tracked`), as long as the trackers share nothing among themselves.
-/
namespace Netra.Inference

open PyLib

/-! ## Results -/

/-- A box of the results. -/
structure Box where
  cls : Int
  conf : ℚ
  xyxy : BBox
  id : Option Int

/-- A row of `raw_dets` -/
structure RawDet where
  xyxy : BBox
  conf : ℚ
  cls : Int

/-- A row of what `OcSort.update` returns. -/
structure TrackRow where
  xyxy : BBox
  trackId : ℚ
  conf : ℚ
  cls : ℚ

/-- `_RETAIL_ITEM_CLASSES` -/
def retailItemClasses : List String := [
  "backpack", "handbag", "suitcase",
  "bottle", "wine glass", "cup", "fork", "knife", "spoon", "bowl",
  "banana", "apple", "sandwich", "orange", "broccoli", "carrot",
  "hot dog", "pizza", "donut", "cake",
  "cell phone", "laptop", "mouse", "remote", "keyboard",
  "book", "clock", "vase", "scissors", "teddy bear",
  "hair drier", "toothbrush", "umbrella"]

/-- The arguments of `detect`, and its `time.time()`. -/
structure Call (F : Type) where
  frame : F
  cameraId : String
  frameSeq : Int := 0
  runPose : Bool := true
  ts : ℚ

/-! ## Poses -/

/-- `frame[y1:y2, x1:x2]` -/
structure Crop (F : Type) where
  frame : F
  x1 : Int
  y1 : Int
  x2 : Int
  y2 : Int

/-- What the session of `RTMPoseEstimator` returns for a crop. -/
structure SimCC where
  x : Fin 17 → Fin 384 → ℚ
  y : Fin 17 → Fin 512 → ℚ

/-- `_rtmpose` or `_pose_model`; `none` when it raises. -/
inductive PoseEstimator (F : Type) where
  | rtmpose (session : List (Crop F) → Option (List SimCC)) (softmaxMax : List ℚ → ℚ)
  | yolo (model : List (Crop F) → Option (List (Option (List Keypoint))))

/-- `np.argmax` -/
def argmax {n : Nat} (f : Fin (n + 1) → ℚ) : Fin (n + 1) :=
  (Argmax.keepBest f (0, f 0) (List.finRange (n + 1))).1

namespace RTMPoseEstimator

def inputW : ℚ := 192
def inputH : ℚ := 256

variable {F : Type} (softmaxMax : List ℚ → ℚ)

/-- The keypoints of a crop, in the coordinates of the frame. -/
def keypoints (c : Crop F) (s : SimCC) : List Keypoint :=
  (List.finRange 17).map fun k => {
    x := (argmax (s.x k)).val / 2 * ((c.x2 - c.x1 : Int) / inputW) + c.x1
    y := (argmax (s.y k)).val / 2 * ((c.y2 - c.y1 : Int) / inputH) + c.y1
    conf := (softmaxMax (List.ofFn (s.x k)) + softmaxMax (List.ofFn (s.y k))) * (1 / 2) }

/-- `estimate`; fewer results than crops are an `IndexError`. -/
def estimate (session : List (Crop F) → Option (List SimCC)) (crops : List (Crop F)) :
    Option (List (List Keypoint)) :=
  match session crops with
  | none => none
  | some out => if out.length < crops.length then none else some (crops.zipWith (keypoints softmaxMax) out)

end RTMPoseEstimator

/-- The networks and the trackers of a detector. Two things are assumed of them: `OcSort`
objects share nothing, not even the count of their ids, and `predict` is what it is
whether or not `track(persist=True)` was called before. -/
structure Models (F τ υ : Type) where
  /-- `res.names` -/
  names : Int → String
  /-- `self._model(frame)`; `none` is a result without boxes. -/
  predict : F → Option (List Box)
  /-- `self._model.track(frame, persist=True)` -/
  track : υ → F → υ × Option (List Box)
  /-- `TrackerManager(camera_id)._tracker` -/
  newTracker : String → Option τ
  /-- `OcSort.update` -/
  update : τ → List RawDet → F → τ × Option (List TrackRow)
  /-- `frame.shape[:2]`, the height first -/
  shape : F → Int × Int
  pose : PoseEstimator F

namespace Models

variable {F τ υ : Type} (m : Models F τ υ)

/-- The crop of a person, unless it is too small. -/
def cropOf (frame : F) (p : PersonDetection) : Option (Crop F) :=
  let (h, w) := m.shape frame
  let x1 := max 0 (trunc p.bbox.x1)
  let y1 := max 0 (trunc p.bbox.y1)
  let x2 := min w (trunc p.bbox.x2)
  let y2 := min h (trunc p.bbox.y2)
  let cw := x2 - x1
  let ch := y2 - y1
  if cw < 16 ∨ ch < 16 then none else some ⟨frame, x1, y1, x2, y2⟩

/-- `crops`, `crop_origins` and `crop_sizes`, with `crop_indices` -/
def crops (frame : F) (persons : List PersonDetection) : List (Nat × Crop F) :=
  Batch.gather (m.cropOf frame) persons

/-- A person without an answer keeps its keypoints. -/
def setKeypoints (p : PersonDetection) (answer : Option (List Keypoint)) : PersonDetection :=
  match answer with
  | some kps => { p with keypoints := kps }
  | none => p

/-- What `_run_rtmpose` or `_run_yolo_pose` assigns for each crop; nothing when the estimator
raises. -/
def answers (crops : List (Crop F)) : List (Option (List Keypoint)) :=
  match m.pose with
  | .rtmpose session softmaxMax =>
    match RTMPoseEstimator.estimate softmaxMax session crops with
    | some poses => poses.map some
    | none => []
  | .yolo model =>
    match model crops with
    | some results => crops.zipWith (fun c r => r.map fun kpData => (kpData.take 17).map fun kp =>
        { kp with x := kp.x + c.x1, y := kp.y + c.y1 }) results
    | none => []

/-- `_run_pose` -/
def runPose (frame : F) (persons : List PersonDetection) : List PersonDetection :=
  let crops := m.crops frame persons
  if crops.isEmpty then persons
  else Batch.scatter setKeypoints persons ((crops.map Prod.fst).zip (m.answers (crops.map Prod.snd)))

/-! ## Detections and tracks -/

/-- The variables of the loop of `_parse_detections`. -/
structure Parsed where
  persons : List PersonDetection := []
  items : List ItemDetection := []
  rawRows : List RawDet := []
  itemIdCounter : Int := 0

def parseBox (c : Call F) (useTrackIds : Bool) (r : Parsed) (box : Box × Nat) : Parsed :=
  let (box, i) := box
  let className := m.names box.cls
  let r := { r with rawRows := r.rawRows ++ [⟨box.xyxy, box.conf, box.cls⟩] }
  if className = "person" then
    let trackId := if useTrackIds then box.id.getD (-i) else -i
    { r with persons := r.persons ++ [{
        trackId, cameraId := c.cameraId, bbox := box.xyxy, confidence := box.conf, keypoints := [],
        timestamp := c.ts, frameSeq := c.frameSeq }] }
  else if className ∈ retailItemClasses then
    { r with
      items := r.items ++ [{
        itemId := r.itemIdCounter, cameraId := c.cameraId, bbox := box.xyxy, className, confidence := box.conf,
        timestamp := c.ts }]
      itemIdCounter := r.itemIdCounter + 1 }
  else r

/-- `_parse_detections` -/
def parseDetections (results : Option (List Box)) (c : Call F) (useTrackIds : Bool) : Parsed :=
  match results with
  | none => {}
  | some boxes => boxes.zipIdx.foldl (m.parseBox c useTrackIds) {}

/-- `TrackerManager.update` -/
def updateTracker (t : τ) (detections : List RawDet) (frame : F) : τ × List TrackRow :=
  let (t, result) := m.update t detections frame
  (t, result.getD [])

/-- `_apply_ocsort`, on what the tracker returns -/
def trackedPersons (c : Call F) (trackOut : List TrackRow) : List PersonDetection :=
  trackOut.filterMap fun row =>
    if trunc row.cls ≠ 0 then none
    else some {
      trackId := trunc row.trackId, cameraId := c.cameraId, bbox := row.xyxy, confidence := row.conf, keypoints := [],
      timestamp := c.ts, frameSeq := c.frameSeq }

/-- The end of `detect` -/
def posed (c : Call F) (persons : List PersonDetection) : List PersonDetection :=
  if c.runPose ∧ persons ≠ [] then m.runPose c.frame persons else persons

/-- `detect`, with the tracker of the camera -/
def detectOcsort (t : τ) (c : Call F) : τ × List PersonDetection × List ItemDetection :=
  let parsed := m.parseDetections (m.predict c.frame) c false
  let (t, trackOut) := m.updateTracker t parsed.rawRows c.frame
  (t, m.posed c (trackedPersons c trackOut), parsed.items)

/-- `detect`, with the tracker of the model -/
def detectFallback (s : υ) (c : Call F) : υ × List PersonDetection × List ItemDetection :=
  let (s, results) := m.track s c.frame
  let parsed := m.parseDetections results c true
  (s, m.posed c parsed.persons, parsed.items)

end Models

/-- `_trackers`, and what the model keeps from one call of `track` to the next. -/
structure YOLODetector (τ υ : Type) where
  trackers : Dict String (Option τ)
  model : υ

namespace YOLODetector

variable {F τ υ : Type}

def init (s : υ) : YOLODetector τ υ := ⟨.empty, s⟩

/-- `_get_tracker` -/
def getTracker (m : Models F τ υ) (d : YOLODetector τ υ) (cameraId : String) : Option τ :=
  (d.trackers.get? cameraId).getD (m.newTracker cameraId)

/-- `detect` -/
def detect (m : Models F τ υ) (d : YOLODetector τ υ) (c : Call F) :
    YOLODetector τ υ × List PersonDetection × List ItemDetection :=
  match d.getTracker m c.cameraId with
  | some t =>
    let (t, out) := m.detectOcsort t c
    ({ d with trackers := d.trackers.set c.cameraId (some t) }, out)
  | none =>
    let (s, out) := m.detectFallback d.model c
    (⟨d.trackers.set c.cameraId none, s⟩, out)

end YOLODetector

/-! ## Poses lie in their crops -/

/-- A crop lies in a frame of size `h × w` and is not too small. -/
structure Crop.Inside {F : Type} (h w : Int) (c : Crop F) : Prop where
  left : 0 ≤ c.x1
  top : 0 ≤ c.y1
  right : c.x2 ≤ w
  bottom : c.y2 ≤ h
  width : 16 ≤ c.x2 - c.x1
  height : 16 ≤ c.y2 - c.y1

/-- A keypoint lies in a crop. -/
def Crop.Holds {F : Type} (c : Crop F) (kp : Keypoint) : Prop :=
  (c.x1 ≤ kp.x ∧ kp.x < c.x2) ∧ c.y1 ≤ kp.y ∧ kp.y < c.y2

/-- Bin `i` of `n` bins of half a pixel, scaled to `lo … hi`. -/
theorem scaled_mem {n : Nat} (i : Fin (2 * n)) {lo hi : Int} (hlt : lo < hi) :
    (lo : ℚ) ≤ (i.val : ℚ) / 2 * ((hi - lo : Int) / (n : ℚ)) + lo ∧
      (i.val : ℚ) / 2 * ((hi - lo : Int) / (n : ℚ)) + lo < hi := by
  have hi' : (i.val : ℚ) < 2 * n := by exact_mod_cast i.isLt
  have hn : (0 : ℚ) < n := by
    have : (0 : ℚ) ≤ i.val := Nat.cast_nonneg _
    linarith
  have hsize : (0 : ℚ) < (hi - lo : Int) := by exact_mod_cast sub_pos.2 hlt
  have hscale : (0 : ℚ) < (hi - lo : Int) / (n : ℚ) := div_pos hsize hn
  constructor
  · have : (0 : ℚ) ≤ (i.val : ℚ) / 2 * ((hi - lo : Int) / (n : ℚ)) := by positivity
    linarith
  · have hless : (i.val : ℚ) / 2 * ((hi - lo : Int) / (n : ℚ)) < n * ((hi - lo : Int) / (n : ℚ)) :=
      mul_lt_mul_of_pos_right (by linarith) hscale
    rw [mul_div_cancel₀ _ hn.ne'] at hless
    push_cast at hless ⊢
    linarith

theorem RTMPoseEstimator.keypoints_holds {F : Type} (softmaxMax : List ℚ → ℚ) {h w : Int} {c : Crop F}
    (hc : c.Inside h w) (s : SimCC) : ∀ kp ∈ keypoints softmaxMax c s, c.Holds kp := by
  intro kp hkp
  obtain ⟨k, -, rfl⟩ := List.mem_map.1 hkp
  have hwidth := hc.width
  have hheight := hc.height
  exact ⟨scaled_mem (n := 192) (argmax (s.x k)) (by omega), scaled_mem (n := 256) (argmax (s.y k)) (by omega)⟩

theorem RTMPoseEstimator.getElem?_estimate {F : Type} {softmaxMax : List ℚ → ℚ}
    {session : List (Crop F) → Option (List SimCC)} {crops : List (Crop F)} {poses : List (List Keypoint)}
    (he : estimate softmaxMax session crops = some poses) {j : Nat} {c : Crop F} {kps : List Keypoint}
    (hc : crops[j]? = some c) (hkps : poses[j]? = some kps) : ∃ s, kps = keypoints softmaxMax c s := by
  unfold estimate at he
  cases hs : session crops with
  | none =>
    rw [hs] at he
    cases he
  | some out =>
    rw [hs] at he
    dsimp only at he
    split at he
    · cases he
    · obtain rfl := Option.some.inj he
      obtain ⟨c', s, hc', -, rfl⟩ := List.getElem?_zipWith_eq_some.1 hkps
      obtain rfl := Option.some.inj (hc.symm.trans hc')
      exact ⟨s, rfl⟩

namespace Models

variable {F τ υ : Type} {m : Models F τ υ}

theorem cropOf_inside {frame : F} {p : PersonDetection} {c : Crop F} (h : m.cropOf frame p = some c) :
    c.Inside (m.shape frame).1 (m.shape frame).2 := by
  unfold cropOf at h
  generalize m.shape frame = shape at h ⊢
  dsimp only at h
  split at h
  · cases h
  · rename_i hsize
    obtain rfl := Option.some.inj h
    refine ⟨?_, ?_, ?_, ?_, ?_, ?_⟩ <;> dsimp only <;> omega

/-- A person before and after `_run_pose`. -/
inductive Posed (m : Models F τ υ) (frame : F) (persons : List PersonDetection) (k : Nat) (p : PersonDetection) :
    PersonDetection → Prop where
  /-- The crop is too small, or there is no answer to it. -/
  | kept : Posed m frame persons k p p
  /-- The answer to the person's own crop. -/
  | own (c : Crop F) (kps : List Keypoint) (crop : m.cropOf frame p = some c)
      (place : (m.crops frame persons)[Batch.rank (m.cropOf frame) persons k]? = some (k, c))
      (answer : (m.answers ((m.crops frame persons).map Prod.snd))[Batch.rank (m.cropOf frame) persons k]? =
        some (some kps)) : Posed m frame persons k p { p with keypoints := kps }

theorem getElem?_runPose (frame : F) {persons : List PersonDetection} {k : Nat} {p : PersonDetection}
    (hk : persons[k]? = some p) : ∃ q, (m.runPose frame persons)[k]? = some q ∧ Posed m frame persons k p q := by
  unfold runPose
  dsimp only
  split
  · exact ⟨p, hk, .kept⟩
  · cases hc : m.cropOf frame p with
    | none => exact ⟨p, Batch.getElem?_scatter_of_none _ hk hc, .kept⟩
    | some c =>
      cases ha : (m.answers ((m.crops frame persons).map Prod.snd))[Batch.rank (m.cropOf frame) persons k]? with
      | none => exact ⟨p, Batch.getElem?_scatter_of_unanswered hk hc ha, .kept⟩
      | some answer =>
        refine ⟨setKeypoints p answer, Batch.getElem?_scatter_of_some hk hc ha, ?_⟩
        cases answer with
        | none => exact .kept
        | some kps => exact .own c kps hc (Batch.getElem?_gather hk hc) ha

theorem length_runPose (frame : F) (persons : List PersonDetection) :
    (m.runPose frame persons).length = persons.length := by
  unfold runPose
  dsimp only
  split
  · rfl
  · exact Batch.length_scatter ..

/-- What RTMPose answers to a crop are keypoints in it. -/
theorem answers_holds {session : List (Crop F) → Option (List SimCC)} {softmaxMax : List ℚ → ℚ}
    (hpose : m.pose = .rtmpose session softmaxMax) {h w : Int} {crops : List (Crop F)} {j : Nat} {c : Crop F}
    {kps : List Keypoint} (hc : crops[j]? = some c) (hinside : c.Inside h w)
    (ha : (m.answers crops)[j]? = some (some kps)) : kps.length = 17 ∧ ∀ kp ∈ kps, c.Holds kp := by
  unfold answers at ha
  rw [hpose] at ha
  dsimp only at ha
  cases he : RTMPoseEstimator.estimate softmaxMax session crops with
  | none =>
    rw [he] at ha
    cases ha
  | some poses =>
    rw [he] at ha
    dsimp only at ha
    rw [List.getElem?_map] at ha
    obtain ⟨kps', hkps, hsome⟩ := Option.map_eq_some_iff.1 ha
    obtain rfl := Option.some.inj hsome
    obtain ⟨s, rfl⟩ := RTMPoseEstimator.getElem?_estimate he hc hkps
    exact ⟨by rw [RTMPoseEstimator.keypoints, List.length_map, List.length_finRange],
      RTMPoseEstimator.keypoints_holds softmaxMax hinside s⟩

/-! ## Items are numbered, persons are tagged -/

/-- The boxes of retail items. -/
def retailBoxes (m : Models F τ υ) (boxes : List Box) : List Box :=
  boxes.filter fun b => m.names b.cls ∈ retailItemClasses

/-- The `n`-th item of a frame. -/
def itemOf (m : Models F τ υ) (c : Call F) (n : Nat) (b : Box) : ItemDetection where
  itemId := n
  cameraId := c.cameraId
  bbox := b.xyxy
  className := m.names b.cls
  confidence := b.conf
  timestamp := c.ts

/-- A person of this frame. -/
structure Tagged (c : Call F) (p : PersonDetection) : Prop where
  camera : p.cameraId = c.cameraId
  time : p.timestamp = c.ts
  frame : p.frameSeq = c.frameSeq

/-- The loop over the boxes, after `boxes`. -/
structure ParsedAfter (m : Models F τ υ) (c : Call F) (boxes : List Box) (r : Parsed) : Prop where
  items : r.items = (m.retailBoxes boxes).mapIdx (m.itemOf c)
  counter : r.itemIdCounter = (m.retailBoxes boxes).length
  tagged : ∀ p ∈ r.persons, Tagged c p ∧ p.keypoints = []

theorem parsedAfter_box {c : Call F} {boxes : List Box} {r : Parsed} (h : ParsedAfter m c boxes r) (useTrackIds : Bool)
    (b : Box) (i : Nat) : ParsedAfter m c (boxes ++ [b]) (m.parseBox c useTrackIds r (b, i)) := by
  obtain ⟨hitems, hcounter, htagged⟩ := h
  unfold parseBox
  dsimp only
  split
  · -- "person" is not a retail item
    rename_i hperson
    have hnot : m.names b.cls ∉ retailItemClasses := by
      rw [hperson]
      decide
    have hboxes : m.retailBoxes (boxes ++ [b]) = m.retailBoxes boxes := by
      simp [retailBoxes, hnot]
    refine ⟨by rw [hboxes]; exact hitems, by rw [hboxes]; exact hcounter, fun p hp => ?_⟩
    rcases List.mem_append.1 hp with hp | hp
    · exact htagged p hp
    · obtain rfl := List.mem_singleton.1 hp
      exact ⟨⟨rfl, rfl, rfl⟩, rfl⟩
  · split
    · rename_i hitem
      have hboxes : m.retailBoxes (boxes ++ [b]) = m.retailBoxes boxes ++ [b] := by
        simp [retailBoxes, hitem]
      refine ⟨?_, ?_, htagged⟩
      · rw [hboxes, List.mapIdx_concat, ← hitems]
        dsimp only
        rw [hcounter]
        rfl
      · rw [hboxes, hcounter, List.length_append]
        rfl
    · rename_i hitem
      have hboxes : m.retailBoxes (boxes ++ [b]) = m.retailBoxes boxes := by
        simp [retailBoxes, hitem]
      exact ⟨by rw [hboxes]; exact hitems, by rw [hboxes]; exact hcounter, htagged⟩

theorem parsedAfter_parse (results : Option (List Box)) (c : Call F) (useTrackIds : Bool) :
    ParsedAfter m c (results.getD []) (m.parseDetections results c useTrackIds) := by
  cases results with
  | none => exact ⟨rfl, rfl, nofun⟩
  | some boxes =>
    simp only [parseDetections, Option.getD_some]
    induction boxes using List.reverseRecOn with
    | nil => exact ⟨rfl, rfl, nofun⟩
    | append_singleton boxes b ih =>
      rw [List.zipIdx_append, List.foldl_append]
      exact parsedAfter_box ih useTrackIds b _

theorem tagged_trackedPersons (c : Call F) (trackOut : List TrackRow) :
    ∀ p ∈ trackedPersons c trackOut, Tagged c p ∧ p.keypoints = [] := by
  intro p hp
  obtain ⟨row, -, hrow⟩ := List.mem_filterMap.1 hp
  split at hrow
  · cases hrow
  · obtain rfl := Option.some.inj hrow
    exact ⟨⟨rfl, rfl, rfl⟩, rfl⟩

theorem Posed.tagged {c : Call F} {frame : F} {persons : List PersonDetection} {k : Nat} {p q : PersonDetection}
    (h : Posed m frame persons k p q) (hp : Tagged c p) : Tagged c q := by
  cases h with
  | kept => exact hp
  | own crop kps => exact ⟨hp.camera, hp.time, hp.frame⟩

theorem getElem?_posed (c : Call F) {persons : List PersonDetection} {k : Nat} {p : PersonDetection}
    (hk : persons[k]? = some p) : ∃ q, (m.posed c persons)[k]? = some q ∧ Posed m c.frame persons k p q := by
  unfold posed
  split
  · exact getElem?_runPose c.frame hk
  · exact ⟨p, hk, .kept⟩

theorem length_posed (c : Call F) (persons : List PersonDetection) : (m.posed c persons).length = persons.length := by
  unfold posed
  split
  · exact length_runPose c.frame persons
  · rfl

end Models

/-! ## One call -/

namespace YOLODetector

open Models

variable {F τ υ : Type} (m : Models F τ υ)

/-- The persons of a call before their poses, and the boxes of the frame. -/
def found (d : YOLODetector τ υ) (c : Call F) : List PersonDetection × List Box :=
  match d.getTracker m c.cameraId with
  | some t =>
    (trackedPersons c (m.updateTracker t (m.parseDetections (m.predict c.frame) c false).rawRows c.frame).2,
      (m.predict c.frame).getD [])
  | none =>
    ((m.parseDetections (m.track d.model c.frame).2 c true).persons, (m.track d.model c.frame).2.getD [])

theorem detect_found (d : YOLODetector τ υ) (c : Call F) :
    (d.detect m c).2 = (m.posed c (d.found m c).1, (m.retailBoxes (d.found m c).2).mapIdx (m.itemOf c)) ∧
      ∀ p ∈ (d.found m c).1, Tagged c p ∧ p.keypoints = [] := by
  unfold detect found
  cases d.getTracker m c.cameraId with
  | some t => exact ⟨by rw [← (parsedAfter_parse _ c false).items]; rfl, tagged_trackedPersons c _⟩
  | none =>
    have hparsed := parsedAfter_parse (m := m) (m.track d.model c.frame).2 c true
    exact ⟨by rw [← hparsed.items]; rfl, hparsed.tagged⟩

/-- What `detect` returns. -/
structure Reports (d : YOLODetector τ υ) (c : Call F) (out : List PersonDetection × List ItemDetection) : Prop where
  /-- The items are the retail boxes in order, numbered from 0. -/
  items : out.2 = (m.retailBoxes (d.found m c).2).mapIdx (m.itemOf c)
  length : out.1.length = (d.found m c).1.length
  /-- A person has no keypoints, or those of its own crop. -/
  posed : ∀ k p, (d.found m c).1[k]? = some p →
    p.keypoints = [] ∧ ∃ q, out.1[k]? = some q ∧ Posed m c.frame (d.found m c).1 k p q
  tagged : ∀ p ∈ out.1, Tagged c p
  /-- RTMPose's are seventeen, and lie in the crop. -/
  inside : ∀ session softmaxMax, m.pose = .rtmpose session softmaxMax → ∀ p ∈ out.1, p.keypoints = [] ∨
    p.keypoints.length = 17 ∧ ∃ crop : Crop F, m.cropOf c.frame p = some crop ∧
      crop.Inside (m.shape c.frame).1 (m.shape c.frame).2 ∧ ∀ kp ∈ p.keypoints, crop.Holds kp

theorem detect_reports (d : YOLODetector τ υ) (c : Call F) : Reports m d c (d.detect m c).2 := by
  obtain ⟨hout, hfound⟩ := detect_found m d c
  rw [hout]
  have hlength := length_posed (m := m) c (d.found m c).1
  have hback {q : PersonDetection} (hq : q ∈ m.posed c (d.found m c).1) :
      ∃ k p, (d.found m c).1[k]? = some p ∧ p ∈ (d.found m c).1 ∧ Posed m c.frame (d.found m c).1 k p q := by
    obtain ⟨k, hk⟩ := List.mem_iff_getElem?.1 hq
    have hlt : k < (d.found m c).1.length := hlength ▸ (List.getElem?_eq_some_iff.1 hk).1
    obtain ⟨q', hq', hposed⟩ := getElem?_posed (m := m) c (List.getElem?_eq_getElem hlt)
    obtain rfl := Option.some.inj (hk.symm.trans hq')
    exact ⟨k, _, List.getElem?_eq_getElem hlt, List.getElem_mem hlt, hposed⟩
  refine ⟨rfl, hlength, fun k p hk => ?_, fun q hq => ?_, fun session softmaxMax hpose q hq => ?_⟩
  · exact ⟨(hfound p (List.mem_of_getElem? hk)).2, getElem?_posed c hk⟩
  · obtain ⟨k, p, -, hp, hposed⟩ := hback hq
    exact hposed.tagged (hfound p hp).1
  · obtain ⟨k, p, hk, hp, hposed⟩ := hback hq
    cases hposed with
    | kept => exact .inl (hfound _ hp).2
    | own crop kps hcrop hplace hanswer =>
      have hc : ((m.crops c.frame (d.found m c).1).map Prod.snd)[Batch.rank (m.cropOf c.frame) (d.found m c).1 k]? =
          some crop := by
        rw [List.getElem?_map, hplace]
        rfl
      have hinside := cropOf_inside hcrop
      obtain ⟨hseventeen, hholds⟩ := answers_holds hpose hc hinside hanswer
      exact .inr ⟨hseventeen, crop, hcrop, hinside, hholds⟩

/-! ## Many cameras -/

/-- Each call with what it returns. -/
def answers {σ ω : Type} (step : σ → Call F → σ × ω) (s : σ) (calls : List (Call F)) : List (Call F × ω) :=
  calls.zip (Mealy.outs step s calls)

theorem getTracker_set (d : YOLODetector τ υ) (s : υ) (cam : String) (o : Option τ) (cam' : String) :
    getTracker m ⟨d.trackers.set cam o, s⟩ cam' = if cam' = cam then o else d.getTracker m cam' := by
  rw [getTracker, Dict.get?_set]
  split <;> rfl

/-- A call of a camera with a tracker of its own. -/
theorem detect_ocsort {d : YOLODetector τ υ} {c : Call F} {t : τ} (ht : d.getTracker m c.cameraId = some t) :
    d.detect m c = (⟨d.trackers.set c.cameraId (some (m.detectOcsort t c).1), d.model⟩, (m.detectOcsort t c).2) := by
  rw [detect, ht]

/-- A call of a camera without one. -/
theorem detect_fallback {d : YOLODetector τ υ} {c : Call F} (ht : d.getTracker m c.cameraId = none) :
    d.detect m c =
      (⟨d.trackers.set c.cameraId none, (m.detectFallback d.model c).1⟩, (m.detectFallback d.model c).2) := by
  rw [detect, ht]

/-- A camera keeps its tracker, or keeps having none. -/
def Settled (d : YOLODetector τ υ) : Prop :=
  ∀ cam, (d.getTracker m cam).isNone = (m.newTracker cam).isNone

theorem settled_detect {d : YOLODetector τ υ} (h : Settled m d) (c : Call F) : Settled m (d.detect m c).1 := by
  intro cam
  cases ht : d.getTracker m c.cameraId with
  | some t =>
    rw [detect_ocsort m ht, getTracker_set]
    split
    · rename_i hcam
      rw [hcam, ← h c.cameraId, ht]
      rfl
    · exact h cam
  | none =>
    rw [detect_fallback m ht, getTracker_set]
    split
    · rename_i hcam
      rw [hcam, ← h c.cameraId, ht]
    · exact h cam

/-- A camera with a tracker, among any others. -/
theorem answers_ocsort {d : YOLODetector τ υ} {cam : String} {t : τ} (ht : d.getTracker m cam = some t)
    (calls : List (Call F)) :
    (answers (detect m) d calls).filter (·.1.cameraId = cam) =
      answers m.detectOcsort t (calls.filter (·.cameraId = cam)) := by
  induction calls generalizing d t with
  | nil => rfl
  | cons c calls ih =>
    rw [answers, Mealy.outs_cons, List.zip_cons_cons, ← answers, List.filter_cons, List.filter_cons]
    by_cases hcam : c.cameraId = cam
    · subst hcam
      have hnext : getTracker m (d.detect m c).1 c.cameraId = some (m.detectOcsort t c).1 := by
        rw [detect_ocsort m ht, getTracker_set, if_pos rfl]
      rw [ih hnext, detect_ocsort m ht]
      simp only [decide_true, if_true]
      rw [answers, answers, Mealy.outs_cons, List.zip_cons_cons]
    · have hnext : getTracker m (d.detect m c).1 cam = some t := by
        cases ht' : d.getTracker m c.cameraId with
        | some t' => rw [detect_ocsort m ht', getTracker_set, if_neg (Ne.symm hcam), ht]
        | none => rw [detect_fallback m ht', getTracker_set, if_neg (Ne.symm hcam), ht]
      rw [ih hnext]
      simp only [hcam, decide_false, Bool.false_eq_true, if_false]

/-- The cameras without one. -/
theorem answers_fallback {d : YOLODetector τ υ} (h : Settled m d) (calls : List (Call F)) :
    (answers (detect m) d calls).filter (fun a => (m.newTracker a.1.cameraId).isNone) =
      answers m.detectFallback d.model (calls.filter fun c => (m.newTracker c.cameraId).isNone) := by
  induction calls generalizing d with
  | nil => rfl
  | cons c calls ih =>
    rw [answers, Mealy.outs_cons, List.zip_cons_cons, ← answers, List.filter_cons, List.filter_cons,
      ih (settled_detect m h c)]
    have hcam := h c.cameraId
    cases ht : d.getTracker m c.cameraId with
    | some t =>
      rw [ht] at hcam
      rw [detect_ocsort m ht, ← hcam]
      rfl
    | none =>
      rw [ht] at hcam
      rw [detect_fallback m ht, ← hcam]
      rfl

/-- Who tracks for whom. -/
structure Tracked (s : υ) (calls : List (Call F)) : Prop where
  /-- A camera whose tracker could be made is told what it would be told alone. -/
  ocsort : ∀ cam t, m.newTracker cam = some t →
    (answers (detect m) (init s) calls).filter (·.1.cameraId = cam) =
      answers m.detectOcsort t (calls.filter (·.cameraId = cam))
  /-- The frames of all the others go to one tracker. -/
  fallback : (answers (detect m) (init s) calls).filter (fun a => (m.newTracker a.1.cameraId).isNone) =
    answers m.detectFallback s (calls.filter fun c => (m.newTracker c.cameraId).isNone)

theorem cameras_tracked (s : υ) (calls : List (Call F)) : Tracked m s calls where
  ocsort _ _ ht := answers_ocsort m (d := init s) ht calls
  fallback := answers_fallback m (d := init s) (fun _ => rfl) calls

end YOLODetector

end Netra.Inference
