import Netra.Risk.Worker
import Netra.Wire.Reference
/-!
# The severity shown over a track

The risk worker writes the score of a track to Redis in four digits, and the
inference worker (`backend/services/inference/main.py`) reads it back for the
overlay of a frame and bands it with a function of its own. The engine bands the
score before it is rounded. `severity_agrees_iff` says when all of them agree.
-/
namespace Netra

open PyLib Wire

/-! ## The inference worker -/

namespace Inference

/-- `_risk_to_severity` -/
def riskToSeverity (score : ℚ) : String :=
  if 0.90 ≤ score then "CRITICAL"
  else if 0.80 ≤ score then "HIGH"
  else if 0.65 ≤ score then "MEDIUM"
  else "LOW"

section
variable (py : PyText)

/-- `track_risk(camera_id, track_id)` -/
def trackRisk (cameraId : String) (trackId : Int) : String := s!"netra:risk:{cameraId}:" ++ py.strInt trackId

/-- `float(val) if val else 0.0` -/
def cachedRisk : Option String → Option ℚ
  | none => some 0
  | some val => if val = "" then some 0 else py.float val

/-- `_get_cached_risks`; `none` is a text that is no number. -/
def getCachedRisks (redis : Dict String String) (camId : String) (trackIds : List Int) : Option (Dict Int ℚ) :=
  trackIds.foldlM (fun risks tid => do return risks.set tid (← cachedRisk py (redis.get? (trackRisk py camId tid))))
    Dict.empty

def trackEntry (riskScores : Dict Int ℚ) (p : PersonDetection) : Json :=
  let risk := (riskScores.get? p.trackId).getD 0
  .obj [("track_id", .int p.trackId), ("bbox", encBBox p.bbox), ("risk", .float risk), ("fsm_state", .str "BROWSING"),
    ("severity", .str (riskToSeverity risk))]

/-- `_build_overlay_json`, which does not look at the items. -/
def buildOverlayJson (persons : List PersonDetection) (riskScores : Dict Int ℚ) : String :=
  py.dumps (.arr (persons.map (trackEntry riskScores)))

/-- The overlay of a frame of camera `camId`. -/
def overlay (redis : Dict String String) (camId : String) (persons : List PersonDetection) : Option String := do
  let risks ← getCachedRisks py redis camId (persons.map (·.trackId))
  return buildOverlayJson py persons risks

end

end Inference

namespace Risk

open Inference

/-! ## Bands -/

/-- Within half a unit of the fourth digit below the edge of a band. -/
def NearEdge (r : ℚ) : Prop := ∃ edge ∈ ([0.65, 0.80, 0.90] : List ℚ), edge - 0.00005 ≤ r ∧ r < edge

instance (r : ℚ) : Decidable (NearEdge r) :=
  inferInstanceAs (Decidable (∃ edge ∈ ([0.65, 0.80, 0.90] : List ℚ), edge - 0.00005 ≤ r ∧ r < edge))

theorem riskToSeverity_eq (r : ℚ) : riskToSeverity r = StrEnum.value (severity r) := by
  unfold riskToSeverity severity
  split_ifs <;> rfl

theorem value_inj {s t : AlertSeverity} : StrEnum.value s = StrEnum.value t ↔ s = t := by
  constructor
  · intro hst
    rw [← Option.some.injEq, ← StrEnum.ofValue_value s, ← StrEnum.ofValue_value t, hst]
  · rintro rfl
    rfl

theorem severity_critical (r : ℚ) : severity r = .critical ↔ 0.90 ≤ r := by
  unfold severity
  split_ifs with hcritical <;> simp [hcritical]

theorem severity_high (r : ℚ) : severity r = .critical ∨ severity r = .high ↔ 0.80 ≤ r := by
  have hmono : (0.90 : ℚ) ≤ r → 0.80 ≤ r := le_trans (by norm_num)
  unfold severity
  split_ifs with hcritical hhigh
  · exact iff_of_true (.inl rfl) (hmono hcritical)
  · exact iff_of_true (.inr rfl) hhigh
  · exact iff_of_false (by simp) hhigh
  · exact iff_of_false (by simp) hhigh

theorem severity_low (r : ℚ) : severity r ≠ .low ↔ 0.65 ≤ r := by
  have hmono : (0.90 : ℚ) ≤ r → 0.65 ≤ r := le_trans (by norm_num)
  have hmono' : (0.80 : ℚ) ≤ r → 0.65 ≤ r := le_trans (by norm_num)
  unfold severity
  split_ifs with hcritical hhigh hmedium
  · exact iff_of_true AlertSeverity.noConfusion (hmono hcritical)
  · exact iff_of_true AlertSeverity.noConfusion (hmono' hhigh)
  · exact iff_of_true AlertSeverity.noConfusion hmedium
  · exact iff_of_false (by simp) hmedium

/-- Two scores are in the same band when they are on the same side of every edge. -/
theorem severity_eq_iff (x y : ℚ) :
    severity x = severity y ↔ ∀ edge ∈ ([0.65, 0.80, 0.90] : List ℚ), (edge ≤ x ↔ edge ≤ y) := by
  simp only [List.forall_mem_cons, List.not_mem_nil, false_imp_iff, implies_true, and_true]
  constructor
  · intro hsame
    rw [← severity_low, ← severity_low, ← severity_high, ← severity_high, ← severity_critical, ← severity_critical,
      hsame]
    exact ⟨Iff.rfl, Iff.rfl, Iff.rfl⟩
  · rintro ⟨hmedium, hhigh, hcritical⟩
    exact if_congr hcritical rfl (if_congr hhigh rfl (if_congr hmedium rfl rfl))

theorem le_round_edge {edge : ℚ} (hedge : edge ∈ ([0.65, 0.80, 0.90] : List ℚ)) (r : ℚ) :
    edge ≤ roundTo 4 r ↔ edge - 0.00005 ≤ r := by
  obtain ⟨m, hm, rfl⟩ : ∃ m : Int, m % 2 = 0 ∧ edge = m / 10 ^ 4 := by
    simp only [List.mem_cons, List.not_mem_nil, or_false] at hedge
    rcases hedge with rfl | rfl | rfl
    · exact ⟨6500, by norm_num, by norm_num⟩
    · exact ⟨8000, by norm_num, by norm_num⟩
    · exact ⟨9000, by norm_num, by norm_num⟩
  rw [le_roundTo hm, sub_div]
  norm_num

/-- Rounding changes the band of the scores near an edge, and of no others. -/
theorem severity_round_iff (r : ℚ) : severity (roundTo 4 r) = severity r ↔ ¬ NearEdge r := by
  rw [severity_eq_iff, NearEdge]
  push Not
  refine forall₂_congr fun edge hedge => ?_
  rw [le_round_edge hedge]
  constructor
  · exact fun hsame hnear => hsame.1 hnear
  · intro hfar
    refine ⟨hfar, fun hle => ?_⟩
    have hhalf : (0 : ℚ) ≤ 0.00005 := by norm_num
    linarith

/-- Alerts start with the `MEDIUM` band. -/
theorem mediumOrHigher_iff (r : ℚ) :
    StrEnum.value (severity r) ∈ ["MEDIUM", "HIGH", "CRITICAL"] ↔ (0.65 : ℚ) ≤ r := by
  rw [← severity_low]
  generalize severity r = s
  cases s <;> decide

/-! ## The engine and what Redis holds of it -/

/-- The engine of a camera, and the scores the worker wrote. -/
structure Live where
  engine : RiskEngine
  redis : Dict String String := Dict.empty

section
variable (h : Host) (w : Settings) (py : PyText)

/-- A step of the engine; the score of a behaviour event is written for its track. -/
def liveStep (s : Live) (op : RiskOp) : Live × Option IncidentEvent :=
  let (engine, incident) := step h w s.engine op
  match op with
  | .behavior c =>
    let score := ((engine.states.get? c.bev.trackId).getD {}).lastRiskScore
    let redis := s.redis.set (trackRisk py c.bev.cameraId c.bev.trackId) (py.strFloat (roundTo 4 score))
    ({ engine, redis }, incident)
  | _ => ({ s with engine }, incident)

/-- What the overlay of a frame says of the tracks in it. -/
def shown (s : Live) (camId : String) (persons : List PersonDetection) : Option (List Json) :=
  (overlay py s.redis camId persons).bind fun text => (py.loads text).bind asList

/-- The incident's severity is that of its score, and right after the call every
overlay with the track shows the severity of the score before it was rounded,
`MEDIUM` or higher just when the score reached the threshold. -/
structure Agrees (s : Live) (c : BehaviorCall) : Prop where
  incident : ∀ i, (s.engine.updateBehavior h w c).2 = some i → i.severity = severity i.riskScore
  overlay : ∀ persons, ∃ tracks, shown py (liveStep h w py s (.behavior c)).1 c.bev.cameraId persons = some tracks ∧
    tracks.length = persons.length ∧
    ∀ track ∈ tracks, get track "track_id" = some (.int c.bev.trackId) →
      ∃ sev, get track "severity" = some (.str sev) ∧
        (sev ∈ ["MEDIUM", "HIGH", "CRITICAL"] ↔ w.riskAlertThreshold ≤ riskScore h w (stateFor s.engine c) c.bev) ∧
        sev = StrEnum.value (severity (riskScore h w (stateFor s.engine c) c.bev))

/-- All severities of a run agree. -/
def SeverityAgrees (cam : String) (ops : List RiskOp) : Prop :=
  Mealy.Always (liveStep h w py) (fun s op => ∀ c, op = .behavior c → Agrees h w py s c) { engine := .init cam } ops

/-- No behaviour event of the run has a score near an edge. -/
def ClearOfEdges (cam : String) (ops : List RiskOp) : Prop :=
  Mealy.Always (step h w)
    (fun e op => ∀ c, op = .behavior c → ¬ NearEdge (riskScore h w (stateFor e c) c.bev)) (.init cam) ops

end

section
variable {h : Host} {w : Settings} {py : PyText}

/-- Redis holds scores only. -/
def Scores (py : PyText) (redis : Dict String String) : Prop :=
  ∀ key val, redis.get? key = some val → ∃ r, val = py.strFloat r

theorem scores_set {redis : Dict String String} (hredis : Scores py redis) (key : String) (r : ℚ) :
    Scores py (redis.set key (py.strFloat r)) := by
  intro key' val hval
  rw [Dict.get?_set] at hval
  split at hval
  · exact ⟨r, (Option.some.inj hval).symm⟩
  · exact hredis key' val hval

/-- What is written is read back. -/
theorem cachedRisk_strFloat (hempty : py.float "" = none) (r : ℚ) : cachedRisk py (some (py.strFloat r)) = some r := by
  have htext : py.strFloat r ≠ "" := by
    intro hr
    have hread := py.float_strFloat r
    rw [hr, hempty] at hread
    cases hread
  rw [cachedRisk, if_neg htext, py.float_strFloat]

theorem cachedRisk_some (hempty : py.float "" = none) {redis : Dict String String} (hredis : Scores py redis)
    (key : String) : ∃ r, cachedRisk py (redis.get? key) = some r := by
  cases hval : redis.get? key with
  | none => exact ⟨0, rfl⟩
  | some val =>
    obtain ⟨r, rfl⟩ := hredis key val hval
    exact ⟨r, cachedRisk_strFloat hempty r⟩

theorem getCachedRisks_spec (hempty : py.float "" = none) {redis : Dict String String} (hredis : Scores py redis)
    (camId : String) (trackIds : List Int) :
    ∃ risks, getCachedRisks py redis camId trackIds = some risks ∧
      ∀ k ∈ trackIds, risks.get? k = cachedRisk py (redis.get? (trackRisk py camId k)) := by
  unfold getCachedRisks
  induction trackIds using List.reverseRecOn with
  | nil => exact ⟨.empty, rfl, by simp⟩
  | append_singleton trackIds tid ih =>
    obtain ⟨risks, hrisks, hget⟩ := ih
    obtain ⟨r, hr⟩ := cachedRisk_some hempty hredis (trackRisk py camId tid)
    refine ⟨risks.set tid r, ?_, fun k hk => ?_⟩
    · rw [List.foldlM_append, hrisks]
      simp [hr]
    · rw [Dict.get?_set]
      split
      · rename_i heq
        rw [heq, hr]
      · rename_i hne
        exact hget k ((List.mem_append.1 hk).resolve_right fun hk => hne (List.mem_singleton.1 hk))

theorem wellFormed_trackEntry (risks : Dict Int ℚ) (p : PersonDetection) : (trackEntry risks p).WellFormed := by
  refine .obj (show ["track_id", "bbox", "risk", "fsm_state", "severity"].Nodup by decide) ?_
  simp only [List.forall_mem_cons, List.not_mem_nil, false_imp_iff, implies_true, and_true]
  exact ⟨.int _, wellFormed_encBBox _, .float _, .str _, .str _⟩

theorem get_trackEntry (risks : Dict Int ℚ) (p : PersonDetection) :
    get (trackEntry risks p) "track_id" = some (.int p.trackId) ∧
      get (trackEntry risks p) "severity" = some (.str (riskToSeverity ((risks.get? p.trackId).getD 0))) :=
  ⟨rfl, rfl⟩

/-- An overlay has every person of the frame, with the severity of the score in Redis. -/
theorem shown_spec (hempty : py.float "" = none) {s : Live} (hredis : Scores py s.redis) (camId : String)
    (persons : List PersonDetection) :
    ∃ risks : Dict Int ℚ, shown py s camId persons = some (persons.map (trackEntry risks)) ∧
      ∀ p ∈ persons, risks.get? p.trackId = cachedRisk py (s.redis.get? (trackRisk py camId p.trackId)) := by
  obtain ⟨risks, hrisks, hget⟩ := getCachedRisks_spec hempty hredis camId (persons.map (·.trackId))
  refine ⟨risks, ?_, fun p hp => hget _ (List.mem_map_of_mem hp)⟩
  have hread := py.loads_dumps _ (wellFormed_map (wellFormed_trackEntry risks) persons)
  simp [shown, overlay, hrisks, buildOverlayJson, hread, asList]

/-- What the call leaves for its track. -/
theorem lastRiskScore_step (e : RiskEngine) (c : BehaviorCall) :
    (((step h w e (.behavior c)).1.states.get? c.bev.trackId).getD {}).lastRiskScore =
      riskScore h w (stateFor e c) c.bev := by
  have hs := step_cases (h := h) (w := w) e (.behavior c) c.bev.trackId
  generalize (step h w e (.behavior c)).1.states.get? c.bev.trackId = o at hs
  cases hs with
  | other hne => exact absurd rfl (hne c rfl)
  | quiet _ hst _ | raised _ hst _ => rw [hst]; rfl

theorem scores_step (s : Live) (op : RiskOp) (hredis : Scores py s.redis) :
    Scores py (liveStep h w py s op).1.redis := by
  cases op with
  | shopformer score => exact hredis
  | prune now => exact hredis
  | behavior c => exact scores_set hredis _ _

/-- A frame with track `k` alone. -/
def alone (k : Int) : PersonDetection :=
  { trackId := k, cameraId := "", bbox := ⟨0, 0, 0, 0⟩, confidence := 0, keypoints := [], timestamp := 0 }

/-- What every overlay with the track shows right after the call. -/
theorem shown_step (hempty : py.float "" = none) {s : Live} (hredis : Scores py s.redis) (c : BehaviorCall)
    (persons : List PersonDetection) :
    ∃ risks : Dict Int ℚ,
      shown py (liveStep h w py s (.behavior c)).1 c.bev.cameraId persons = some (persons.map (trackEntry risks)) ∧
      ∀ p ∈ persons, p.trackId = c.bev.trackId →
        get (trackEntry risks p) "severity" =
          some (.str (StrEnum.value (severity (roundTo 4 (riskScore h w (stateFor s.engine c) c.bev))))) := by
  obtain ⟨risks, hshown, hget⟩ :=
    shown_spec hempty (scores_step (h := h) (w := w) s (.behavior c) hredis) c.bev.cameraId persons
  refine ⟨risks, hshown, fun p hp hk => ?_⟩
  have hrisk := hget p hp
  rw [hk, liveStep] at hrisk
  dsimp only at hrisk
  rw [Dict.get?_set_self, cachedRisk_strFloat hempty, lastRiskScore_step] at hrisk
  rw [(get_trackEntry risks p).2, hk, hrisk, Option.getD_some, riskToSeverity_eq]

theorem agrees_iff (hempty : py.float "" = none) (hthreshold : w.riskAlertThreshold = 0.65) {s : Live}
    (hredis : Scores py s.redis) (c : BehaviorCall) :
    Agrees h w py s c ↔ ¬ NearEdge (riskScore h w (stateFor s.engine c) c.bev) := by
  rw [← severity_round_iff]
  constructor
  · intro hagrees
    obtain ⟨tracks, hshown, -, htracks⟩ := hagrees.overlay [alone c.bev.trackId]
    obtain ⟨risks, hshown', hsev'⟩ := shown_step (h := h) (w := w) hempty hredis c [alone c.bev.trackId]
    obtain rfl := Option.some.inj (hshown.symm.trans hshown')
    obtain ⟨sev, hsev, -, rfl⟩ := htracks (trackEntry risks (alone c.bev.trackId)) List.mem_cons_self rfl
    rw [hsev' _ List.mem_cons_self rfl, Option.some.injEq, Json.str.injEq] at hsev
    exact value_inj.1 hsev
  · intro hround
    constructor
    · intro i hi
      rw [((updateBehavior_out _ _ _).1 hi).2]
      exact hround.symm
    · intro persons
      obtain ⟨risks, hshown, hsev⟩ := shown_step (h := h) (w := w) hempty hredis c persons
      refine ⟨_, hshown, List.length_map _, fun track htrack hk => ?_⟩
      obtain ⟨p, hp, rfl⟩ := List.mem_map.1 htrack
      rw [(get_trackEntry risks p).1, Option.some.injEq, Json.int.injEq] at hk
      refine ⟨_, hsev p hp hk, ?_, by rw [hround]⟩
      rw [hround, hthreshold]
      exact mediumOrHigher_iff _

/-- The severities of a run all agree exactly when no score is within half a unit of
the fourth digit below the edge of a band. -/
theorem severity_agrees_iff (h : Host) (w : Settings) (py : PyText) (hempty : py.float "" = none)
    (hthreshold : w.riskAlertThreshold = 0.65) (cam : String) (ops : List RiskOp) :
    SeverityAgrees h w py cam ops ↔ ClearOfEdges h w cam ops := by
  refine Mealy.always_rel (liveStep h w py) (step h w) (fun s e => s.engine = e ∧ Scores py s.redis) ?_ ?_
    ⟨rfl, fun key val hval => by simp at hval⟩ ops
  · rintro s _ op ⟨rfl, hredis⟩ -
    refine ⟨?_, scores_step s op hredis⟩
    cases op <;> rfl
  · rintro s _ op ⟨rfl, hredis⟩
    exact forall₂_congr fun c _ => agrees_iff hempty hthreshold hredis c

/-- The worst messages the service can send leave a score of 0.75. -/
theorem severity_agrees_worstCase : SeverityAgrees .reference .default .reference "cam-01" worstCase := by
  have hclear : ClearOfEdges .reference .default "cam-01" worstCase := by
    refine ⟨fun c hc => RiskOp.noConfusion hc, fun c hc => ?_, trivial⟩
    cases hc
    decide +kernel
  exact (severity_agrees_iff .reference .default .reference PyText.reference_float_empty rfl "cam-01" worstCase).2
    hclear

/-- A score of 0.45 + 0.30 * 0.6666 = 0.64998 is no alert, and its overlay is `MEDIUM`. -/
def almostMedium : List RiskOp := [
  .shopformer { cameraId := "cam-01", trackId := 1, anomalyScore := 0.6666, reconstructionError := 2, embedding := [],
                poseSequenceLen := 24, timestamp := 1000 },
  .behavior { bev := { cameraId := "cam-01", trackId := 1, fsmState := .highRiskExit, fsmScore := 20,
                       timestamp := 1001 }
              uuid := "incident-1" }]

theorem severity_agrees_fails :
    ¬ ∀ (h : Host) (w : Settings) (py : PyText) (cam : String) (ops : List RiskOp), py.float "" = none →
      w.riskAlertThreshold = 0.65 → SeverityAgrees h w py cam ops := by
  intro hall
  obtain ⟨-, hagrees, -⟩ :=
    hall .reference .default .reference "cam-01" almostMedium PyText.reference_float_empty rfl
  have hredis : Scores .reference (Dict.empty : Dict String String) := fun key val hval => by simp at hval
  refine (agrees_iff PyText.reference_float_empty rfl hredis _).1 (hagrees _ rfl) ?_
  decide +kernel

end

end Risk

end Netra
