import Netra.Store.Persistence
import Mathlib.Logic.Function.Basic
/-!
# Evidence frames

`run` (`backend/services/persistence/main.py`) hands its pooled connection to a
task, `capture_evidence`, and leaves the block that holds the connection. The
task writes the frame in a thread before it inserts the row, and a connection
takes no statement once it is released: `rows_agree_iff`.
-/
namespace Netra

open PyLib Wire Store

namespace Persistence

structure EvidenceFrame where
  incidentId : String
  framePath : String
  frameSeq : Int
  occurredAt : ℚ

/-- The settings of `capture_evidence` and the image library. -/
structure Imaging where
  evidenceDir : String := "/data/evidence"
  evidenceBlurThreshold : ℚ := 100
  /-- Laplacian variance of a frame; `none` when it cannot be decoded -/
  laplacianVar : List UInt8 → Option ℚ

def Imaging.framePath (x : Imaging) (incidentId : String) : String :=
  x.evidenceDir ++ "/" ++ incidentId ++ "/frame_001.jpg"

/-- The row of a frame inserted at `now`. -/
def Imaging.row (x : Imaging) (incidentId : String) (now : ℚ) : EvidenceFrame :=
  { incidentId, framePath := x.framePath incidentId, frameSeq := 1, occurredAt := now }

/-- Where `run` is. A connection is the number of its acquisition. -/
inductive RunAt where
  | reading
  | acquiring (incident : IncidentEvent)
  /-- at the first statement of `write_incident` -/
  | writing (conn : Nat) (incident : IncidentEvent)
  /-- at the second -/
  | ensuring (conn : Nat) (incident : IncidentEvent)
  | fetching (conn : Nat) (incident : IncidentEvent)
  /-- at the exit of the block, which an exception may have ended -/
  | leaving (conn : Nat) (raised : Bool)
  /-- at an `xack`, which is tried again in the `except` branch -/
  | acking (last : Bool)
  | stopped

/-- Where a `capture_evidence` task is. -/
inductive CaptureAt where
  | spawned
  /-- in the executor -/
  | writing
  | written
  /-- ended without the file -/
  | unwritten
  /-- ended by the database -/
  | refused
  /-- ended by the connection -/
  | rejected
  | stored

structure Capture where
  incidentId : String
  jpeg : List UInt8
  phase : CaptureAt := .spawned

structure Tasks where
  db : Database
  evidenceFrames : List EvidenceFrame := []
  /-- acquisitions so far -/
  acquired : Nat := 0
  /-- the connection that is not released -/
  held : Option Nat := none
  run : RunAt := .reading
  /-- the task that was given a connection -/
  captures : Nat → Option Capture := fun _ => none

/-- A task goes on to its next await; what it waits for was done, or raised. -/
inductive Resume where
  /-- `run` takes its next entry. -/
  | entry (e : Entry)
  /-- `jpeg` is the latest frame of the camera. -/
  | run (ok : Bool) (jpeg : Option (List UInt8))
  /-- The task of connection `conn`. -/
  | capture (conn : Nat) (ok : Bool) (now : ℚ)

namespace Tasks

def setCapture (s : Tasks) (conn : Nat) (c : Capture) : Tasks :=
  { s with captures := Function.update s.captures conn (some c) }

/-- `run` to its next await, and the connection it executes a statement on. -/
def runStep (s : Tasks) (ok : Bool) (jpeg : Option (List UInt8)) : Tasks × Option Nat :=
  match s.run with
  | .reading => (s, none)
  | .acquiring incident =>
    if ok then
      ({ s with acquired := s.acquired + 1, held := some s.acquired, run := .writing s.acquired incident }, none)
    else ({ s with run := .acking true }, none)
  | .writing conn incident =>
    match rowOf incident with
    | none => ({ s with run := .leaving conn true }, none)
    | some row =>
      match if ok then s.db.insertIncident row else none with
      | none => ({ s with run := .leaving conn true }, some conn)
      | some db => ({ s with db, run := .ensuring conn incident }, some conn)
  | .ensuring conn incident =>
    if ok then
      let db := s.db.insertCamera { id := incident.cameraId, displayName := incident.cameraId }
      ({ s with db, run := .fetching conn incident }, some conn)
    else ({ s with run := .leaving conn true }, some conn)
  | .fetching conn incident =>
    if ok then
      match jpeg with
      | none | some [] => ({ s with run := .leaving conn false }, none)
      | some jpeg =>
        -- `asyncio.create_task`: the task has not started when the block is left
        ({ s with run := .leaving conn false }.setCapture conn { incidentId := incident.incidentId, jpeg }, none)
    else ({ s with run := .leaving conn true }, none)
  | .leaving _ raised => ({ s with held := none, run := .acking (raised || !ok) }, none)
  | .acking last =>
    if ok then ({ s with run := .reading }, none)
    else if last then ({ s with run := .stopped }, none)
    else ({ s with run := .acking true }, none)
  | .stopped => (s, none)

end Tasks

section
variable (py : PyText) (x : Imaging)

/-- `capture_evidence` to its next await or its end. -/
def captureStep (s : Tasks) (conn : Nat) (c : Capture) (ok : Bool) (now : ℚ) : Tasks × Option Nat :=
  match c.phase with
  | .spawned =>
    match x.laplacianVar c.jpeg with
    | none => (s.setCapture conn { c with phase := .unwritten }, none)
    | some var =>
      if var < x.evidenceBlurThreshold then (s.setCapture conn { c with phase := .unwritten }, none)
      else if ok then (s.setCapture conn { c with phase := .writing }, none)
      else (s.setCapture conn { c with phase := .unwritten }, none)
  | .writing =>
    if ok then (s.setCapture conn { c with phase := .written }, none)
    else (s.setCapture conn { c with phase := .unwritten }, none)
  | .written =>
    if s.held = some conn then
      if ok ∧ c.incidentId ∈ s.db.incidentIds then
        let evidenceFrames := s.evidenceFrames ++ [x.row c.incidentId now]
        ({ s with evidenceFrames }.setCapture conn { c with phase := .stored }, some conn)
      else (s.setCapture conn { c with phase := .refused }, some conn)
    else (s.setCapture conn { c with phase := .rejected }, some conn)
  | _ => (s, none)

def tasksStep (s : Tasks) : Resume → Tasks × Option Nat
  | .entry e =>
    match s.run with
    | .reading =>
      match decodeIncidentEvent py e.data with
      | none => ({ s with run := .acking true }, none)
      | some incident => ({ s with run := .acquiring incident }, none)
    | _ => (s, none)
  | .run ok jpeg => s.runStep ok jpeg
  | .capture conn ok now =>
    match s.captures conn with
    | none => (s, none)
    | some c => captureStep x s conn c ok now

/-- Each task that has written its file and ended has its row, unless the database failed. -/
def FilesHaveRows (s : Tasks) : Prop :=
  ∀ conn c, s.captures conn = some c → (c.phase = .rejected ∨ c.phase = .stored) →
    ∃ r ∈ s.evidenceFrames, r.incidentId = c.incidentId ∧ r.framePath = x.framePath c.incidentId

/-- No statement is executed on a released connection, and files and rows agree. -/
def RowsAgree (db : Database) (acts : List Resume) : Prop :=
  Mealy.Always (tasksStep py x)
    (fun s a => (∀ conn, (tasksStep py x s a).2 = some conn → s.held = some conn) ∧
      FilesHaveRows x (tasksStep py x s a).1)
    { db } acts

end

/-- A task that has written its file goes on only while `run` is still at the exit of
the block that started the task. -/
def InTime (s : Tasks) (a : Resume) : Prop :=
  ∀ conn ok now c, a = .capture conn ok now → s.captures conn = some c → c.phase = .written →
    ∃ raised, s.run = .leaving conn raised

/-! ## What is known of every state -/

namespace RunAt

/-- The connection of the block that `run` is in. -/
def conn : RunAt → Option Nat
  | .writing conn _ | .ensuring conn _ | .fetching conn _ | .leaving conn _ => some conn
  | _ => none

/-- The same, up to the exit of the block. -/
def inside : RunAt → Option Nat
  | .writing conn _ | .ensuring conn _ | .fetching conn _ => some conn
  | _ => none

/-- The incident that has its row. -/
def incident : RunAt → Option IncidentEvent
  | .ensuring _ incident | .fetching _ incident => some incident
  | _ => none

variable {r : RunAt} {conn : Nat}

theorem inside_none (h : r.conn = none) : r.inside = none ∧ r.incident = none := by
  cases r with
  | writing | ensuring | fetching | leaving => cases h
  | reading | acquiring | acking | stopped => exact ⟨rfl, rfl⟩

theorem leaving_iff (h : r.inside ≠ some conn) : r.conn = some conn ↔ ∃ raised, r = .leaving conn raised := by
  constructor
  · intro hconn
    cases r with
    | writing | ensuring | fetching => exact absurd hconn h
    | leaving conn' raised => exact ⟨raised, by rw [Option.some.inj hconn]⟩
    | reading | acquiring | acking | stopped => cases hconn
  · rintro ⟨raised, rfl⟩
    rfl

end RunAt

structure Sound (s : Tasks) : Prop where
  held : s.held = s.run.conn
  acquired : ∀ conn, s.run.conn = some conn → conn < s.acquired
  known : ∀ incident, s.run.incident = some incident → incident.incidentId ∈ s.db.incidentIds
  /-- A task is of a connection acquired so far, at or after the exit of its block. -/
  captured : ∀ conn c, s.captures conn = some c →
    conn < s.acquired ∧ c.incidentId ∈ s.db.incidentIds ∧ s.run.inside ≠ some conn

/-- What a step of `run` does. -/
inductive RunMoves (s : Tasks) : Tasks → Option Nat → Prop
  | stays : RunMoves s s none
  | outside {r : RunAt} : s.run.conn = none → r.conn = none → RunMoves s { s with run := r } none
  | acquires (incident : IncidentEvent) : s.run.conn = none →
      RunMoves s
        { s with acquired := s.acquired + 1, held := some s.acquired, run := .writing s.acquired incident } none
  | writes {conn : Nat} {incident : IncidentEvent} {db : Database} : s.run = .writing conn incident →
      incident.incidentId ∈ db.incidentIds → s.db.incidentIds ⊆ db.incidentIds →
      RunMoves s { s with db, run := .ensuring conn incident } (some conn)
  | ensures {conn : Nat} {incident : IncidentEvent} {x : Camera} : s.run = .ensuring conn incident →
      RunMoves s { s with db := s.db.insertCamera x, run := .fetching conn incident } (some conn)
  | leaves {conn : Nat} {raised : Bool} {out : Option Nat} : s.run.conn = some conn → (out = none ∨ out = some conn) →
      RunMoves s { s with run := .leaving conn raised } out
  | spawns {conn : Nat} {incident : IncidentEvent} (jpeg : List UInt8) : s.run = .fetching conn incident →
      RunMoves s
        ({ s with run := .leaving conn false }.setCapture conn { incidentId := incident.incidentId, jpeg }) none
  | releases {conn : Nat} {raised : Bool} (last : Bool) : s.run = .leaving conn raised →
      RunMoves s { s with held := none, run := .acking last } none

section
variable {s : Tasks}

theorem runStep_moves (ok : Bool) (jpeg : Option (List UInt8)) :
    RunMoves s (s.runStep ok jpeg).1 (s.runStep ok jpeg).2 := by
  unfold Tasks.runStep
  cases hr : s.run with
  | reading | stopped => exact .stays
  | acquiring incident =>
    dsimp only
    split
    · exact .acquires incident (by rw [hr]; rfl)
    · exact .outside (by rw [hr]; rfl) rfl
  | writing conn incident =>
    have hconn : s.run.conn = some conn := by rw [hr]; rfl
    dsimp only
    split
    · exact .leaves hconn (.inl rfl)
    · rename_i row hrow
      split
      · exact .leaves hconn (.inr rfl)
      · rename_i db hins
        obtain ⟨-, hins⟩ := Option.ite_none_right_eq_some.1 hins
        have hids := (Database.insertIncident_spec hins).incidentIds
        exact .writes hr ((hids _).2 (.inl (rowOf_spec hrow).id.symm)) fun k hk => (hids k).2 (.inr hk)
  | ensuring conn incident =>
    dsimp only
    split
    · exact .ensures hr
    · exact .leaves (by rw [hr]; rfl) (.inr rfl)
  | fetching conn incident =>
    have hconn : s.run.conn = some conn := by rw [hr]; rfl
    dsimp only
    split
    · split
      · exact .leaves hconn (.inl rfl)
      · exact .leaves hconn (.inl rfl)
      · rename_i jpeg _
        exact .spawns jpeg hr
    · exact .leaves hconn (.inl rfl)
  | leaving conn raised => exact .releases _ hr
  | acking last =>
    have hconn : s.run.conn = none := by rw [hr]; rfl
    dsimp only
    split
    · exact .outside hconn rfl
    · split
      · exact .outside hconn rfl
      · exact .outside hconn rfl

/-- The task of `conn` is now `c`. -/
theorem captures_setCapture (conn : Nat) (c : Capture) (conn' : Nat) :
    (s.setCapture conn c).captures conn' = if conn' = conn then some c else s.captures conn' :=
  Function.update_apply ..

theorem sound_init (db : Database) : Sound { db } where
  held := rfl
  acquired conn h := by cases h
  known incident h := by cases h
  captured conn c h := by cases h

/-- `run` goes on in the same block, or outside of any. -/
theorem sound_run {r : RunAt} {db : Database} (h : Sound s) (hr : r.conn = s.run.conn)
    (hdb : s.db.incidentIds ⊆ db.incidentIds)
    (hknown : ∀ incident, r.incident = some incident → incident.incidentId ∈ db.incidentIds)
    (hinside : r.inside = none ∨ r.inside = s.run.inside) : Sound { s with db, run := r } where
  held := h.held.trans hr.symm
  acquired conn hconn := h.acquired conn (hr ▸ hconn)
  known := hknown
  captured conn c hc := by
    obtain ⟨hlt, hid, hleft⟩ := h.captured conn c hc
    refine ⟨hlt, hdb hid, ?_⟩
    dsimp only
    rcases hinside with hinside | hinside <;> rw [hinside]
    · exact nofun
    · exact hleft

/-- A connection that has just been acquired has no task. -/
theorem sound_acquire (h : Sound s) (incident : IncidentEvent) :
    Sound { s with acquired := s.acquired + 1, held := some s.acquired, run := .writing s.acquired incident } where
  held := rfl
  acquired conn hconn := Option.some.inj hconn ▸ Nat.lt_succ_self _
  known incident hincident := by cases hincident
  captured conn c hc := by
    obtain ⟨hlt, hid, -⟩ := h.captured conn c hc
    refine ⟨Nat.lt_succ_of_lt hlt, hid, fun hconn => ?_⟩
    exact absurd (Option.some.inj hconn) (Nat.ne_of_gt hlt)

/-- The task of the connection that `run` is about to leave. -/
theorem sound_spawn {conn : Nat} {incident : IncidentEvent} (h : Sound s) (hr : s.run = .fetching conn incident)
    (jpeg : List UInt8) :
    Sound ({ s with run := .leaving conn false }.setCapture conn { incidentId := incident.incidentId, jpeg }) := by
  have hconn : s.run.conn = some conn := by rw [hr]; rfl
  have hincident : s.run.incident = some incident := by rw [hr]; rfl
  refine ⟨h.held.trans hconn, fun conn hc => h.acquired conn (hconn.trans hc), ?_, fun conn' c hc => ?_⟩
  · intro incident hnone
    cases hnone
  · rw [captures_setCapture] at hc
    split at hc
    · rename_i heq
      obtain rfl := Option.some.inj hc
      exact ⟨heq ▸ h.acquired conn hconn, h.known incident hincident, nofun⟩
    · obtain ⟨hlt, hid, -⟩ := h.captured conn' c hc
      exact ⟨hlt, hid, nofun⟩

theorem sound_release (h : Sound s) (last : Bool) : Sound { s with held := none, run := .acking last } where
  held := rfl
  acquired conn hconn := by cases hconn
  known incident hincident := by cases hincident
  captured conn c hc := by
    obtain ⟨hlt, hid, -⟩ := h.captured conn c hc
    exact ⟨hlt, hid, nofun⟩

theorem sound_moves {s' : Tasks} {out : Option Nat} (h : Sound s) (hm : RunMoves s s' out) : Sound s' := by
  cases hm with
  | stays => exact h
  | outside hs hr =>
    obtain ⟨hinside, hincident⟩ := RunAt.inside_none hr
    refine sound_run h (hr.trans hs.symm) (fun _ hk => hk) (fun incident hknown => ?_) (.inl hinside)
    rw [hincident] at hknown
    cases hknown
  | acquires incident => exact sound_acquire h incident
  | writes hr hid hdb =>
    exact sound_run h (by rw [hr]; rfl) hdb (fun incident hknown => Option.some.inj hknown ▸ hid)
      (.inr (by rw [hr]; rfl))
  | ensures hr =>
    exact sound_run h (by rw [hr]; rfl) (fun _ hk => hk)
      (fun incident hknown => h.known incident (by rw [hr]; exact hknown)) (.inr (by rw [hr]; rfl))
  | leaves hconn =>
    exact sound_run h hconn.symm (fun _ hk => hk) (fun incident hknown => by cases hknown) (.inl rfl)
  | spawns jpeg hr => exact sound_spawn h hr jpeg
  | releases last => exact sound_release h last

/-- A task that goes on is of the same incident. -/
theorem sound_setCapture {conn : Nat} {c : Capture} (h : Sound s) (hc : s.captures conn = some c) (p : CaptureAt)
    (rows : List EvidenceFrame) :
    Sound ({ s with evidenceFrames := rows }.setCapture conn { c with phase := p }) := by
  refine ⟨h.held, h.acquired, h.known, fun conn' c' hc' => ?_⟩
  rw [captures_setCapture] at hc'
  split at hc'
  · rename_i heq
    obtain rfl := Option.some.inj hc'
    exact heq ▸ h.captured conn c hc
  · exact h.captured conn' c' hc'

/-- `run` executes its statements on the connection it holds. -/
theorem moves_held {s' : Tasks} {out : Option Nat} (h : Sound s) (hm : RunMoves s s' out) {conn : Nat}
    (hout : out = some conn) : s.held = some conn := by
  rw [h.held]
  cases hm with
  | stays | outside | acquires | spawns | releases => cases hout
  | writes hr | ensures hr =>
    cases hout
    rw [hr]
    rfl
  | leaves hconn hsame =>
    rcases hsame with rfl | rfl
    · cases hout
    · exact hout ▸ hconn

variable {x : Imaging}

/-- A step of `run` ends no task. -/
theorem rows_moves {s' : Tasks} {out : Option Nat} (h : FilesHaveRows x s) (hm : RunMoves s s' out) :
    FilesHaveRows x s' := by
  cases hm with
  | stays | outside | acquires | writes | ensures | leaves | releases => exact h
  | spawns jpeg hr =>
    intro conn c hc hended
    rw [captures_setCapture] at hc
    split at hc
    · obtain rfl := Option.some.inj hc
      rcases hended with hended | hended <;> cases hended
    · exact h conn c hc hended

/-- Only the task that goes on can be without its row. -/
theorem rows_setCapture {conn : Nat} {c : Capture} (h : FilesHaveRows x s) {rows : List EvidenceFrame}
    (hrows : s.evidenceFrames ⊆ rows)
    (hc : c.phase = .rejected ∨ c.phase = .stored →
      ∃ r ∈ rows, r.incidentId = c.incidentId ∧ r.framePath = x.framePath c.incidentId) :
    FilesHaveRows x ({ s with evidenceFrames := rows }.setCapture conn c) := by
  intro conn' c' hc' hended
  rw [captures_setCapture] at hc'
  split at hc'
  · obtain rfl := Option.some.inj hc'
    exact hc hended
  · obtain ⟨r, hr, hrow⟩ := h conn' c' hc' hended
    exact ⟨r, hrows hr, hrow⟩

/-! ## One step -/

/-- `run` holds the connection of a task exactly while it is at the exit of its block. -/
theorem held_iff (h : Sound s) {conn : Nat} {c : Capture} (hc : s.captures conn = some c) :
    s.held = some conn ↔ ∃ raised, s.run = .leaving conn raised := by
  rw [h.held]
  exact RunAt.leaving_iff (h.captured conn c hc).2.2

end

section
variable {py : PyText} {x : Imaging} {s : Tasks}

/-- What a step of a task does. -/
inductive CaptureMoves (x : Imaging) (s : Tasks) (conn : Nat) (c : Capture) : Tasks → Option Nat → Prop
  | stays : c.phase ≠ .written → CaptureMoves x s conn c s none
  | goes {p : CaptureAt} : c.phase ≠ .written → (p = .writing ∨ p = .written ∨ p = .unwritten) →
      CaptureMoves x s conn c (s.setCapture conn { c with phase := p }) none
  | stores (now : ℚ) : c.phase = .written → s.held = some conn →
      CaptureMoves x s conn c
        ({ s with evidenceFrames := s.evidenceFrames ++ [x.row c.incidentId now] }.setCapture conn
          { c with phase := .stored }) (some conn)
  | refused : c.phase = .written → s.held = some conn →
      CaptureMoves x s conn c (s.setCapture conn { c with phase := .refused }) (some conn)
  | rejected : c.phase = .written → s.held ≠ some conn →
      CaptureMoves x s conn c (s.setCapture conn { c with phase := .rejected }) (some conn)

theorem captureStep_moves (conn : Nat) (c : Capture) (ok : Bool) (now : ℚ) :
    CaptureMoves x s conn c (captureStep x s conn c ok now).1 (captureStep x s conn c ok now).2 := by
  unfold captureStep
  cases hp : c.phase with
  | spawned =>
    have hne : c.phase ≠ .written := by rw [hp]; exact CaptureAt.noConfusion
    dsimp only
    split
    · exact .goes hne (.inr (.inr rfl))
    · split_ifs
      · exact .goes hne (.inr (.inr rfl))
      · exact .goes hne (.inl rfl)
      · exact .goes hne (.inr (.inr rfl))
  | writing =>
    have hne : c.phase ≠ .written := by rw [hp]; exact CaptureAt.noConfusion
    dsimp only
    split
    · exact .goes hne (.inr (.inl rfl))
    · exact .goes hne (.inr (.inr rfl))
  | written =>
    dsimp only
    split
    · rename_i hheld
      split
      · exact .stores now hp hheld
      · exact .refused hp hheld
    · rename_i hreleased
      exact .rejected hp hreleased
  | unwritten | refused | rejected | stored => exact .stays (by rw [hp]; exact CaptureAt.noConfusion)

theorem sound_capture {conn : Nat} {c : Capture} {s' : Tasks} {out : Option Nat} (h : Sound s)
    (hc : s.captures conn = some c) (hm : CaptureMoves x s conn c s' out) : Sound s' := by
  cases hm with
  | stays => exact h
  | goes | stores | refused | rejected => exact sound_setCapture h hc _ _

theorem entry_moves (e : Entry) :
    RunMoves s (tasksStep py x s (.entry e)).1 (tasksStep py x s (.entry e)).2 := by
  simp only [tasksStep]
  cases hr : s.run with
  | reading =>
    have hconn : s.run.conn = none := by rw [hr]; rfl
    dsimp only
    split
    · exact .outside hconn rfl
    · exact .outside hconn rfl
  | _ => exact .stays

/-- Every step is one of `run`, one of a task, or none. -/
theorem step_cases (s : Tasks) (a : Resume) :
    (RunMoves s (tasksStep py x s a).1 (tasksStep py x s a).2 ∧ InTime s a) ∨
      ∃ conn ok now c, a = .capture conn ok now ∧ s.captures conn = some c ∧
        CaptureMoves x s conn c (tasksStep py x s a).1 (tasksStep py x s a).2 := by
  cases a with
  | entry e => exact .inl ⟨entry_moves e, fun conn ok now c ha => by cases ha⟩
  | run ok jpeg => exact .inl ⟨runStep_moves ok jpeg, fun conn ok now c ha => by cases ha⟩
  | capture conn ok now =>
    simp only [tasksStep]
    cases hc : s.captures conn with
    | none =>
      refine .inl ⟨.stays, ?_⟩
      rintro conn' ok' now' c' ha hc' -
      cases ha
      rw [hc] at hc'
      cases hc'
    | some c => exact .inr ⟨conn, ok, now, c, rfl, hc, captureStep_moves conn c ok now⟩

theorem sound_step (h : Sound s) (a : Resume) : Sound (tasksStep py x s a).1 := by
  rcases step_cases s a with ⟨hm, -⟩ | ⟨conn, ok, now, c, -, hc, hm⟩
  · exact sound_moves h hm
  · exact sound_capture h hc hm

/-- A step of a task leaves the other tasks with their rows, and its own unless the
connection was released. -/
theorem rows_capture {conn : Nat} {c : Capture} {s' : Tasks} {out : Option Nat} (h : FilesHaveRows x s)
    (hm : CaptureMoves x s conn c s' out) (hin : c.phase = .written → s.held = some conn) : FilesHaveRows x s' := by
  cases hm with
  | stays => exact h
  | goes _ hp =>
    refine rows_setCapture h (fun _ hr => hr) ?_
    rcases hp with rfl | rfl | rfl <;> rintro (hp | hp) <;> cases hp
  | stores now =>
    refine rows_setCapture h (fun _ hr => List.mem_append_left _ hr) fun _ => ?_
    exact ⟨_, List.mem_append_right _ List.mem_cons_self, rfl, rfl⟩
  | refused =>
    refine rows_setCapture h (fun _ hr => hr) ?_
    rintro (hp | hp) <;> cases hp
  | rejected hp hreleased => exact absurd (hin hp) hreleased

/-- A statement is executed on the held connection, and the files keep their rows, in
just the steps that are in time. -/
theorem step_iff (h : Sound s) (hrows : FilesHaveRows x s) (a : Resume) :
    ((∀ conn, (tasksStep py x s a).2 = some conn → s.held = some conn) ∧ FilesHaveRows x (tasksStep py x s a).1) ↔
      InTime s a := by
  rcases step_cases s a with ⟨hm, hin⟩ | ⟨conn, ok, now, c, rfl, hc, hm⟩
  · exact iff_of_true ⟨fun conn hout => moves_held h hm hout, rows_moves hrows hm⟩ hin
  · have hintime : InTime s (.capture conn ok now) ↔ (c.phase = .written → s.held = some conn) := by
      rw [held_iff h hc]
      constructor
      · exact fun hin hp => hin conn ok now c rfl hc hp
      · rintro hin _ _ _ c' ⟨⟩ hc' hp
        obtain rfl := Option.some.inj (hc.symm.trans hc')
        exact hin hp
    rw [hintime]
    constructor
    · rintro ⟨hheld, -⟩ hp
      refine hheld conn ?_
      generalize (tasksStep py x s (.capture conn ok now)).1 = s',
        (tasksStep py x s (.capture conn ok now)).2 = out at hm
      cases hm with
      | stays hne | goes hne => exact absurd hp hne
      | stores | refused | rejected => rfl
    · intro hin
      refine ⟨fun conn' hout => ?_, rows_capture hrows hm hin⟩
      generalize (tasksStep py x s (.capture conn ok now)).1 = s',
        (tasksStep py x s (.capture conn ok now)).2 = out at hm hout
      cases hm with
      | stays | goes => cases hout
      | stores _ hp | refused hp | rejected hp => exact hout ▸ hin hp

/-- Files and rows agree exactly in the runs where each task that has written its
file gets to its statement before `run` has left the block that started it. -/
theorem rows_agree_iff (py : PyText) (x : Imaging) (db : Database) (acts : List Resume) :
    RowsAgree py x db acts ↔ Mealy.Always (tasksStep py x) InTime { db } acts := by
  refine Mealy.always_rel (tasksStep py x) (tasksStep py x)
    (fun s t => s = t ∧ Sound s ∧ FilesHaveRows x s) ?_ ?_
    ⟨rfl, sound_init db, fun conn c hc => by cases hc⟩ acts
  · rintro s _ a ⟨rfl, h, -⟩ ⟨-, hrows⟩
    exact ⟨rfl, sound_step h a, hrows⟩
  · rintro s _ a ⟨rfl, h, hrows⟩
    exact step_iff h hrows a

/-- Every frame is sharp. -/
def sharp : Imaging := { laplacianVar := fun _ => some 250 }

def configured : Database := .withCameras [⟨"cam_1", "Aisle 1"⟩] (List.nodup_singleton _)

/-- `run` handles the entry to the end, then the task writes the file. -/
def runFirst : List Resume :=
  [.run true none, .run true none, .run true none, .run true (some [255]), .run true none, .capture 0 true 2,
    .capture 0 true 2]

/-- The `INSERT` comes when the connection has been released. -/
theorem rows_agree_fails :
    ¬ ∀ (py : PyText) (x : Imaging) (db : Database) (acts : List Resume), RowsAgree py x db acts := by
  intro hall
  obtain ⟨-, hrest⟩ := hall .reference sharp configured
    (.entry (theftEntry .reference) :: runFirst ++ [.capture 0 true 2])
  have hentry : (tasksStep .reference sharp { db := configured } (.entry (theftEntry .reference))).1 =
      { db := configured, run := .acquiring theft } := by
    simp [tasksStep, decode_theftEntry]
  rw [hentry] at hrest
  obtain ⟨-, ⟨hstatement, -⟩, -⟩ := Mealy.always_append.1 hrest
  have hout : (tasksStep .reference sharp
      (Mealy.after (tasksStep .reference sharp) { db := configured, run := .acquiring theft } runFirst)
      (.capture 0 true 2)).2 = some 0 := by
    decide +kernel
  have hreleased : (Mealy.after (tasksStep .reference sharp) { db := configured, run := .acquiring theft }
      runFirst).held = none := by
    decide +kernel
  have hheld := hstatement 0 hout
  rw [hreleased] at hheld
  cases hheld

end

end Persistence

end Netra
