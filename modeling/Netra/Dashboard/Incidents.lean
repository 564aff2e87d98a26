import Netra.Types
import Mathlib.Data.List.Induction
/-!
# The incidents page

The store (`frontend/src/stores/incidents.ts`) with the effect and the live events
of `useIncidents`. Every change of filter or page fetches, the answers come in any
order, and each success overwrites the rows. So the rows are those of the last
success to arrive, with the live events since (`rows_after`); they are those of what
is selected only when that success says the same as the newest fetch's
(`shows_selected_iff`).
-/
namespace Netra.Dashboard

/-- An incident of the API, with what the filters select by. -/
structure Incident where
  id : String
  cameraId : String
  severity : AlertSeverity
  status : IncidentStatus
  deriving DecidableEq

structure IncidentListResponse where
  total : Int
  incidents : List Incident
  deriving DecidableEq

structure IncidentFilters where
  severity : Option AlertSeverity := none
  cameraId : Option String := none
  status : Option IncidentStatus := none
  limit : Option Int := none
  offset : Option Int := none
  deriving DecidableEq

/-- `Partial<IncidentFilters>`: a key is absent, or set, perhaps to `undefined`. -/
structure PartialFilters where
  severity : Option (Option AlertSeverity) := none
  cameraId : Option (Option String) := none
  status : Option (Option IncidentStatus) := none
  limit : Option (Option Int) := none
  offset : Option (Option Int) := none

/-- `{ ...f, ...p }` -/
def IncidentFilters.spread (f : IncidentFilters) (p : PartialFilters) : IncidentFilters where
  severity := p.severity.getD f.severity
  cameraId := p.cameraId.getD f.cameraId
  status := p.status.getD f.status
  limit := p.limit.getD f.limit
  offset := p.offset.getD f.offset

/-- What a `catch` finds. -/
inductive Thrown where
  /-- an `Error` -/
  | error (message : String)
  | other

def Thrown.message : Thrown → String
  | .error message => message
  | .other => "Failed to fetch incidents"

/-! ## `useIncidentsStore` -/

structure IncidentsState where
  incidents : List Incident := []
  total : Int := 0
  loading : Bool := false
  error : Option String := none
  filters : IncidentFilters := {}
  page : Int := 0
  pageSize : Int := 20

namespace IncidentsState

variable (s : IncidentsState)

def setFilters (filters : PartialFilters) : IncidentsState :=
  { s with filters := s.filters.spread filters, page := 0 }

def setPage (page : Int) : IncidentsState := { s with page := page }

def setSeverityFilter (severity : Option AlertSeverity) : IncidentsState :=
  { s with filters := { s.filters with severity := severity }, page := 0 }

def setStatusFilter (status : Option IncidentStatus) : IncidentsState :=
  { s with filters := { s.filters with status := status }, page := 0 }

def setCameraFilter (cameraId : Option String) : IncidentsState :=
  { s with filters := { s.filters with cameraId := cameraId }, page := 0 }

/-- What `fetchIncidents` passes to `getIncidents`. -/
def requested : IncidentFilters :=
  { s.filters with limit := some s.pageSize, offset := some (s.page * s.pageSize) }

/-- `fetchIncidents` up to its `await`. -/
def fetching : IncidentsState := { s with loading := true, error := none }

/-- `fetchIncidents` from its `await` on. -/
def fetched : Except Thrown IncidentListResponse → IncidentsState
  | .ok result => { s with incidents := result.incidents, total := result.total, loading := false }
  | .error err => { s with error := some err.message, loading := false }

def upsertIncident (incident : Incident) : IncidentsState :=
  match s.incidents.findIdx? (·.id = incident.id) with
  | some idx => { s with incidents := s.incidents.set idx incident }
  | none => { s with incidents := incident :: s.incidents, total := s.total + 1 }

/-- An answer leaves what is selected alone, and ends the loading. -/
theorem requested_fetched (s : IncidentsState) (result : Except Thrown IncidentListResponse) :
    (s.fetched result).requested = s.requested ∧ (s.fetched result).loading = false := by
  cases result with
  | ok r => exact ⟨rfl, rfl⟩
  | error err => exact ⟨rfl, rfl⟩

theorem requested_upsertIncident (s : IncidentsState) (incident : Incident) :
    (s.upsertIncident incident).requested = s.requested ∧ (s.upsertIncident incident).loading = s.loading := by
  unfold upsertIncident
  split
  · exact ⟨rfl, rfl⟩
  · exact ⟨rfl, rfl⟩

end IncidentsState

/-! ## `useIncidents` -/

inductive Change where
  | setFilters (filters : PartialFilters)
  | setPage (page : Int)
  | setSeverityFilter (severity : Option AlertSeverity)
  | setStatusFilter (status : Option IncidentStatus)
  | setCameraFilter (cameraId : Option String)

def Change.apply (s : IncidentsState) : Change → IncidentsState
  | .setFilters filters => s.setFilters filters
  | .setPage page => s.setPage page
  | .setSeverityFilter severity => s.setSeverityFilter severity
  | .setStatusFilter status => s.setStatusFilter status
  | .setCameraFilter cameraId => s.setCameraFilter cameraId

/-- Whether `[store.filters, store.page]` is other than before: a spread is a new
object whatever it holds. -/
def Change.runsEffect (s : IncidentsState) : Change → Bool
  | .setPage page => page ≠ s.page
  | .setFilters _ | .setSeverityFilter _ | .setStatusFilter _ | .setCameraFilter _ => true

/-- What reached the page: how the `n`-th fetch ended, or a live event. -/
inductive Heard where
  | answer (n : Nat) (result : Except Thrown IncidentListResponse)
  | live (incident : Incident)

def Heard.ofFetch (n : Nat) : Heard → Bool
  | .answer m _ => m = n
  | .live _ => false

structure Page where
  store : IncidentsState := {}
  /-- the fetches issued, each by what it asks for -/
  asked : List IncidentFilters := []
  heard : List Heard := []

namespace Page

def fetchIncidents (s : Page) : Page :=
  { s with store := s.store.fetching, asked := s.asked ++ [s.store.requested] }

def answered (s : Page) (n : Nat) : Bool := s.heard.any (·.ofFetch n)

/-- Every fetch has ended. -/
def Settled (s : Page) : Prop := ∀ n < s.asked.length, s.answered n

instance (s : Page) : Decidable s.Settled := inferInstanceAs (Decidable (∀ n < s.asked.length, s.answered n = true))

end Page

inductive Event where
  | change (c : Change)
  /-- Mounting, or `refetch`. -/
  | refetch
  | answer (n : Nat) (result : Except Thrown IncidentListResponse)
  | live (incident : Incident)

/-- A fetch ends once; other answers do not happen. -/
def step (s : Page) : Event → Page
  | .change c =>
    let s' := { s with store := c.apply s.store }
    if c.runsEffect s.store then s'.fetchIncidents else s'
  | .refetch => s.fetchIncidents
  | .answer n result =>
    if n < s.asked.length ∧ ¬ s.answered n then
      { s with store := s.store.fetched result, heard := s.heard ++ [.answer n result] }
    else s
  | .live incident => { s with store := s.store.upsertIncident incident, heard := s.heard ++ [.live incident] }

def after (events : List Event) : Page := events.foldl step {}

/-! ## What the page shows -/

def IncidentsState.rows (s : IncidentsState) : IncidentListResponse := ⟨s.total, s.incidents⟩

/-- A live event laid over a response: its incident replaces the row of its id, or
comes first and counts. -/
def IncidentListResponse.lay (r : IncidentListResponse) (incident : Incident) : IncidentListResponse :=
  match r.incidents.findIdx? (·.id = incident.id) with
  | some idx => { r with incidents := r.incidents.set idx incident }
  | none => ⟨r.total + 1, incident :: r.incidents⟩

theorem IncidentsState.rows_upsertIncident (s : IncidentsState) (incident : Incident) :
    (s.upsertIncident incident).rows = s.rows.lay incident := by
  unfold upsertIncident IncidentListResponse.lay
  have hrows : s.rows.incidents = s.incidents := rfl
  rw [hrows]
  cases s.incidents.findIdx? (·.id = incident.id) with
  | some idx => rfl
  | none => rfl

/-- What was last got, and the live events since. -/
structure Latest where
  success : Option IncidentListResponse := none
  since : List Incident := []

def Latest.next (l : Latest) : Heard → Latest
  | .answer _ (.ok r) => ⟨some r, []⟩
  | .answer _ (.error _) => l
  | .live incident => { l with since := l.since ++ [incident] }

/-- The last success to arrive. -/
def latest (heard : List Heard) : Latest := heard.foldl Latest.next {}

def Latest.rows (l : Latest) : IncidentListResponse := l.since.foldl .lay (l.success.getD ⟨0, []⟩)

theorem latest_concat (heard : List Heard) (h : Heard) : latest (heard ++ [h]) = (latest heard).next h := by
  rw [latest, latest, List.foldl_append]
  rfl

theorem latest_isSome {heard : List Heard} {n : Nat} {r : IncidentListResponse}
    (h : .answer n (.ok r) ∈ heard) : (latest heard).success.isSome := by
  induction heard using List.reverseRecOn with
  | nil => exact absurd h List.not_mem_nil
  | append_singleton heard last ih =>
    rw [latest_concat]
    cases last with
    | live incident => exact ih (by simpa using h)
    | answer m result =>
      cases result with
      | ok r' => rfl
      | error err => exact ih (by simpa using h)

/-! ## Invariants -/

theorem Change.apply_eq (s : IncidentsState) (c : Change) :
    (c.apply s).rows = s.rows ∧ (c.apply s).loading = s.loading ∧
      (c.runsEffect s = false → (c.apply s).requested = s.requested) := by
  cases c with
  | setPage page =>
    refine ⟨rfl, rfl, fun hsame => ?_⟩
    have hpage : page = s.page := by simpa [runsEffect] using hsame
    rw [hpage]
    rfl
  | setFilters filters => exact ⟨rfl, rfl, nofun⟩
  | setSeverityFilter severity => exact ⟨rfl, rfl, nofun⟩
  | setStatusFilter status => exact ⟨rfl, rfl, nofun⟩
  | setCameraFilter cameraId => exact ⟨rfl, rfl, nofun⟩

/-- The rows are those of the last success with the live events since, the newest
fetch asks for what is selected, and the page loads only while that fetch runs. -/
structure Inv (s : Page) : Prop where
  rows : s.store.rows = (latest s.heard).rows
  current : ∀ q, s.asked.getLast? = some q → q = s.store.requested
  issued : ∀ h ∈ s.heard, ∀ n, h.ofFetch n → n < s.asked.length
  loading : s.store.loading → ∃ n, n + 1 = s.asked.length ∧ s.answered n = false

theorem Inv.init : Inv {} where
  rows := rfl
  current := by simp
  issued := by simp
  loading := by simp

/-- A fetch asks for what is selected then. -/
theorem Inv.fetchIncidents {s : Page} (hrows : s.store.rows = (latest s.heard).rows)
    (hissued : ∀ h ∈ s.heard, ∀ n, h.ofFetch n → n < s.asked.length) : Inv s.fetchIncidents where
  rows := hrows
  current q hq := by
    rw [Page.fetchIncidents, List.getLast?_concat] at hq
    exact (Option.some.inj hq).symm
  issued h hh n hn := by
    rw [Page.fetchIncidents, List.length_append]
    exact Nat.lt_add_right 1 (hissued h hh n hn)
  loading _ := by
    refine ⟨s.asked.length, by simp [Page.fetchIncidents], List.any_eq_false.2 ?_⟩
    intro h hh hn
    exact absurd (hissued h hh _ hn) (lt_irrefl _)

theorem Inv.change {s : Page} (hi : Inv s) (c : Change) : Inv (step s (.change c)) := by
  obtain ⟨hrows, hloading, hrequested⟩ := c.apply_eq s.store
  rw [step]
  split
  · exact .fetchIncidents (hrows.trans hi.rows) hi.issued
  · rename_i hruns
    constructor
    · exact hrows.trans hi.rows
    · intro q hq
      exact (hi.current q hq).trans (hrequested (Bool.eq_false_iff.2 hruns)).symm
    · exact hi.issued
    · intro hl
      exact hi.loading (hloading ▸ hl)

theorem Inv.answer {s : Page} (hi : Inv s) (n : Nat) (result : Except Thrown IncidentListResponse) :
    Inv (step s (.answer n result)) := by
  obtain ⟨hrequested, hloading⟩ := s.store.requested_fetched result
  rw [step]
  split
  · rename_i hpending
    constructor
    · rw [latest_concat]
      cases result with
      | ok r => rfl
      | error err => exact hi.rows
    · intro q hq
      exact (hi.current q hq).trans hrequested.symm
    · intro h hh m hm
      rcases List.mem_append.1 hh with hh | hh
      · exact hi.issued h hh m hm
      · obtain rfl := List.mem_singleton.1 hh
        exact of_decide_eq_true hm ▸ hpending.1
    · intro hl
      rw [hloading] at hl
      exact absurd hl Bool.false_ne_true
  · exact hi

theorem Inv.live {s : Page} (hi : Inv s) (incident : Incident) : Inv (step s (.live incident)) := by
  obtain ⟨hrequested, hloading⟩ := s.store.requested_upsertIncident incident
  constructor
  · rw [step, latest_concat, s.store.rows_upsertIncident, hi.rows, Latest.next, Latest.rows, Latest.rows,
      List.foldl_concat]
  · intro q hq
    exact (hi.current q hq).trans hrequested.symm
  · intro h hh n hn
    rcases List.mem_append.1 hh with hh | hh
    · exact hi.issued h hh n hn
    · obtain rfl := List.mem_singleton.1 hh
      exact absurd hn Bool.false_ne_true
  · intro hl
    obtain ⟨n, hn, hopen⟩ := hi.loading (hloading ▸ hl)
    refine ⟨n, hn, ?_⟩
    rw [Page.answered, step, List.any_append]
    exact Bool.or_eq_false_iff.2 ⟨hopen, rfl⟩

theorem Inv.step {s : Page} (hi : Inv s) (e : Event) : Inv (step s e) := by
  cases e with
  | change c => exact hi.change c
  | refetch => exact .fetchIncidents hi.rows hi.issued
  | answer n result => exact hi.answer n result
  | live incident => exact hi.live incident

theorem after_inv (events : List Event) : Inv (after events) := by
  induction events using List.reverseRecOn with
  | nil => exact .init
  | append_singleton events e ih =>
    rw [after, List.foldl_append]
    exact ih.step e

/-- The page shows the last success to arrive, with the live events since. -/
theorem rows_after {events : List Event} {r : IncidentListResponse}
    (hr : (latest (after events).heard).success = some r) :
    (after events).store.rows = (latest (after events).heard).since.foldl .lay r := by
  rw [(after_inv events).rows, Latest.rows, hr, Option.getD_some]

/-! ## What is selected -/

/-- The newest fetch succeeded, with `r`. -/
def Page.NewestGot (s : Page) (r : IncidentListResponse) : Prop :=
  ∃ n, n + 1 = s.asked.length ∧ .answer n (.ok r) ∈ s.heard

/-- Once every fetch has ended, and the newest in success, the page shows what it
got for what is selected, with the events `live`. -/
def ShowsSelected (s : Page) (live : List Incident) : Prop :=
  s.Settled → ∀ r, s.NewestGot r →
    s.asked.getLast? = some s.store.requested ∧ s.store.rows = live.foldl .lay r ∧ s.store.loading = false

/-- The last success to arrive says what the newest fetch got. -/
def NewestLast (s : Page) : Prop := s.Settled → ∀ r, s.NewestGot r → (latest s.heard).success = some r

/-- The newest fetch asks for what is selected, and once it has ended the page does
not load. -/
theorem Inv.settled {s : Page} (hi : Inv s) (hs : s.Settled) {r : IncidentListResponse} (hr : s.NewestGot r) :
    s.asked.getLast? = some s.store.requested ∧ s.store.loading = false := by
  obtain ⟨n, hn, -⟩ := hr
  constructor
  · have hne : s.asked ≠ [] := List.ne_nil_of_length_pos (by omega)
    have hlast := List.getLast?_eq_some_getLast hne
    rw [hlast, hi.current _ hlast]
  · rw [Bool.eq_false_iff]
    intro hl
    obtain ⟨m, hm, hopen⟩ := hi.loading hl
    exact absurd (hs m (by omega)) (Bool.eq_false_iff.1 hopen)

/-- With no live event since the last success, the page shows what is selected if and
only if that success says what the newest fetch got. Then, with live events since,
it shows what is selected with these laid over it. -/
theorem shows_selected_iff (events : List Event) :
    ((latest (after events).heard).since = [] →
      (ShowsSelected (after events) [] ↔ NewestLast (after events))) ∧
    (NewestLast (after events) → ShowsSelected (after events) (latest (after events).heard).since) := by
  have hshows (hlast : NewestLast (after events)) :
      ShowsSelected (after events) (latest (after events).heard).since := by
    intro hs r hr
    obtain ⟨hasked, hloading⟩ := (after_inv events).settled hs hr
    exact ⟨hasked, rows_after (hlast hs r hr), hloading⟩
  refine ⟨fun hquiet => ⟨?_, fun hlast => hquiet ▸ hshows hlast⟩, hshows⟩
  intro hshown hs r hr
  obtain ⟨n, -, hmem⟩ := id hr
  obtain ⟨r', hr'⟩ := Option.isSome_iff_exists.1 (latest_isSome hmem)
  have hrows := (hshown hs r hr).2.1
  rw [rows_after hr', hquiet] at hrows
  rw [hr']
  exact congrArg some hrows

/-- A row of each of two severities. -/
def high : Incident := ⟨"3f", "cam-1", .high, .opened⟩
def low : Incident := ⟨"7c", "cam-1", .low, .opened⟩

/-- The page is opened and has loaded; `LOW` is selected, and then `HIGH`. -/
def selecting : List Event :=
  [.refetch, .answer 0 (.ok ⟨2, [low, high]⟩), .change (.setSeverityFilter (some .low)),
    .change (.setSeverityFilter (some .high))]

/-- The answers come in order, and then a live event. -/
def inOrder : List Event := selecting ++ [.answer 1 (.ok ⟨1, [low]⟩), .answer 2 (.ok ⟨1, [high]⟩), .live low]

theorem shows_selected_inOrder : ShowsSelected (after inOrder) [low] := by
  refine (shows_selected_iff inOrder).2 fun _ r hr => ?_
  obtain ⟨n, hn, hmem⟩ := hr
  have hasked : (after inOrder).asked.length = 3 := rfl
  have hheard : (after inOrder).heard =
    [.answer 0 (.ok ⟨2, [low, high]⟩), .answer 1 (.ok ⟨1, [low]⟩), .answer 2 (.ok ⟨1, [high]⟩), .live low] := rfl
  obtain rfl : n = 2 := by omega
  obtain rfl : r = ⟨1, [high]⟩ := by simpa [hheard] using hmem
  rfl

/-- The newer fetch ends first. -/
def overtaken : List Event := selecting ++ [.answer 2 (.ok ⟨1, [high]⟩), .answer 1 (.ok ⟨1, [low]⟩)]

/-- The page shows the `LOW` rows while `HIGH` is selected. -/
theorem shows_selected_fails :
    (latest (after overtaken).heard).since = [] ∧ ¬ ShowsSelected (after overtaken) [] := by
  refine ⟨rfl, fun hshown => ?_⟩
  have hheard : (after overtaken).heard =
    [.answer 0 (.ok ⟨2, [low, high]⟩), .answer 2 (.ok ⟨1, [high]⟩), .answer 1 (.ok ⟨1, [low]⟩)] := rfl
  have hgot : (after overtaken).NewestGot ⟨1, [high]⟩ := ⟨2, rfl, by simp [hheard]⟩
  have hrows := (hshown (by decide) _ hgot).2.1
  exact absurd hrows (by decide)

end Netra.Dashboard
