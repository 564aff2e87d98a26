import Netra.Lib.Pages
import Netra.Lib.Table
import Netra.Store.Schema
/-!
# The list of incidents

`list_incidents` (`backend/gateway/main.py`) builds a `WHERE` from the filters that are
given, with a numbered parameter for each, and uses it in two statements. What comes back
is a page of the incidents that pass the filters, and their number
(`listIncidents_eq`). PostgreSQL may order the incidents of one moment differently for
every page: while the table stays as it is, the pages together are the incidents, each once,
just when no page ends within such a moment (`incidents_paged`).
-/
namespace Netra.Gateway

open Table Store

/-! ## The statements -/

/-- The columns that are filtered by. -/
inductive Column where
  | severity
  | cameraId
  | status

def Column.get (r : Incident) : Column → String
  | .severity => r.severity
  | .cameraId => r.cameraId
  | .status => r.status

/-- `column = $param` -/
structure Condition where
  column : Column
  param : Nat

/-- An element of `params`. -/
inductive Param where
  | text (s : String)
  | int (n : Int)

/-- `conditions`, `params` and `idx` -/
structure Where where
  conditions : List Condition := []
  params : List Param := []
  idx : Nat := 1

/-- `if value: conditions.append(...); params.append(value); idx += 1` -/
def Where.add (w : Where) (column : Column) (value : Option String) : Where :=
  match value with
  | none => w
  | some value =>
    if value = "" then w
    else ⟨w.conditions ++ [⟨column, w.idx⟩], w.params ++ [.text value], w.idx + 1⟩

/-- The arguments of `list_incidents`. -/
structure ListQuery where
  limit : Int := 50
  offset : Int := 0
  severity : Option String := none
  cameraId : Option String := none
  status : Option String := none

def ListQuery.where_ (q : ListQuery) : Where :=
  ((({} : Where).add .severity q.severity).add .cameraId q.cameraId).add .status q.status

/-- The argument for `$i`. -/
def argument (params : List Param) (i : Nat) : Option Param := params[i - 1]?

/-- A condition with its argument; a number is no argument for a text column. -/
def Condition.bind (params : List Param) (c : Condition) : Option (Column × String) :=
  match argument params c.param with
  | some (.text s) => some (c.column, s)
  | _ => none

/-- The argument of `LIMIT` or `OFFSET`; a negative one is an error. -/
def bindCount (params : List Param) (i : Nat) : Option Nat :=
  match argument params i with
  | some (.int n) => if n < 0 then none else some n.toNat
  | _ => none

def holds (bound : List (Column × String)) (r : Incident) : Bool := bound.all fun (c, s) => c.get r = s

/-- `SELECT * FROM incidents {where} ORDER BY occurred_at DESC LIMIT $limit OFFSET $offset`; the statement
has `parameters` of them, and there must be as many arguments. -/
def fetch (scan : Scan Incident) (conditions : List Condition) (limit offset parameters : Nat) (params : List Param)
    (rows : List Incident) : Option (List Incident) :=
  if params.length ≠ parameters then none
  else do
    let bound ← conditions.mapM (·.bind params)
    let limit ← bindCount params limit
    let offset ← bindCount params offset
    return ((select scan (holds bound) (·.occurredAt) rows).drop offset).take limit

/-- `SELECT COUNT(*) FROM incidents {where}` -/
def fetchval (conditions : List Condition) (parameters : Nat) (params : List Param) (rows : List Incident) :
    Option Nat :=
  if params.length ≠ parameters then none
  else do
    let bound ← conditions.mapM (·.bind params)
    return (rows.filter (holds bound)).length

structure ListResponse where
  total : Nat
  incidents : List Incident

/-- `list_incidents`, when its statements find the tables `rows` and `rows'`; `none` when one
of them raises. -/
def listIncidents (scan : Scan Incident) (rows rows' : List Incident) (q : ListQuery) : Option ListResponse := do
  let w := q.where_
  let params := w.params ++ [.int q.limit, .int q.offset]
  let incidents ← fetch scan w.conditions w.idx (w.idx + 1) (w.idx + 1) params rows
  let total ← fetchval w.conditions (w.idx - 1) (params.take (params.length - 2)) rows'
  return ⟨total, incidents⟩

/-! ## What is selected -/

/-- The filters that are given. -/
def given (column : Column) (value : Option String) : List (Column × String) :=
  match value with
  | none => []
  | some value => if value = "" then [] else [(column, value)]

def ListQuery.filters (q : ListQuery) : List (Column × String) :=
  given .severity q.severity ++ given .cameraId q.cameraId ++ given .status q.status

/-- The incidents that pass the filters. -/
def ListQuery.selected (q : ListQuery) (rows : List Incident) : List Incident := rows.filter (holds q.filters)

/-- The parameters are numbered from 1 on, and those of the conditions bind to `bound`,
whatever is added behind them. -/
structure Numbered (bound : List (Column × String)) (w : Where) : Prop where
  idx : w.idx = w.params.length + 1
  bind : ∀ more, w.conditions.mapM (·.bind (w.params ++ more)) = some bound

theorem numbered_init : Numbered [] {} := ⟨rfl, fun _ => rfl⟩

theorem numbered_add {bound : List (Column × String)} {w : Where} (h : Numbered bound w) (column : Column)
    (value : Option String) : Numbered (bound ++ given column value) (w.add column value) := by
  unfold Where.add given
  cases value with
  | none => simpa using h
  | some value =>
    dsimp only
    split
    · simpa using h
    · refine ⟨by simp [h.idx], fun more => ?_⟩
      have hlast : (⟨column, w.idx⟩ : Condition).bind (w.params ++ Param.text value :: more) = some (column, value) := by
        simp [Condition.bind, argument, h.idx]
      rw [List.append_assoc, List.singleton_append, List.mapM_append, h.bind]
      simp [hlast]

theorem ListQuery.numbered (q : ListQuery) : Numbered q.filters q.where_ :=
  numbered_add (numbered_add (numbered_add numbered_init .severity q.severity) .cameraId q.cameraId) .status q.status

/-- The arguments of the first statement. -/
def ListQuery.params (q : ListQuery) : List Param := q.where_.params ++ [.int q.limit, .int q.offset]

theorem fetch_eq (scan : Scan Incident) (rows : List Incident) (q : ListQuery) :
    fetch scan q.where_.conditions q.where_.idx (q.where_.idx + 1) (q.where_.idx + 1) q.params rows =
      if q.limit < 0 ∨ q.offset < 0 then none
      else some (((select scan (holds q.filters) (·.occurredAt) rows).drop q.offset.toNat).take q.limit.toNat) := by
  have h := q.numbered
  have hlen : q.params.length = q.where_.idx + 1 := by
    simp [ListQuery.params, h.idx]
  have hbind : q.where_.conditions.mapM (·.bind q.params) = some q.filters := h.bind _
  have hlimit : bindCount q.params q.where_.idx = if q.limit < 0 then none else some q.limit.toNat := by
    simp [bindCount, argument, ListQuery.params, h.idx]
  have hoffset : bindCount q.params (q.where_.idx + 1) = if q.offset < 0 then none else some q.offset.toNat := by
    simp [bindCount, argument, ListQuery.params, h.idx]
  rw [fetch, if_neg (not_not.2 hlen), hbind, hlimit, hoffset]
  by_cases hl : q.limit < 0 <;> by_cases ho : q.offset < 0 <;> simp [hl, ho]

/-- The other statement is given the arguments of the `WHERE`. -/
theorem fetchval_eq (rows : List Incident) (q : ListQuery) :
    fetchval q.where_.conditions (q.where_.idx - 1) (q.params.take (q.params.length - 2)) rows =
      some (q.selected rows).length := by
  have h := q.numbered
  have htake : q.params.take (q.params.length - 2) = q.where_.params := by
    simp [ListQuery.params]
  have hlen : q.where_.params.length = q.where_.idx - 1 := by
    rw [h.idx, Nat.add_sub_cancel]
  have hbind := h.bind []
  rw [List.append_nil] at hbind
  rw [htake, fetchval, if_neg (not_not.2 hlen), hbind]
  rfl

/-- Every request with a limit and an offset that are not negative is answered. -/
theorem listIncidents_eq (scan : Scan Incident) (rows rows' : List Incident) (q : ListQuery) :
    listIncidents scan rows rows' q =
      if q.limit < 0 ∨ q.offset < 0 then none
      else some ⟨(q.selected rows').length,
        ((select scan (holds q.filters) (·.occurredAt) rows).drop q.offset.toNat).take q.limit.toNat⟩ := by
  rw [listIncidents, ← ListQuery.params, fetch_eq, fetchval_eq]
  split <;> rfl

/-! ## Pages -/

/-- Page `i`, as the incidents page asks for it. -/
def ListQuery.paged (q : ListQuery) (n i : Nat) : ListQuery := { q with limit := n, offset := (i * n : Nat) }

/-- The incidents of page `i`, from a table that does not change from one request to the
next. -/
def pageRows (scan : Scan Incident) (rows : List Incident) (q : ListQuery) (n i : Nat) : List Incident :=
  ((listIncidents scan rows rows (q.paged n i)).map (·.incidents)).getD []

/-- `Math.ceil(total / pageSize)` -/
def totalPages (total n : Nat) : Nat := (total + n - 1) / n

theorem ListQuery.paged_nonneg (q : ListQuery) (n i : Nat) : ¬ ((q.paged n i).limit < 0 ∨ (q.paged n i).offset < 0) := by
  simp only [ListQuery.paged]
  omega

theorem pageRows_eq (scan : Scan Incident) (rows : List Incident) (q : ListQuery) (n i : Nat) :
    pageRows scan rows q n i = Pages.page n i (select scan (holds q.filters) (·.occurredAt) rows) := by
  rw [pageRows, listIncidents_eq, if_neg (q.paged_nonneg n i)]
  rfl

/-- A query lists the incidents that pass the filters, the latest first. -/
theorem listed_select (scan : Scan Incident) (rows : List Incident) (q : ListQuery) :
    Pages.Listed (·.occurredAt) (q.selected rows) (select scan (holds q.filters) (·.occurredAt) rows) where
  perm := (List.perm_insertionSort _ _).trans ((scan.perm rows).filter _)
  sorted := by
    rw [List.pairwise_map]
    exact List.pairwise_insertionSort (fun a b : Incident => b.occurredAt ≤ a.occurredAt) _

/-- Every such list is that of some query. -/
theorem exists_scan {rows s : List Incident} {q : ListQuery} (hs : Pages.Listed (·.occurredAt) (q.selected rows) s) :
    ∃ scan : Scan Incident, select scan (holds q.filters) (·.occurredAt) rows = s := by
  have hperm : (s ++ rows.filter (fun r => !holds q.filters r)).Perm rows :=
    (hs.perm.append_right _).trans (List.filter_append_perm _ _)
  have hall : s.filter (holds q.filters) = s := List.filter_eq_self.2 fun r hr =>
    (List.mem_filter.1 (hs.perm.subset hr)).2
  have hnone : (rows.filter fun r => !holds q.filters r).filter (holds q.filters) = [] := by
    rw [List.filter_filter]
    simp
  refine ⟨⟨fun l => if l = rows then s ++ rows.filter (fun r => !holds q.filters r) else l, fun l => ?_⟩, ?_⟩
  · split
    · rename_i hl
      rw [hl]
      exact hperm
    · exact .refl _
  · rw [select]
    dsimp only
    rw [if_pos rfl, List.filter_append, hall, hnone, List.append_nil]
    exact (List.pairwise_map.1 hs.sorted).insertionSort_eq

theorem le_totalPages_mul {total n : Nat} (hn : 0 < n) : total ≤ totalPages total n * n := by
  have hdiv := Nat.div_add_mod (total + n - 1) n
  have hmod := Nat.mod_lt (total + n - 1) hn
  rw [totalPages, Nat.mul_comm]
  omega

/-- What the pages of a list are worth. -/
structure Paged (db : Database) (q : ListQuery) (n : Nat) : Prop where
  /-- Every page comes with the number of all incidents that pass the filters. -/
  total : ∀ scan i, (listIncidents scan db.incidents db.incidents (q.paged n i)).map (·.total) =
    some (q.selected db.incidents).length
  /-- The pages together are these incidents, however each of them is ordered. -/
  each : (∀ scans : Nat → Scan Incident,
      ((List.range (totalPages (q.selected db.incidents).length n)).flatMap fun i =>
        pageRows (scans i) db.incidents q n i).Perm (q.selected db.incidents)) ↔
    ∀ s, Pages.Listed (·.occurredAt) (q.selected db.incidents) s → ∀ i, ¬ Pages.Splits (·.occurredAt) s (i * n)

theorem incidents_paged (db : Database) (q : ListQuery) {n : Nat} (hn : 0 < n) : Paged db q n := by
  refine ⟨fun scan i => ?_, ?_⟩
  · rw [listIncidents_eq, if_neg (q.paged_nonneg n i)]
    rfl
  · have hnodup : (q.selected db.incidents).Nodup := (List.Nodup.of_map _ db.incidents_pk).filter _
    rw [← Pages.pages_perm_iff (·.occurredAt) hn hnodup (le_totalPages_mul hn)]
    simp only [pageRows_eq]
    constructor
    · intro hscans orders horders
      choose scans hscan using fun i => exists_scan (horders i)
      have hperm := hscans scans
      simp only [hscan] at hperm
      exact hperm
    · intro horders scans
      exact horders _ fun i => listed_select (scans i) db.incidents q

/-! Two incidents of one moment, an earlier one, and one that the filter leaves out, in
pages of two. -/

def incidentAt (id : String) (occurredAt : ℚ) (severity : String) : Incident where
  id := id
  cameraId := "cam_1"
  trackId := 1
  riskScore := 1
  fsmScore := 1
  shopformerScore := 0
  theftStage := "CONCEALMENT"
  concealmentType := "HAND_TO_PANTS"
  severity := severity
  occurredAt := occurredAt

def fourIncidents : Database where
  cameras := [⟨"cam_1", "Till 2"⟩]
  incidents := [incidentAt "inc_1" 10 "HIGH", incidentAt "inc_2" 30 "LOW", incidentAt "inc_3" 20 "HIGH",
    incidentAt "inc_4" 20 "HIGH"]
  reviews := []
  alertEscalations := []
  cameras_pk := by decide
  incidents_pk := by decide
  incidents_camera := by decide
  reviews_incident := by simp
  escalations_incident := by simp
  escalations_unique := List.nodup_nil

def high : ListQuery := { severity := some "HIGH" }

theorem high_selected : high.selected fourIncidents.incidents =
    [incidentAt "inc_1" 10 "HIGH", incidentAt "inc_3" 20 "HIGH", incidentAt "inc_4" 20 "HIGH"] := by decide

/-- The first page is that of the later moment. -/
theorem high_not_splits {s : List Incident}
    (hs : Pages.Listed (·.occurredAt) (high.selected fourIncidents.incidents) s) (i : Nat) :
    ¬ Pages.Splits (·.occurredAt) s (i * 2) := by
  rintro ⟨pre, x, y, post, rfl, hlen, hxy⟩
  have hlisted : Pages.Listed (·.occurredAt) (high.selected fourIncidents.incidents)
      [incidentAt "inc_3" 20 "HIGH", incidentAt "inc_4" 20 "HIGH", incidentAt "inc_1" 10 "HIGH"] :=
    ⟨by rw [high_selected]; decide, by norm_num [incidentAt]⟩
  have hkeys := hs.keys_eq hlisted
  have htotal := congrArg List.length hkeys
  simp only [List.map_append, List.map_cons, List.map_nil, List.length_append, List.length_cons, List.length_nil,
    List.length_map] at htotal
  have hpre : pre.length = 1 := by omega
  obtain ⟨p, rfl⟩ := List.length_eq_one_iff.1 hpre
  simp only [List.singleton_append, List.map_cons, List.map_nil, incidentAt, List.cons.injEq] at hkeys
  obtain ⟨-, hx, hy, -⟩ := hkeys
  exact absurd (hx.symm.trans (hxy.trans hy)) (by norm_num)

/-- Two pages, and each of the three incidents on one of them. -/
theorem incidents_paged_twoPages :
    Paged fourIncidents high 2 ∧ totalPages (high.selected fourIncidents.incidents).length 2 = 2 ∧
      ∀ scans : Nat → Scan Incident, ((List.range 2).flatMap fun i =>
        pageRows (scans i) fourIncidents.incidents high 2 i).Perm
          [incidentAt "inc_1" 10 "HIGH", incidentAt "inc_3" 20 "HIGH", incidentAt "inc_4" 20 "HIGH"] := by
  have hpaged := incidents_paged fourIncidents high (n := 2) (by decide)
  have hpages : totalPages (high.selected fourIncidents.incidents).length 2 = 2 := by decide
  refine ⟨hpaged, hpages, fun scans => ?_⟩
  have hperm := hpaged.each.2 (fun s hs i => high_not_splits hs i) scans
  rwa [hpages, high_selected] at hperm

end Netra.Gateway
