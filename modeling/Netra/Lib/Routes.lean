import Mathlib.Data.List.Basic
import Mathlib.Data.Fintype.EquivFin
/-!
# Tables of routes

A request goes to the first route of its method that its path fits. A segment of a path
is an element of an infinite type; a route names it or takes any but the empty one. So a
route is out of reach just when a single earlier one takes all its paths
(`mem_shadowed`), and `shadowed` finds these routes.
-/
namespace Routes

variable {α M H : Type}

inductive Segment (α : Type) where
  | lit (s : α)
  /-- `{name}` -/
  | param
  deriving DecidableEq

structure Route (α M H : Type) where
  method : M
  path : List (Segment α)
  handler : H
  deriving DecidableEq

section
variable [DecidableEq α] (empty : α)

def Segment.fits : Segment α → α → Bool
  | .lit t, s => s = t
  | .param, s => s ≠ empty

def fits : List (Segment α) → List α → Bool
  | [], [] => true
  | p :: ps, s :: ss => p.fits empty s && fits ps ss
  | _, _ => false

/-- What the parameters stand for. -/
def args : List (Segment α) → List α → List α
  | .lit _ :: ps, _ :: ss => args ps ss
  | .param :: ps, s :: ss => s :: args ps ss
  | _, _ => []

def Route.takes [DecidableEq M] (m : M) (path : List α) (r : Route α M H) : Bool :=
  r.method = m && fits empty r.path path

def dispatch [DecidableEq M] (routes : List (Route α M H)) (m : M) (path : List α) : Option (Route α M H) :=
  routes.find? (·.takes empty m path)

/-! ## One path within another -/

def Segment.covers : Segment α → Segment α → Bool
  | .lit t, .lit t' => t = t'
  | .lit _, .param => false
  | .param, .lit t => t ≠ empty
  | .param, .param => true

def covers : List (Segment α) → List (Segment α) → Bool
  | [], [] => true
  | p :: ps, q :: qs => p.covers empty q && covers ps qs
  | _, _ => false

theorem Segment.fits_of_covers {p q : Segment α} (h : p.covers empty q) {s : α} (hq : q.fits empty s) :
    p.fits empty s := by
  cases p <;> cases q <;> simp_all [Segment.covers, Segment.fits]

theorem fits_of_covers {ps qs : List (Segment α)} (h : covers empty ps qs) {path : List α}
    (hq : fits empty qs path) : fits empty ps path := by
  induction ps generalizing qs path with
  | nil => cases qs <;> simp_all [covers]
  | cons p ps ih =>
    cases qs with
    | nil => simp [covers] at h
    | cons q qs =>
      cases path with
      | nil => simp [fits] at hq
      | cons s ss =>
        simp only [covers, Bool.and_eq_true] at h
        simp only [fits, Bool.and_eq_true] at hq ⊢
        exact ⟨Segment.fits_of_covers empty h.1 hq.1, ih h.2 hq.2⟩

/-- A path of the route, with `x` for every parameter. -/
def Segment.fill (x : α) : Segment α → α
  | .lit t => t
  | .param => x

theorem fits_fill {x : α} (hx : x ≠ empty) (qs : List (Segment α)) : fits empty qs (qs.map (·.fill x)) := by
  induction qs with
  | nil => rfl
  | cons q qs ih =>
    simp only [List.map_cons, fits, ih, Bool.and_true]
    cases q <;> simp [Segment.fits, Segment.fill, hx]

theorem Segment.covers_of_fits {x : α} {p q : Segment α} (hx : .lit x ≠ p) (h : p.fits empty (q.fill x)) :
    p.covers empty q := by
  cases p with
  | lit t =>
    cases q with
    | lit t' => simpa [Segment.covers, Segment.fits, Segment.fill, eq_comm] using h
    | param => simp_all [Segment.fits, Segment.fill]
  | param =>
    cases q with
    | lit t' => exact h
    | param => rfl

/-- A route that takes a path with a segment it does not name takes all such paths. -/
theorem covers_of_fits {x : α} {ps qs : List (Segment α)} (hx : .lit x ∉ ps)
    (h : fits empty ps (qs.map (·.fill x))) : covers empty ps qs := by
  induction ps generalizing qs with
  | nil => cases qs <;> simp_all [covers, fits]
  | cons p ps ih =>
    cases qs with
    | nil => simp [fits] at h
    | cons q qs =>
      simp only [List.map_cons, fits, Bool.and_eq_true] at h
      simp only [List.mem_cons, not_or] at hx
      simp only [covers, Bool.and_eq_true]
      exact ⟨Segment.covers_of_fits empty hx.1 h.1, ih hx.2 h.2⟩

/-- There is a segment that none of the routes names. -/
theorem exists_fresh [Infinite α] (routes : List (Route α M H)) :
    ∃ x, x ≠ empty ∧ ∀ r ∈ routes, .lit x ∉ r.path := by
  let named : List α := empty :: routes.flatMap fun r => r.path.map (·.fill empty)
  obtain ⟨x, hx⟩ := Infinite.exists_notMem_finset named.toFinset
  simp only [named, List.mem_toFinset, List.mem_cons, List.mem_flatMap, List.mem_map, not_or, not_exists,
    not_and] at hx
  refine ⟨x, hx.1, ?_⟩
  intro r hr hmem
  exact hx.2 r hr (.lit x) hmem rfl

/-! ## Routes out of reach -/

variable [DecidableEq M]

/-- The routes whose paths an earlier one takes; `seen` are those before. -/
def shadowed (seen : List (Route α M H)) : List (Route α M H) → List (Route α M H)
  | [] => []
  | r :: rs =>
    if seen.any fun s => s.method = r.method && covers empty s.path r.path then r :: shadowed (seen ++ [r]) rs
    else shadowed (seen ++ [r]) rs

theorem mem_of_mem_shadowed {seen rs : List (Route α M H)} {r : Route α M H} (h : r ∈ shadowed empty seen rs) :
    r ∈ rs := by
  induction rs generalizing seen with
  | nil => simp [shadowed] at h
  | cons q qs ih =>
    rw [shadowed] at h
    split at h
    · rcases List.mem_cons.1 h with rfl | h
      · exact List.mem_cons_self
      · exact List.mem_cons_of_mem _ (ih h)
    · exact List.mem_cons_of_mem _ (ih h)

/-- A request reaches the route behind `seen` if no route of `seen` takes all it takes. -/
theorem reached_iff [Infinite α] (seen rs : List (Route α M H)) (r : Route α M H) (hr : r ∉ seen) :
    (∃ path, dispatch empty (seen ++ r :: rs) r.method path = some r) ↔
      ∀ s ∈ seen, s.method = r.method → covers empty s.path r.path = false := by
  constructor
  · rintro ⟨path, hpath⟩ s hs hm
    by_contra hc
    have hfits : fits empty r.path path := by
      have := List.find?_some hpath
      simp only [Route.takes, decide_true, Bool.true_and] at this
      exact this
    have htakes : s.takes empty r.method path := by
      simp [Route.takes, hm, fits_of_covers empty (Bool.not_eq_false _ ▸ hc) hfits]
    -- a route of `seen` takes the path, so the first that does is not `r`
    rw [dispatch, List.find?_append] at hpath
    cases hf : seen.find? (·.takes empty r.method path) with
    | none => exact absurd htakes (by simpa using List.find?_eq_none.1 hf s hs)
    | some s' =>
      rw [hf, Option.some_or, Option.some.injEq] at hpath
      exact hr (hpath ▸ List.mem_of_find?_eq_some hf)
  · intro h
    obtain ⟨x, hx, hfresh⟩ := exists_fresh empty seen
    refine ⟨r.path.map (·.fill x), ?_⟩
    have hseen : seen.find? (·.takes empty r.method (r.path.map (·.fill x))) = none := by
      rw [List.find?_eq_none]
      intro s hs htakes
      simp only [Route.takes, Bool.and_eq_true, decide_eq_true_eq] at htakes
      have := covers_of_fits empty (hfresh s hs) htakes.2
      simp [h s hs htakes.1] at this
    have hself : r.takes empty r.method (r.path.map (·.fill x)) := by
      simp [Route.takes, fits_fill empty hx]
    rw [dispatch, List.find?_append, hseen, Option.none_or, List.find?_cons_of_pos hself]

/-- The routes of `rs` that no request reaches are those `shadowed` lists. -/
theorem mem_shadowed [Infinite α] {seen rs : List (Route α M H)} (hn : (seen ++ rs).Nodup) {r : Route α M H}
    (hr : r ∈ rs) :
    r ∈ shadowed empty seen rs ↔ ∀ path, dispatch empty (seen ++ rs) r.method path ≠ some r := by
  induction rs generalizing seen with
  | nil => simp at hr
  | cons q qs ih =>
    have hq : q ∉ seen := fun h => (List.nodup_append.1 hn).2.2 q h q List.mem_cons_self rfl
    have hqs : q ∉ qs := (List.nodup_cons.1 (List.nodup_append.1 hn).2.1).1
    have hsplit : seen ++ q :: qs = (seen ++ [q]) ++ qs := by simp
    rcases List.mem_cons.1 hr with rfl | hr'
    · have hreach := reached_iff empty seen qs r hq
      have hself : r ∉ shadowed empty (seen ++ [r]) qs := fun h => hqs (mem_of_mem_shadowed empty h)
      rw [← not_exists_not]
      simp only [ne_eq, not_not]
      rw [hreach, shadowed]
      split
      · rename_i hany
        simpa using hany
      · rename_i hany
        simpa [hself] using hany
    · have hne : r ≠ q := fun h => hqs (h ▸ hr')
      rw [hsplit] at hn ⊢
      rw [← ih hn hr', shadowed]
      split
      · simp [hne]
      · rfl

end

end Routes
