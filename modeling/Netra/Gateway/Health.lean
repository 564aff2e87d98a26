import Netra.Lib.Machine
import Mathlib.Data.NNRat.Defs
import Mathlib.Logic.Function.Basic
import Mathlib.Tactic.Linarith
import Mathlib.Tactic.Ring
/-!
# The health of the services

The `heartbeat_loop` of a service sets a key that expires after 15 s and sleeps for 5 s, in
turn, beside the work of the service. `health` (`backend/gateway/main.py`) goes by the
keys. So a service is reported well while one of its heartbeats is younger than 15 s, which
is while its loop is less than 10 s late; and an error of Redis ends the loop for good, so
that a service that goes on working is reported down until it is started again
(`heartbeats`). A `redis.set` takes effect when it returns.
-/
namespace Netra.Gateway.Health

/-- `SERVICES` -/
def services : List String :=
  ["mediabridge", "inference", "association", "behavior", "shopformer", "risk", "alerting", "persistence"]

/-- A service that runs. -/
structure Process where
  /-- when `heartbeat_loop` goes on; `none` once `redis.set` has raised -/
  wakes : Option ℚ

structure Monitor where
  now : ℚ := 0
  processes : String → Option Process := fun _ => none
  /-- when `service_heartbeat(svc)` expires -/
  keys : String → Option ℚ := fun _ => none

/-- What Redis has for the key of the service. -/
def Monitor.val (s : Monitor) (svc : String) : Option String :=
  match s.keys svc with
  | none => none
  | some expires => if s.now < expires then some "ok" else none

def Monitor.alive (s : Monitor) (svc : String) : Bool := (s.val svc).isSome

/-- `health`; `postgres` is whether `SELECT 1` is answered. -/
def health (postgres : Bool) (s : Monitor) : List (String × String) :=
  services.map (fun svc => (svc, if s.alive svc then "ok" else "down")) ++
    [("gateway", "ok"), ("redis", "ok"), ("postgres", if postgres then "ok" else "down")]

/-- `allOk` of the health page (`frontend/src/app/health/page.tsx`), of an answer that has
arrived; the page's error state is left out. -/
def allOk (status : List (String × String)) : Bool := status.all fun s => s.2 = "ok"

inductive Action where
  | start (svc : String)
  | stop (svc : String)
  /-- the loop goes on: `redis.set` returns, or raises -/
  | beat (svc : String) (ok : Bool)
  | elapse (dt : ℚ≥0)

/-- The heartbeat loop of the service is awake. -/
def Beats (s : Monitor) (svc : String) : Prop := ∃ t, s.processes svc = some ⟨some t⟩ ∧ t ≤ s.now

def beat (svc : String) (ok : Bool) (s : Monitor) : Monitor :=
  match s.processes svc with
  | some ⟨some t⟩ =>
    if t ≤ s.now then
      if ok then
        { s with
          keys := Function.update s.keys svc (some (s.now + 15))
          processes := Function.update s.processes svc (some ⟨some (s.now + 5)⟩) }
      else { s with processes := Function.update s.processes svc (some ⟨none⟩) }
    else s
  | _ => s

def step (s : Monitor) : Action → Monitor × Unit
  | .start svc => ({ s with processes := Function.update s.processes svc (some ⟨some s.now⟩) }, ())
  | .stop svc => ({ s with processes := Function.update s.processes svc none }, ())
  | .beat svc ok => (beat svc ok s, ())
  | .elapse dt => ({ s with now := s.now + dt }, ())

def after (as : List Action) : Monitor := Mealy.after step {} as

/-! ## One step -/

variable {s : Monitor} {svc : String}

/-- What a turn of the loop does. -/
theorem beat_cases (svc : String) (ok : Bool) (s : Monitor) :
    (¬ Beats s svc ∧ beat svc ok s = s) ∨
      (Beats s svc ∧ ok = true ∧ beat svc ok s = { s with
        keys := Function.update s.keys svc (some (s.now + 15))
        processes := Function.update s.processes svc (some ⟨some (s.now + 5)⟩) }) ∨
      (Beats s svc ∧ ok = false ∧ beat svc ok s = { s with
        processes := Function.update s.processes svc (some ⟨none⟩) }) := by
  unfold beat
  split
  · rename_i t ht
    split
    · rename_i hle
      have hbeats : Beats s svc := ⟨t, ht, hle⟩
      cases ok with
      | true => exact .inr (.inl ⟨hbeats, rfl, rfl⟩)
      | false => exact .inr (.inr ⟨hbeats, rfl, rfl⟩)
    · rename_i hlate
      refine .inl ⟨?_, rfl⟩
      rintro ⟨t', ht', hle⟩
      rw [ht] at ht'
      cases ht'
      exact hlate hle
  · rename_i hno
    refine .inl ⟨?_, rfl⟩
    rintro ⟨t, ht, -⟩
    exact hno t ht

theorem now_step (s : Monitor) (a : Action) : s.now ≤ (step s a).1.now := by
  cases a with
  | start svc => exact le_refl _
  | stop svc => exact le_refl _
  | beat svc ok => rcases beat_cases svc ok s with ⟨-, h⟩ | ⟨-, -, h⟩ | ⟨-, -, h⟩ <;> simp [step, h]
  | elapse dt =>
    have : (0 : ℚ) ≤ dt := dt.2
    simp only [step]
    linarith

theorem now_after (s : Monitor) (as : List Action) : s.now ≤ (Mealy.after step s as).now := by
  induction as generalizing s with
  | nil => exact le_refl _
  | cons a as ih => exact (now_step s a).trans (ih _)

/-- A key changes by a heartbeat that gets through, and then lasts 15 s. -/
theorem keys_step (s : Monitor) (a : Action) (svc : String) :
    (¬ (a = .beat svc true ∧ Beats s svc) ∧ (step s a).1.keys svc = s.keys svc) ∨
      (a = .beat svc true ∧ Beats s svc ∧ (step s a).1.now = s.now ∧ (step s a).1.keys svc = some (s.now + 15)) := by
  cases a with
  | start svc' => exact .inl ⟨by simp, rfl⟩
  | stop svc' => exact .inl ⟨by simp, rfl⟩
  | elapse dt => exact .inl ⟨by simp, rfl⟩
  | beat svc' ok =>
    simp only [step]
    rcases beat_cases svc' ok s with ⟨hno, h⟩ | ⟨hbeats, rfl, h⟩ | ⟨-, rfl, h⟩ <;> rw [h]
    · refine .inl ⟨?_, rfl⟩
      rintro ⟨heq, hbeats⟩
      obtain ⟨rfl, -⟩ := Action.beat.inj heq
      exact hno hbeats
    · by_cases hsvc : svc' = svc
      · subst hsvc
        exact .inr ⟨rfl, hbeats, rfl, by simp⟩
      · exact .inl ⟨by simp [hsvc], Function.update_of_ne (Ne.symm hsvc) _ _⟩
    · exact .inl ⟨by simp, rfl⟩

theorem alive_iff : s.alive svc ↔ ∃ expires, s.keys svc = some expires ∧ s.now < expires := by
  unfold Monitor.alive Monitor.val
  split
  · rename_i h
    simp [h]
  · rename_i expires h
    simp [h]

/-! ## Every run -/

/-- A key was set by a heartbeat 15 s before it expires. -/
theorem keys_after (as : List Action) (svc : String) (expires : ℚ) (h : (after as).keys svc = some expires) :
    ∃ pre post, as = pre ++ .beat svc true :: post ∧ Beats (after pre) svc ∧ expires = (after pre).now + 15 := by
  induction as using List.reverseRecOn with
  | nil => cases h
  | append_singleton as a ih =>
    have hstep : after (as ++ [a]) = (step (after as) a).1 := Mealy.after_concat step {} as a
    rw [hstep] at h
    rcases keys_step (after as) a svc with ⟨-, hkeys⟩ | ⟨rfl, hbeats, -, hkeys⟩
    · obtain ⟨pre, post, rfl, hbeats, he⟩ := ih (hkeys ▸ h)
      exact ⟨pre, post ++ [a], by simp, hbeats, he⟩
    · refine ⟨as, [], rfl, hbeats, ?_⟩
      rw [hkeys] at h
      exact (Option.some.inj h).symm

/-- A key lasts 15 s at least. -/
theorem keys_kept (s : Monitor) (as : List Action) (svc : String) {expires : ℚ} (h : s.keys svc = some expires)
    (hle : expires ≤ s.now + 15) :
    ∃ expires', (Mealy.after step s as).keys svc = some expires' ∧ expires ≤ expires' ∧
      expires' ≤ (Mealy.after step s as).now + 15 := by
  induction as generalizing s expires with
  | nil => exact ⟨expires, h, le_refl _, hle⟩
  | cons a as ih =>
    rw [Mealy.after_cons]
    rcases keys_step s a svc with ⟨-, hkeys⟩ | ⟨-, -, hnow, hkeys⟩
    · have := now_step s a
      exact ih _ (hkeys.trans h) (by linarith)
    · obtain ⟨expires', hkey, hge, hle'⟩ := ih _ hkeys (by rw [hnow])
      exact ⟨expires', hkey, hle.trans hge, hle'⟩

theorem after_split (pre post : List Action) (a : Action) :
    after (pre ++ a :: post) = Mealy.after step (step (after pre) a).1 post := by
  rw [after, Mealy.after_append]
  rfl

theorem alive_iff_heard (as : List Action) (svc : String) :
    (after as).alive svc ↔ ∃ pre post, as = pre ++ .beat svc true :: post ∧ Beats (after pre) svc ∧
      (after as).now < (after pre).now + 15 := by
  rw [alive_iff]
  constructor
  · rintro ⟨expires, hkey, hlt⟩
    obtain ⟨pre, post, has, hbeats, rfl⟩ := keys_after as svc expires hkey
    exact ⟨pre, post, has, hbeats, hlt⟩
  · rintro ⟨pre, post, has, hbeats, hlt⟩
    rcases keys_step (after pre) (.beat svc true) svc with ⟨hno, -⟩ | ⟨-, -, hnow, hkeys⟩
    · exact absurd ⟨rfl, hbeats⟩ hno
    · obtain ⟨expires, hkey, hge, -⟩ := keys_kept _ post svc hkeys (by rw [hnow])
      rw [has, after_split] at hlt ⊢
      exact ⟨expires, hkey, by linarith⟩

/-! ## While the loop goes on -/

/-- The key expires 10 s after the loop should go on. -/
def InTurn (s : Monitor) (svc : String) : Prop :=
  ∃ t, s.processes svc = some ⟨some t⟩ ∧ s.keys svc = some (t + 10)

/-- What ends the loop of the service, or starts another. -/
def Action.breaks (svc : String) : Action → Prop
  | .start svc' | .stop svc' | .beat svc' false => svc' = svc
  | .beat _ true | .elapse _ => False

theorem inTurn_beat (hbeats : Beats s svc) : InTurn (beat svc true s) svc := by
  rcases beat_cases svc true s with ⟨hno, -⟩ | ⟨-, -, h⟩ | ⟨-, hok, -⟩
  · exact absurd hbeats hno
  · rw [h]
    refine ⟨s.now + 5, by simp, ?_⟩
    simp only [Function.update_self, Option.some.injEq]
    ring
  · cases hok

theorem inTurn_step (h : InTurn s svc) {a : Action} (ha : ¬ a.breaks svc) : InTurn (step s a).1 svc := by
  obtain ⟨t, hprocess, hkey⟩ := h
  cases a with
  | start svc' => exact ⟨t, by simp [step, Function.update_of_ne (Ne.symm ha), hprocess], hkey⟩
  | stop svc' => exact ⟨t, by simp [step, Function.update_of_ne (Ne.symm ha), hprocess], hkey⟩
  | elapse dt => exact ⟨t, hprocess, hkey⟩
  | beat svc' ok =>
    simp only [step]
    by_cases hsvc : svc' = svc
    · subst hsvc
      cases ok with
      | false => exact absurd rfl ha
      | true =>
        by_cases hbeats : Beats s svc'
        · exact inTurn_beat hbeats
        · rcases beat_cases svc' true s with ⟨-, h⟩ | ⟨hbeats', -⟩ | ⟨hbeats', -⟩
          · rw [h]
            exact ⟨t, hprocess, hkey⟩
          · exact absurd hbeats' hbeats
          · exact absurd hbeats' hbeats
    · rcases beat_cases svc' ok s with ⟨-, h⟩ | ⟨-, -, h⟩ | ⟨-, -, h⟩ <;> rw [h]
      · exact ⟨t, hprocess, hkey⟩
      · exact ⟨t, by simp [Function.update_of_ne (Ne.symm hsvc), hprocess],
          by simp [Function.update_of_ne (Ne.symm hsvc), hkey]⟩
      · exact ⟨t, by simp [Function.update_of_ne (Ne.symm hsvc), hprocess], hkey⟩

theorem inTurn_after (h : InTurn s svc) (as : List Action) (has : ∀ a ∈ as, ¬ a.breaks svc) :
    InTurn (Mealy.after step s as) svc := by
  induction as generalizing s with
  | nil => exact h
  | cons a as ih =>
    exact ih (inTurn_step h (has a List.mem_cons_self)) fun b hb => has b (List.mem_cons_of_mem _ hb)

/-! ## When it has ended -/

/-- No loop sets the key. -/
def NoLoop (s : Monitor) (svc : String) : Prop := ∀ t, s.processes svc ≠ some ⟨some t⟩

theorem noLoop_step (h : NoLoop s svc) {a : Action} (ha : a ≠ .start svc) :
    NoLoop (step s a).1 svc ∧ (step s a).1.keys svc = s.keys svc := by
  have hno : ¬ Beats s svc := fun ⟨t, ht, _⟩ => h t ht
  have hkeys : (step s a).1.keys svc = s.keys svc := by
    rcases keys_step s a svc with ⟨-, hkeys⟩ | ⟨-, hbeats, -⟩
    · exact hkeys
    · exact absurd hbeats hno
  refine ⟨?_, hkeys⟩
  intro t
  cases a with
  | start svc' =>
    have hsvc : svc ≠ svc' := fun he => ha (by rw [he])
    simpa [step, Function.update_of_ne hsvc] using h t
  | stop svc' =>
    by_cases hsvc : svc = svc'
    · simp [step, hsvc]
    · simpa [step, Function.update_of_ne hsvc] using h t
  | elapse dt => exact h t
  | beat svc' ok =>
    simp only [step]
    rcases beat_cases svc' ok s with ⟨-, he⟩ | ⟨hbeats, -, he⟩ | ⟨hbeats, -, he⟩ <;> rw [he]
    · exact h t
    · have hsvc : svc ≠ svc' := fun hs => hno (hs ▸ hbeats)
      simpa [Function.update_of_ne hsvc] using h t
    · have hsvc : svc ≠ svc' := fun hs => hno (hs ▸ hbeats)
      simpa [Function.update_of_ne hsvc] using h t

theorem noLoop_after (h : NoLoop s svc) (as : List Action) (has : ∀ a ∈ as, a ≠ .start svc) :
    (Mealy.after step s as).keys svc = s.keys svc := by
  induction as generalizing s with
  | nil => rfl
  | cons a as ih =>
    obtain ⟨hno, hkeys⟩ := noLoop_step h (has a List.mem_cons_self)
    rw [Mealy.after_cons, ih hno fun b hb => has b (List.mem_cons_of_mem _ hb), hkeys]

/-- The service is stopped, or its heartbeat fails. -/
def Ends (s : Monitor) (svc : String) (a : Action) : Prop :=
  a = .stop svc ∨ a = .beat svc false ∧ Beats s svc

theorem ends_step {a : Action} (h : Ends s svc a) :
    NoLoop (step s a).1 svc ∧ (step s a).1.keys svc = s.keys svc ∧ (step s a).1.now = s.now := by
  rcases h with rfl | ⟨rfl, hbeats⟩
  · exact ⟨fun t => by simp [step], rfl, rfl⟩
  · simp only [step]
    rcases beat_cases svc false s with ⟨hno, -⟩ | ⟨-, hok, -⟩ | ⟨-, -, he⟩
    · exact absurd hbeats hno
    · cases hok
    · rw [he]
      exact ⟨fun t => by simp, rfl, rfl⟩

/-! ## What is reported -/

structure Reports (as : List Action) (s : Monitor) : Prop where
  /-- a service is well while a heartbeat of it is younger than 15 s -/
  alive_iff : ∀ svc, s.alive svc ↔ ∃ pre post, as = pre ++ .beat svc true :: post ∧ Beats (after pre) svc ∧
    s.now < (after pre).now + 15
  /-- from a heartbeat on, as long as its loop goes on: while the loop is less than 10 s late -/
  in_time : ∀ pre post svc, as = pre ++ .beat svc true :: post → Beats (after pre) svc →
    (∀ a ∈ post, ¬ a.breaks svc) → ∃ t, s.processes svc = some ⟨some t⟩ ∧ (s.alive svc ↔ s.now < t + 10)
  /-- 15 s after it was stopped or a heartbeat failed it is down, until it is started -/
  ended : ∀ pre a post svc, as = pre ++ a :: post → Ends (after pre) svc a → (∀ b ∈ post, b ≠ .start svc) →
    (after pre).now + 15 ≤ s.now → s.alive svc = false
  /-- all is well on the health page just when all services are, and PostgreSQL -/
  allOk_iff : ∀ postgres, allOk (health postgres s) ↔ postgres = true ∧ ∀ svc ∈ services, s.alive svc

theorem heartbeats (as : List Action) : Reports as (after as) where
  alive_iff := alive_iff_heard as
  in_time pre post svc has hbeats hpost := by
    obtain ⟨t, hprocess, hkey⟩ := inTurn_after (inTurn_beat hbeats) post hpost
    have hafter : after as = Mealy.after step (beat svc true (after pre)) post := by rw [has, after_split]; rfl
    rw [hafter]
    refine ⟨t, hprocess, ?_⟩
    rw [Health.alive_iff, hkey]
    simp
  ended pre a post svc has hends hpost hlate := by
    obtain ⟨hno, hkeys, -⟩ := ends_step hends
    have hafter : (after as).keys svc = (after pre).keys svc := by
      rw [has, after_split, noLoop_after hno post hpost, hkeys]
    rw [Bool.eq_false_iff]
    intro halive
    obtain ⟨expires, hkey, hlt⟩ := Health.alive_iff.1 halive
    obtain ⟨pre', post', hpre, -, rfl⟩ := keys_after pre svc expires (hafter ▸ hkey)
    have hnow : (after pre').now ≤ (after pre).now := by
      rw [hpre, after_split]
      exact (now_step _ _).trans (now_after _ _)
    linarith
  allOk_iff postgres := by
    cases postgres <;> simp [allOk, health]

end Netra.Gateway.Health
