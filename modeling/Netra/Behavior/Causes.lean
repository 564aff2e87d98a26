import Netra.Behavior.Runs
/-!
# No alarm without its causes

The FSM remembers causes only in timestamps compared with 0 and in a counter.
`Causes` says which past calls stand behind each of these fields; every update
keeps it, and pruning and re-creation only forget. From it,
`alarm_has_cause`: what each alarm signal of a run was preceded by.
-/
namespace Netra.Behavior.TheftRiskFSM

open PyLib

/-- An event of type `ty` was delivered for track `k`. -/
def Delivers (c : Call) (ty : AssocEventType) (k : Int) : Prop :=
  ∃ ev ∈ c.assoc, ev.trackId = k ∧ ev.eventType = ty

def Present (c : Call) (k : Int) : Prop := ∃ p ∈ c.persons, p.trackId = k

/-- The update steps of track `k` among `persons` that were delivered a shelf interaction. -/
def shelfSteps (k : Int) (c : Call) (persons : List PersonDetection) : Nat :=
  if hasType .shelfInteraction (assocOf c.assoc k) then persons.countP (·.trackId = k) else 0

section
variable (h : Host) (w : Settings) (cam : String)

/-- `s` is a signal of the `j`-th event that call `c` returns after the calls `pre`. -/
def EmittedAt (pre : List Call) (c : Call) (j : Nat) (s : BehaviorSignal) : Prop :=
  ∃ bev, (step h w (fsmAfter h w cam pre) c).2[j]? = some bev ∧ s ∈ bev.signals

/-- One of `calls` emitted a `HAND_TO_*` signal for track `k`. -/
def ConcealedIn (calls : List Call) (k : Int) : Prop :=
  ∃ pre d post, calls = pre ++ d :: post ∧
    ∃ j s, EmittedAt h w cam pre d j s ∧ s.trackId = k ∧ s.signalName ∈ handTo

/-- The past of track `k`: `calls` stand behind its timestamps, and `n` update
steps behind its counter. -/
structure Causes (calls : List Call) (n : Nat) (k : Int) (m : Memory) : Prop where
  pick : 0 < m.lastPickTs → ∃ d ∈ calls, Present d k ∧ Delivers d .itemPickup k ∧ d.timestamp = m.lastPickTs
  conceal : 0 < m.lastConcealTs → ConcealedIn h w cam calls k
  shelf : m.repeatedShelf ≤ n

end

variable {h : Host} {w : Settings} {cam : String}

theorem hasType_assocOf {c : Call} {ty : AssocEventType} {k : Int} :
    hasType ty (assocOf c.assoc k) = true ↔ Delivers c ty k := by
  simp only [hasType, assocOf, List.any_eq_true, List.mem_filter, decide_eq_true_eq, Delivers]
  constructor
  · rintro ⟨ev, ⟨hev, hk⟩, hty⟩
    exact ⟨ev, hev, hk, hty⟩
  · rintro ⟨ev, hev, hk, hty⟩
    exact ⟨ev, ⟨hev, hk⟩, hty⟩

/-! ## The invariant -/

theorem Causes.mono {calls : List Call} {n n' : Nat} {k : Int} {m : Memory} (hm : Causes h w cam calls n k m)
    (hn : n ≤ n') (more : List Call) : Causes h w cam (calls ++ more) n' k m where
  pick hpos := by
    obtain ⟨d, hd, hrest⟩ := hm.pick hpos
    exact ⟨d, List.mem_append_left _ hd, hrest⟩
  conceal hpos := by
    obtain ⟨pre, d, post, rfl, hrest⟩ := hm.conceal hpos
    exact ⟨pre, d, post ++ more, by simp, hrest⟩
  shelf := hm.shelf.trans hn

theorem causes_fresh (calls : List Call) (n : Nat) (k : Int) (t : ℚ) :
    Causes h w cam calls n k (memory (getOrCreate t none)) where
  pick hpos := absurd hpos (lt_irrefl 0)
  conceal hpos := absurd hpos (lt_irrefl 0)
  shelf := Nat.zero_le n

/-- The signals of the `j`-th event of a call. -/
theorem emittedAt_iff {pre : List Call} {c : Call} {j : Nat} {s : BehaviorSignal} :
    EmittedAt h w cam pre c j s ↔ ∃ p, c.persons[j]? = some p ∧
      s ∈ (update h w cam (getOrCreate c.timestamp
        ((tracksMid h w (fsmAfter h w cam pre) c (c.persons.take j)).get? p.trackId)) p
        (assocOf c.assoc p.trackId) c.timestamp).2 := by
  simp only [EmittedAt, event_getElem?, Option.map_eq_some_iff, cameraId_fsmAfter]
  constructor
  · rintro ⟨bev, ⟨p, hp, rfl⟩, hs⟩
    exact ⟨p, hp, hs⟩
  · rintro ⟨p, hp, hs⟩
    exact ⟨_, ⟨p, hp, rfl⟩, hs⟩

/-- A pick remembered after the pick section has its delivery among the calls. -/
theorem Causes.picked {pre : List Call} {c : Call} {n : Nat} {p : PersonDetection} {m : Memory}
    (hm : Causes h w cam (pre ++ [c]) n p.trackId m) (hp : p ∈ c.persons)
    (hpos : 0 < ((m.shelf (assocOf c.assoc p.trackId)).pick (assocOf c.assoc p.trackId)
      c.timestamp).lastPickTs) :
    ∃ d ∈ pre ++ [c], Present d p.trackId ∧ Delivers d .itemPickup p.trackId ∧
      d.timestamp = ((m.shelf (assocOf c.assoc p.trackId)).pick (assocOf c.assoc p.trackId)
        c.timestamp).lastPickTs := by
  simp only [Memory.pick] at hpos ⊢
  split at hpos
  · rename_i hpick
    rw [if_pos hpick]
    exact ⟨c, by simp, ⟨p, hp, rfl⟩, hasType_assocOf.1 hpick, rfl⟩
  · rename_i hpick
    rw [if_neg hpick]
    exact hm.pick hpos

/-- The update of the `j`-th person keeps the past accounted for. -/
theorem causes_update {pre : List Call} {c : Call} {n j : Nat} {p : PersonDetection} {ctx : TrackContext}
    (hp : c.persons[j]? = some p)
    (hctx : ctx = getOrCreate c.timestamp
      ((tracksMid h w (fsmAfter h w cam pre) c (c.persons.take j)).get? p.trackId))
    (hm : Causes h w cam (pre ++ [c]) n p.trackId (memory ctx)) :
    Causes h w cam (pre ++ [c]) (n + shelfSteps p.trackId c [p]) p.trackId
      (memory (update h w cam ctx p (assocOf c.assoc p.trackId) c.timestamp).1) := by
  rw [memory_update]
  refine ⟨fun hpos => hm.picked (List.mem_of_getElem? hp) hpos, fun hpos => ?_, ?_⟩
  · simp only [Memory.next, Memory.spike, Memory.conceal] at hpos
    split at hpos
    · rename_i hc
      refine ⟨pre, c, [], rfl, j, ?_⟩
      obtain ⟨name, hname, hhand⟩ :=
        (handTo_update h w cam (assocOf c.assoc p.trackId) c.timestamp ctx p).2 hc
      obtain ⟨s, hs, rfl⟩ := List.mem_map.1 hname
      exact ⟨s, emittedAt_iff.2 ⟨p, hp, hctx ▸ hs⟩, (tagged_update h w _ _ _ _ _ s hs).1, hhand⟩
    · exact hm.conceal hpos
  · have hn := hm.shelf
    simp only [Memory.next, Memory.spike, Memory.conceal, Memory.pick, Memory.shelf, shelfSteps]
    split
    · simpa using hn
    · simpa using hn

theorem shelfSteps_concat (k : Int) (c : Call) (persons : List PersonDetection) (p : PersonDetection) :
    shelfSteps k c (persons ++ [p]) = shelfSteps k c persons + shelfSteps k c [p] := by
  unfold shelfSteps
  split
  · rw [List.countP_append]
  · rfl

/-- The shelf-interaction steps of track `k` in the calls `pre`. -/
def shelfStepsIn (k : Int) (pre : List Call) : Nat := (pre.map fun d => shelfSteps k d d.persons).sum

/-- Inside a call, every context has its past in the calls so far. -/
theorem causes_mid {pre : List Call}
    (hpre : ∀ k ctx, (fsmAfter h w cam pre).tracks.get? k = some ctx →
      Causes h w cam pre (shelfStepsIn k pre) k (memory ctx)) (c : Call) (j : Nat) :
    ∀ k ctx, (tracksMid h w (fsmAfter h w cam pre) c (c.persons.take j)).get? k = some ctx →
      Causes h w cam (pre ++ [c]) (shelfStepsIn k pre + shelfSteps k c (c.persons.take j)) k (memory ctx) := by
  induction j with
  | zero =>
    intro k ctx hctx
    exact (hpre k ctx hctx).mono (Nat.le_add_right _ _) [c]
  | succ j ih =>
    intro k ctx hctx
    rw [List.take_add_one] at hctx ⊢
    -- past the last person nothing happens
    cases hp : c.persons[j]? with
    | none =>
      rw [hp] at hctx
      rw [Option.toList_none, List.append_nil] at hctx ⊢
      exact ih k ctx hctx
    | some p =>
      rw [hp] at hctx
      rw [Option.toList_some] at hctx ⊢
      rw [shelfSteps_concat, ← Nat.add_assoc]
      rw [tracksMid_concat, cameraId_fsmAfter] at hctx
      split at hctx
      · rename_i hk
        subst hk
        cases hctx
        -- the context the person meets: a new one, or one from before
        apply causes_update hp rfl
        cases hmid : (tracksMid h w (fsmAfter h w cam pre) c (c.persons.take j)).get? p.trackId with
        | none => exact causes_fresh _ _ _ _
        | some old => exact ih _ _ hmid
      · exact List.append_nil (pre ++ [c]) ▸ (ih k ctx hctx).mono (Nat.le_add_right _ _) []

/-- After every run, every context has its past in the run. -/
theorem causes_fsmAfter (pre : List Call) : ∀ k ctx, (fsmAfter h w cam pre).tracks.get? k = some ctx →
    Causes h w cam pre (shelfStepsIn k pre) k (memory ctx) := by
  induction pre using List.reverseRecOn with
  | nil =>
    intro k ctx hctx
    simp [fsmAfter] at hctx
  | append_singleton pre c ih =>
    intro k ctx hctx
    rw [fsmAfter_concat, get?_step] at hctx
    have hmid := (Option.filter_eq_some_iff.1 hctx).1
    rw [← List.take_length (l := c.persons)] at hmid
    have hm := causes_mid ih c c.persons.length k ctx hmid
    rw [List.take_length] at hm
    simpa [shelfStepsIn] using hm

/-! ## What stands behind a signal -/

/-- The context the `j`-th person of a call meets has its past in the calls so far. -/
theorem causes_met (pre : List Call) (c : Call) (j : Nat) (k : Int) :
    Causes h w cam (pre ++ [c]) (shelfStepsIn k pre + shelfSteps k c (c.persons.take j)) k
      (memory (getOrCreate c.timestamp
        ((tracksMid h w (fsmAfter h w cam pre) c (c.persons.take j)).get? k))) := by
  cases hmid : (tracksMid h w (fsmAfter h w cam pre) c (c.persons.take j)).get? k with
  | none => exact causes_fresh _ _ _ _
  | some ctx => exact causes_mid (causes_fsmAfter pre) c j k ctx hmid

/-- Every alarm signal of every run has its causes in the same or an earlier call. -/
theorem alarm_has_cause (h : Host) (w : Settings) (cam : String) (pre : List Call) (c : Call) (j : Nat)
    (s : BehaviorSignal) (hs : EmittedAt h w cam pre c j s) :
    (s.signalName ∈ handTo → ∃ d ∈ pre ++ [c], Present d s.trackId ∧ Delivers d .itemPickup s.trackId ∧
      s.timestamp - d.timestamp ≤ w.concealWindowSec) ∧
    (s.signalName = "EXIT_AFTER_CONCEALMENT" → ConcealedIn h w cam (pre ++ [c]) s.trackId ∧
      ∃ ev ∈ c.assoc, ev.trackId = s.trackId ∧ ev.eventType = .zoneExit ∧ ev.zoneName = some "exit_zone") ∧
    (s.signalName = "REPEATED_SHELF_INTERACTION" →
      2 ≤ shelfStepsIn s.trackId pre + shelfSteps s.trackId c (c.persons.take (j + 1))) := by
  obtain ⟨p, hp, hs⟩ := emittedAt_iff.1 hs
  obtain ⟨hk, ht⟩ := tagged_update h w _ _ _ _ _ s hs
  rw [hk, ht]
  have hmet : Causes h w cam (pre ++ [c])
      (shelfStepsIn p.trackId pre + shelfSteps p.trackId c (c.persons.take j)) p.trackId _ :=
    causes_met pre c j p.trackId
  have hname := List.mem_map_of_mem (f := (·.signalName)) hs
  refine ⟨fun hhand => ?_, fun hexit => ?_, fun hrep => ?_⟩
  · have hc := (handTo_update ..).1 ⟨_, hname, hhand⟩
    simp only [Memory.conceals, Bool.and_eq_true, decide_eq_true_eq] at hc
    obtain ⟨d, hd, hpres, hdel, hdt⟩ := hmet.picked (List.mem_of_getElem? hp) hc.1.2.1
    exact ⟨d, hd, hpres, hdel, hdt ▸ hc.1.2.2⟩
  · rw [hexit] at hname
    obtain ⟨hpos, ev, hev, hisexit⟩ := (exit_update ..).1 hname
    have hnext := causes_update hp rfl hmet
    rw [memory_update] at hnext
    simp only [assocOf, List.mem_filter, decide_eq_true_eq] at hev
    simp only [isExit, Bool.and_eq_true, decide_eq_true_eq] at hisexit
    exact ⟨hnext.conceal hpos, ev, hev.1, hev.2, hisexit⟩
  · rw [hrep] at hname
    obtain ⟨hshelf, hpos⟩ := (repeated_update ..).1 hname
    have hle := hmet.shelf
    rw [List.take_add_one, hp, Option.toList_some, shelfSteps_concat]
    have hone : shelfSteps p.trackId c [p] = 1 := by simp [shelfSteps, hshelf]
    rw [hone]
    have hpos' : 0 < (memory (getOrCreate c.timestamp
      ((tracksMid h w (fsmAfter h w cam pre) c (c.persons.take j)).get? p.trackId))).repeatedShelf := hpos
    omega

/-- Track 1 picks an item, has a hand at the hip and leaves, all in one frame. -/
def pocketAndExit : Call where
  persons := [{ trackId := 1, cameraId := "cam-01", bbox := ⟨80, 100, 120, 300⟩, confidence := 1
                keypoints := List.replicate 9 ⟨0, 0, 0⟩ ++
                  [⟨105, 200, 1⟩, ⟨130, 200, 1⟩, ⟨100, 200, 1⟩, ⟨100, 200, 1⟩]
                timestamp := 1000 }]
  assoc := [{ cameraId := "cam-01", trackId := 1, eventType := .itemPickup, timestamp := 1000 },
            { cameraId := "cam-01", trackId := 1, eventType := .zoneExit, zoneName := some "exit_zone",
              timestamp := 1000 }]
  timestamp := 1000

def pocketAndExitSignal : BehaviorSignal :=
  { cameraId := "cam-01", trackId := 1, signalName := "EXIT_AFTER_CONCEALMENT", weight := 6
    fsmState := .highRiskExit, cumulativeFsmScore := 14, timestamp := 1000 }

theorem pocketAndExit_emits : EmittedAt .reference .default "cam-01" [] pocketAndExit 0 pocketAndExitSignal :=
  ⟨_, rfl, by decide +kernel⟩

/-- Its exit alarm is backed by a concealment. -/
theorem pocketAndExit_concealed : ConcealedIn .reference .default "cam-01" [pocketAndExit] 1 :=
  ((alarm_has_cause .reference .default "cam-01" [] pocketAndExit 0 pocketAndExitSignal
    pocketAndExit_emits).2.1 rfl).1

end Netra.Behavior.TheftRiskFSM
