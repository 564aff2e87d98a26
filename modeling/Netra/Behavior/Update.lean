import Netra.Behavior.Fsm
import Mathlib.Algebra.Order.BigOperators.Group.List
import Mathlib.Tactic.NormNum
/-!
# What one update does

`memory_update` gives the fields of a track's context that later frames read,
`names_update` the signals of the frame. The results about runs use these two
and never open a section of `_update` again.
-/
namespace Netra.Behavior.TheftRiskFSM

/-- The fields a signal of a later frame depends on. -/
structure Memory where
  lastPickTs : ℚ
  lastConcealTs : ℚ
  lastSpeedSpikeTs : ℚ
  repeatedShelf : Nat

def memory (ctx : TrackContext) : Memory :=
  { lastPickTs := ctx.lastPickTs, lastConcealTs := ctx.lastConcealTs,
    lastSpeedSpikeTs := ctx.lastSpeedSpikeTs, repeatedShelf := ctx.repeatedShelf }

@[simp] theorem getOrCreate_some (t : ℚ) (ctx : TrackContext) : getOrCreate t (some ctx) = ctx := rfl

/-- The names of the signals, in order. -/
def names (signals : List BehaviorSignal) : List String := signals.map (·.signalName)

namespace Memory

section
variable (h : Host) (w : Settings) (assoc : List AssociationEvent) (t : ℚ) (keypoints : List Keypoint)
  (m : Memory)

def shelf : Memory :=
  { m with repeatedShelf := m.repeatedShelf + if hasType .shelfInteraction assoc then 1 else 0 }

def shelfNames : List String :=
  if hasType .shelfInteraction assoc then
    "SHELF_INTERACTION" :: if 0 < m.repeatedShelf then ["REPEATED_SHELF_INTERACTION"] else []
  else []

def pick : Memory := { m with lastPickTs := if hasType .itemPickup assoc then t else m.lastPickTs }

def pickNames : List String := if hasType .itemPickup assoc then ["VISUAL_PICK_CONFIRMED"] else []

/-- Keypoints near the hip, within the window of the last pick. -/
def conceals : Bool :=
  !keypoints.isEmpty && (0 < m.lastPickTs && t - m.lastPickTs ≤ w.concealWindowSec) &&
    (classifyConcealment h w keypoints w.handToHipDistancePx).1 ≠ .none

def conceal : Memory := { m with lastConcealTs := if m.conceals h w t keypoints then t else m.lastConcealTs }

def concealNames : List String :=
  if m.conceals h w t keypoints then
    [concealSignal (classifyConcealment h w keypoints w.handToHipDistancePx).1]
  else []

def exitNames : List String :=
  if 0 < m.lastConcealTs then List.replicate (assoc.countP isExit) "EXIT_AFTER_CONCEALMENT" else []

/-- A delivered speed spike, more than 3 s after the last signal. -/
def spikes : Bool := hasType .speedSpike assoc && 3 < t - m.lastSpeedSpikeTs

def spike : Memory := { m with lastSpeedSpikeTs := if m.spikes assoc t then t else m.lastSpeedSpikeTs }

def spikeNames : List String := if m.spikes assoc t then ["SPEED_SPIKE"] else []

/-- The memory the frame leaves behind. -/
def next : Memory := ((((m.shelf assoc).pick assoc t).conceal h w t keypoints).spike assoc t)

variable {h w assoc t keypoints m} {name : String}

theorem mem_shelfNames : name ∈ m.shelfNames assoc ↔
    (name = "SHELF_INTERACTION" ∧ hasType .shelfInteraction assoc = true) ∨
    (name = "REPEATED_SHELF_INTERACTION" ∧ hasType .shelfInteraction assoc = true ∧ 0 < m.repeatedShelf) := by
  rw [shelfNames]
  split
  · split <;> simp_all
  · simp_all

theorem mem_pickNames : name ∈ pickNames assoc ↔
    name = "VISUAL_PICK_CONFIRMED" ∧ hasType .itemPickup assoc = true := by
  rw [pickNames]
  split <;> simp_all

theorem mem_concealNames : name ∈ m.concealNames h w t keypoints ↔
    name = concealSignal (classifyConcealment h w keypoints w.handToHipDistancePx).1 ∧
      m.conceals h w t keypoints = true := by
  rw [concealNames]
  split <;> simp_all

theorem mem_exitNames : name ∈ m.exitNames assoc ↔
    name = "EXIT_AFTER_CONCEALMENT" ∧ 0 < m.lastConcealTs ∧ ∃ ev ∈ assoc, isExit ev = true := by
  rw [exitNames]
  split
  · rename_i hpos
    rw [List.mem_replicate, ← Nat.pos_iff_ne_zero, List.countP_pos_iff, and_comm, and_iff_right hpos]
  · rename_i hpos
    simp [hpos]

theorem mem_spikeNames : name ∈ m.spikeNames assoc t ↔ name = "SPEED_SPIKE" ∧ m.spikes assoc t = true := by
  rw [spikeNames]
  split <;> simp_all

end

end Memory

section
variable (h : Host) (w : Settings) (cameraId : String)

/-! ## The sections -/

@[simp] theorem memory_decay (ctx : TrackContext) (now : ℚ) : memory (decay w ctx now) = memory ctx := rfl

section
variable (name : String) (value timestamp : ℚ) (trackId : Int) (conceal : ConcealmentType) (u : Upd)

@[simp] theorem memory_emit : memory (emit cameraId name value timestamp trackId conceal u).1 = memory u.1 := rfl

@[simp] theorem names_emit :
    names (emit cameraId name value timestamp trackId conceal u).2 = names u.2 ++ [name] := by
  simp [names, emit]

end

variable (assoc : List AssociationEvent) (trackId : Int) (t : ℚ) (u : Upd)

theorem shelfSection_spec :
    memory (shelfSection cameraId assoc trackId t u).1 = (memory u.1).shelf assoc ∧
      names (shelfSection cameraId assoc trackId t u).2 = names u.2 ++ (memory u.1).shelfNames assoc := by
  unfold shelfSection Memory.shelf Memory.shelfNames
  split
  · dsimp only
    split
    · rename_i hrep
      have h0 : 0 < (memory u.1).repeatedShelf := Nat.lt_of_succ_lt_succ hrep
      exact ⟨rfl, by simp [h0]⟩
    · rename_i hrep
      have h0 : ¬ 0 < (memory u.1).repeatedShelf := fun h0 => hrep (Nat.succ_lt_succ h0)
      exact ⟨rfl, by simp [h0]⟩
  · exact ⟨rfl, by simp⟩

theorem pickSection_spec :
    memory (pickSection cameraId assoc trackId t u).1 = (memory u.1).pick assoc t ∧
      names (pickSection cameraId assoc trackId t u).2 = names u.2 ++ Memory.pickNames assoc := by
  unfold pickSection Memory.pick Memory.pickNames
  split
  · exact ⟨rfl, by simp⟩
  · exact ⟨rfl, by simp⟩

theorem concealSection_spec (keypoints : List Keypoint) :
    memory (concealSection h w cameraId keypoints trackId t u).1 = (memory u.1).conceal h w t keypoints ∧
      names (concealSection h w cameraId keypoints trackId t u).2 =
        names u.2 ++ (memory u.1).concealNames h w t keypoints := by
  have hrecent : recentPick w u.1 t =
      (decide (0 < (memory u.1).lastPickTs) && decide (t - (memory u.1).lastPickTs ≤ w.concealWindowSec)) := rfl
  unfold concealSection Memory.conceal Memory.concealNames
  rw [hrecent]
  split
  · rename_i hpre
    dsimp only
    split
    · rename_i hty
      have hc : (memory u.1).conceals h w t keypoints = true := by
        simp only [Memory.conceals, hpre.2, hty, Bool.and_true, decide_true, ne_eq,
          not_false_eq_true]
        simpa using hpre.1
      rw [if_pos hc, if_pos hc]
      exact ⟨rfl, by simp⟩
    · rename_i hty
      have hc : ¬ (memory u.1).conceals h w t keypoints = true := by
        simp only [Memory.conceals, hty]
        simp
      rw [if_neg hc, if_neg hc]
      exact ⟨rfl, by simp⟩
  · rename_i hpre
    have hc : ¬ (memory u.1).conceals h w t keypoints = true := by
      intro hc
      simp only [Memory.conceals, Bool.and_eq_true] at hc
      exact hpre ⟨by simpa using hc.1.1, by simpa using hc.1.2⟩
    rw [if_neg hc, if_neg hc]
    exact ⟨rfl, by simp⟩

theorem exitSection_spec :
    memory (exitSection cameraId assoc trackId t u).1 = memory u.1 ∧
      names (exitSection cameraId assoc trackId t u).2 = names u.2 ++ (memory u.1).exitNames assoc := by
  unfold exitSection Memory.exitNames
  induction assoc generalizing u with
  | nil => simp
  | cons ev assoc ih =>
    obtain ⟨ih1, ih2⟩ := ih (exitTurn cameraId trackId t u ev)
    rw [List.foldl_cons, ih1, ih2]
    unfold exitTurn
    split
    · rename_i hex
      have hpos : 0 < (memory u.1).lastConcealTs := hex.2
      have hmem : memory (emit cameraId "EXIT_AFTER_CONCEALMENT" 1 t trackId .none
          ({ u.1 with state := .highRiskExit }, u.2)).1 = memory u.1 := rfl
      rw [hmem]
      simp [hpos, hex.1, List.replicate_succ]
    · rename_i hex
      refine ⟨rfl, ?_⟩
      by_cases hpos : 0 < (memory u.1).lastConcealTs
      · -- there is a concealment, so it must be the event
        have hno : isExit ev = false := by
          by_contra hev
          exact hex ⟨by simpa using hev, hpos⟩
        simp [hno]
      · simp [hpos]

theorem spikeSection_spec :
    memory (spikeSection cameraId assoc trackId t u).1 = (memory u.1).spike assoc t ∧
      names (spikeSection cameraId assoc trackId t u).2 = names u.2 ++ (memory u.1).spikeNames assoc t := by
  have hspikes : (memory u.1).spikes assoc t = true ↔
      hasType .speedSpike assoc = true ∧ 3 < t - u.1.lastSpeedSpikeTs := by
    rw [Memory.spikes, Bool.and_eq_true, decide_eq_true_iff]
    rfl
  unfold spikeSection Memory.spike Memory.spikeNames
  simp only [hspikes]
  split
  · exact ⟨rfl, by simp⟩
  · exact ⟨rfl, by simp⟩

/-! ## What every section keeps

A property of context and signals that survives an emitted signal and any change
of the context but to the score and its clock. -/

section
variable {cameraId assoc trackId t u} {P : Upd → Prop}
  (hctx : ∀ (u : Upd) (ctx : TrackContext), ctx.riskScore = u.1.riskScore → ctx.lastDecayTs = u.1.lastDecayTs →
    P u → P (ctx, u.2))
  (hemit : ∀ (u : Upd) (name : String) (conceal : ConcealmentType), P u →
    P (emit cameraId name 1 t trackId conceal u))
include hctx hemit

theorem shelfSection_inv (hu : P u) : P (shelfSection cameraId assoc trackId t u) := by
  unfold shelfSection
  split
  · dsimp only
    have hshelf := hctx u { u.1 with state := .shelfInteraction, repeatedShelf := u.1.repeatedShelf + 1 } rfl rfl hu
    split
    · apply hemit
      apply hemit
      exact hshelf
    · apply hemit
      exact hshelf
  · exact hu

theorem pickSection_inv (hu : P u) : P (pickSection cameraId assoc trackId t u) := by
  unfold pickSection
  split
  · apply hemit
    exact hctx u _ rfl rfl hu
  · exact hu

theorem concealSection_inv {keypoints : List Keypoint} (hu : P u) :
    P (concealSection h w cameraId keypoints trackId t u) := by
  unfold concealSection
  split
  · dsimp only
    split
    · apply hemit
      exact hctx u _ rfl rfl hu
    · exact hu
  · exact hu

theorem exitSection_inv (hu : P u) : P (exitSection cameraId assoc trackId t u) := by
  unfold exitSection
  induction assoc generalizing u with
  | nil => exact hu
  | cons ev assoc ih =>
    rw [List.foldl_cons]
    apply ih
    unfold exitTurn
    split
    · apply hemit
      exact hctx u _ rfl rfl hu
    · exact hu

theorem spikeSection_inv (hu : P u) : P (spikeSection cameraId assoc trackId t u) := by
  unfold spikeSection
  split
  · apply hemit
    exact hctx u _ rfl rfl hu
  · exact hu

end

/-- What the sections keep, the update keeps from its decay on. -/
theorem update_inv {ctx : TrackContext} {person : PersonDetection} {P : Upd → Prop}
    (hctx : ∀ (u : Upd) (ctx : TrackContext), ctx.riskScore = u.1.riskScore → ctx.lastDecayTs = u.1.lastDecayTs →
      P u → P (ctx, u.2))
    (hemit : ∀ (u : Upd) (name : String) (conceal : ConcealmentType), P u →
      P (emit cameraId name 1 t person.trackId conceal u))
    (h0 : P (decay w ctx t, [])) : P (update h w cameraId ctx person assoc t) := by
  refine hctx (spikeSection cameraId assoc person.trackId t _) _ rfl rfl ?_
  apply spikeSection_inv hctx hemit
  apply exitSection_inv hctx hemit
  apply concealSection_inv h w hctx hemit
  apply pickSection_inv hctx hemit
  apply shelfSection_inv hctx hemit
  exact h0

/-! ## Every signal names its track and its frame -/

def Tagged (trackId : Int) (t : ℚ) (signals : List BehaviorSignal) : Prop :=
  ∀ s ∈ signals, s.trackId = trackId ∧ s.timestamp = t

variable {cameraId assoc trackId t u}

theorem Tagged.emit {name : String} {value : ℚ} {conceal : ConcealmentType} (hu : Tagged trackId t u.2) :
    Tagged trackId t (emit cameraId name value t trackId conceal u).2 := by
  intro s hs
  rcases List.mem_append.1 hs with hs | hs
  · exact hu s hs
  · rw [List.mem_singleton.1 hs]
    exact ⟨rfl, rfl⟩

/-! ## The whole update -/

variable (cameraId assoc t) (ctx : TrackContext) (person : PersonDetection)

theorem memory_update :
    memory (update h w cameraId ctx person assoc t).1 = (memory ctx).next h w assoc t person.keypoints := by
  unfold update Memory.next
  have hts : ∀ (c : TrackContext) (x : ℚ), memory { c with lastTs := x } = memory c := fun _ _ => rfl
  simp only [hts, (spikeSection_spec ..).1, (exitSection_spec ..).1, (concealSection_spec ..).1,
    (pickSection_spec ..).1, (shelfSection_spec ..).1, memory_decay]

theorem names_update :
    names (update h w cameraId ctx person assoc t).2 =
      (memory ctx).shelfNames assoc ++ Memory.pickNames assoc ++
      (((memory ctx).shelf assoc).pick assoc t).concealNames h w t person.keypoints ++
      ((((memory ctx).shelf assoc).pick assoc t).conceal h w t person.keypoints).exitNames assoc ++
      ((((memory ctx).shelf assoc).pick assoc t).conceal h w t person.keypoints).spikeNames assoc t := by
  unfold update
  simp only [(spikeSection_spec ..).2, (exitSection_spec ..).1, (exitSection_spec ..).2,
    (concealSection_spec ..).1, (concealSection_spec ..).2, (pickSection_spec ..).1, (pickSection_spec ..).2,
    (shelfSection_spec ..).1, (shelfSection_spec ..).2, memory_decay]
  rfl

/-- Without a signal nothing is remembered. -/
theorem memory_update_quiet (hquiet : names (update h w cameraId ctx person assoc t).2 = []) :
    memory (update h w cameraId ctx person assoc t).1 = memory ctx := by
  rw [names_update] at hquiet
  simp only [List.append_eq_nil_iff] at hquiet
  obtain ⟨⟨⟨⟨hshelf, hpick⟩, hconceal⟩, -⟩, hspike⟩ := hquiet
  have hshelf : (memory ctx).shelf assoc = memory ctx := by
    have hno : ¬ hasType .shelfInteraction assoc = true := by
      intro hty
      simp [Memory.shelfNames, hty] at hshelf
    rw [Memory.shelf, if_neg hno]
    rfl
  have hpick : (memory ctx).pick assoc t = memory ctx := by
    have hno : ¬ hasType .itemPickup assoc = true := by
      intro hty
      simp [Memory.pickNames, hty] at hpick
    rw [Memory.pick, if_neg hno]
  rw [hshelf, hpick] at hconceal hspike
  have hconceal : (memory ctx).conceal h w t person.keypoints = memory ctx := by
    have hno : ¬ (memory ctx).conceals h w t person.keypoints = true := by
      intro hc
      simp [Memory.concealNames, hc] at hconceal
    rw [Memory.conceal, if_neg hno]
  rw [hconceal] at hspike
  have hspike : (memory ctx).spike assoc t = memory ctx := by
    have hno : ¬ (memory ctx).spikes assoc t = true := by
      intro hs
      simp [Memory.spikeNames, hs] at hspike
    rw [Memory.spike, if_neg hno]
  rw [memory_update, Memory.next, hshelf, hpick, hconceal, hspike]

/-- The memory the exit section reads. -/
def concealed (m : Memory) (keypoints : List Keypoint) : Memory :=
  ((m.shelf assoc).pick assoc t).conceal h w t keypoints

/-- When each signal is emitted. -/
theorem mem_names_update (name : String) :
    name ∈ names (update h w cameraId ctx person assoc t).2 ↔
      (name = "SHELF_INTERACTION" ∧ hasType .shelfInteraction assoc = true) ∨
      (name = "REPEATED_SHELF_INTERACTION" ∧ hasType .shelfInteraction assoc = true ∧ 0 < ctx.repeatedShelf) ∨
      (name = "VISUAL_PICK_CONFIRMED" ∧ hasType .itemPickup assoc = true) ∨
      (name = concealSignal (classifyConcealment h w person.keypoints w.handToHipDistancePx).1 ∧
        (((memory ctx).shelf assoc).pick assoc t).conceals h w t person.keypoints = true) ∨
      (name = "EXIT_AFTER_CONCEALMENT" ∧
        0 < (concealed h w assoc t (memory ctx) person.keypoints).lastConcealTs ∧ ∃ ev ∈ assoc, isExit ev = true) ∨
      (name = "SPEED_SPIKE" ∧ (memory ctx).spikes assoc t = true) := by
  have hsame : ((((memory ctx).shelf assoc).pick assoc t).conceal h w t person.keypoints).spikes assoc t =
      (memory ctx).spikes assoc t := rfl
  rw [names_update]
  simp only [List.mem_append, Memory.mem_shelfNames, Memory.mem_pickNames, Memory.mem_concealNames,
    Memory.mem_exitNames, Memory.mem_spikeNames, hsame, or_assoc]
  rfl

/-- The `HAND_TO_*` signals. -/
def handTo : List String := ["HAND_TO_POCKET", "HAND_TO_BAG", "HAND_TO_PANTS", "HAND_TO_SHIRT", "HAND_TO_HOODIE"]

theorem concealSignal_mem (ty : ConcealmentType) : concealSignal ty ∈ handTo := by
  cases ty <;> simp [concealSignal, handTo]

theorem handTo_update :
    (∃ name ∈ names (update h w cameraId ctx person assoc t).2, name ∈ handTo) ↔
      (((memory ctx).shelf assoc).pick assoc t).conceals h w t person.keypoints = true := by
  simp only [mem_names_update]
  constructor
  · rintro ⟨name, ⟨rfl, -⟩ | ⟨rfl, -⟩ | ⟨rfl, -⟩ | ⟨rfl, hc⟩ | ⟨rfl, -⟩ | ⟨rfl, -⟩, hn⟩
    all_goals first | exact hc | exact absurd hn (by simp [handTo])
  · intro hc
    exact ⟨_, .inr (.inr (.inr (.inl ⟨rfl, hc⟩))), concealSignal_mem _⟩

/-- A name that is no concealment signal. -/
theorem ne_concealSignal (name : String) (hn : name ∉ handTo) (ty : ConcealmentType) :
    name ≠ concealSignal ty := fun he => hn (he ▸ concealSignal_mem ty)

/-- When a signal that is no `HAND_TO_*` is emitted. -/
theorem mem_names_update_of_notMem {name : String} (hn : name ∉ handTo) :
    name ∈ names (update h w cameraId ctx person assoc t).2 ↔
      (name = "SHELF_INTERACTION" ∧ hasType .shelfInteraction assoc = true) ∨
      (name = "REPEATED_SHELF_INTERACTION" ∧ hasType .shelfInteraction assoc = true ∧ 0 < ctx.repeatedShelf) ∨
      (name = "VISUAL_PICK_CONFIRMED" ∧ hasType .itemPickup assoc = true) ∨
      (name = "EXIT_AFTER_CONCEALMENT" ∧
        0 < (concealed h w assoc t (memory ctx) person.keypoints).lastConcealTs ∧ ∃ ev ∈ assoc, isExit ev = true) ∨
      (name = "SPEED_SPIKE" ∧ (memory ctx).spikes assoc t = true) := by
  have hne := ne_concealSignal name hn (classifyConcealment h w person.keypoints w.handToHipDistancePx).1
  rw [mem_names_update]
  simp only [hne, false_and, false_or]

theorem exit_update :
    "EXIT_AFTER_CONCEALMENT" ∈ names (update h w cameraId ctx person assoc t).2 ↔
      0 < (concealed h w assoc t (memory ctx) person.keypoints).lastConcealTs ∧ ∃ ev ∈ assoc, isExit ev = true := by
  rw [mem_names_update_of_notMem _ _ _ _ _ _ _ (by simp [handTo])]
  simp

theorem repeated_update :
    "REPEATED_SHELF_INTERACTION" ∈ names (update h w cameraId ctx person assoc t).2 ↔
      hasType .shelfInteraction assoc = true ∧ 0 < ctx.repeatedShelf := by
  rw [mem_names_update_of_notMem _ _ _ _ _ _ _ (by simp [handTo])]
  simp

theorem spike_update :
    "SPEED_SPIKE" ∈ names (update h w cameraId ctx person assoc t).2 ↔ (memory ctx).spikes assoc t = true := by
  rw [mem_names_update_of_notMem _ _ _ _ _ _ _ (by simp [handTo])]
  simp

/-- The sections after the pickups emit `HAND_TO_*`, an exit and a spike, nothing else. -/
theorem count_names_update {name : String} (hn : name ∉ handTo) (hexit : name ≠ "EXIT_AFTER_CONCEALMENT")
    (hspike : name ≠ "SPEED_SPIKE") :
    (names (update h w cameraId ctx person assoc t).2).count name =
      ((memory ctx).shelfNames assoc).count name + (Memory.pickNames assoc).count name := by
  have hconceals (m : Memory) : (m.concealNames h w t person.keypoints).count name = 0 :=
    List.count_eq_zero.2 fun hmem => ne_concealSignal name hn _ (Memory.mem_concealNames.1 hmem).1
  have hexits (m : Memory) : (m.exitNames assoc).count name = 0 :=
    List.count_eq_zero.2 fun hmem => hexit (Memory.mem_exitNames.1 hmem).1
  have hspikes (m : Memory) : (m.spikeNames assoc t).count name = 0 :=
    List.count_eq_zero.2 fun hmem => hspike (Memory.mem_spikeNames.1 hmem).1
  rw [names_update]
  simp only [List.count_append, hconceals, hexits, hspikes, Nat.add_zero]

/-- A delivered interaction is one signal, however many events there are. -/
theorem count_shelf_update : (names (update h w cameraId ctx person assoc t).2).count "SHELF_INTERACTION" =
    if hasType .shelfInteraction assoc then 1 else 0 := by
  have hpick : (Memory.pickNames assoc).count "SHELF_INTERACTION" = 0 :=
    List.count_eq_zero.2 fun hmem => by simpa using (Memory.mem_pickNames.1 hmem).1
  rw [count_names_update _ _ _ _ _ _ _ (by simp [handTo]) (by decide) (by decide), hpick, Nat.add_zero,
    Memory.shelfNames]
  split
  · split <;> simp
  · rfl

/-- A delivered pickup is one signal, however many events there are. -/
theorem count_pick_update : (names (update h w cameraId ctx person assoc t).2).count "VISUAL_PICK_CONFIRMED" =
    if hasType .itemPickup assoc then 1 else 0 := by
  have hshelf : ((memory ctx).shelfNames assoc).count "VISUAL_PICK_CONFIRMED" = 0 :=
    List.count_eq_zero.2 fun hmem => by simpa using Memory.mem_shelfNames.1 hmem
  rw [count_names_update _ _ _ _ _ _ _ (by simp [handTo]) (by decide) (by decide), hshelf, Nat.zero_add,
    Memory.pickNames]
  split <;> rfl

/-! ## Its score -/

/-- The weights of the signals. -/
def weightSum (signals : List BehaviorSignal) : ℚ := (signals.map (·.weight)).sum

def weightOf (name : String) : ℚ := (weights.lookup name).getD 0

theorem weightOf_nonneg (name : String) : 0 ≤ weightOf name := by
  rw [weightOf]
  cases hl : weights.lookup name with
  | none => exact le_refl 0
  | some q =>
    obtain ⟨l, l', hsplit, -⟩ := List.lookup_eq_some_iff.1 hl
    have hmem : (name, q) ∈ weights := by
      rw [hsplit]
      simp
    have hall : ∀ e ∈ weights, 0 ≤ e.2 := by
      simp only [weights, List.forall_mem_cons]
      norm_num
    exact hall _ hmem

/-- The score is what the decay left and the weights of the signals. -/
theorem riskScore_update : (update h w cameraId ctx person assoc t).1.riskScore =
    (decay w ctx t).riskScore + weightSum (update h w cameraId ctx person assoc t).2 := by
  refine update_inv h w cameraId assoc t (P := fun u => u.1.riskScore = (decay w ctx t).riskScore + weightSum u.2)
    (fun _ _ hscore _ hu => hscore.trans hu) (fun u name conceal hu => ?_) (by simp [weightSum])
  simp only [emit, weightSum, List.map_append, List.map_singleton, List.sum_append, List.sum_singleton]
  rw [hu, weightSum, add_assoc]

theorem lastDecayTs_update : (update h w cameraId ctx person assoc t).1.lastDecayTs = t :=
  update_inv h w cameraId assoc t (P := fun u => u.1.lastDecayTs = t) (fun _ _ _ hts hu => hts.trans hu)
    (fun _ _ _ hu => hu) rfl

/-- A signal weighs what its name says. -/
theorem weightSum_update : weightSum (update h w cameraId ctx person assoc t).2 =
    ((names (update h w cameraId ctx person assoc t).2).map weightOf).sum := by
  refine update_inv h w cameraId assoc t (P := fun u => weightSum u.2 = ((names u.2).map weightOf).sum)
    (fun _ _ _ _ hu => hu) (fun u name conceal hu => ?_) rfl
  simp only [emit, weightSum, names, List.map_append, List.map_singleton, List.sum_append, List.sum_singleton,
    mul_one] at hu ⊢
  rw [hu, weightOf]

theorem weightSum_update_nonneg : 0 ≤ weightSum (update h w cameraId ctx person assoc t).2 := by
  rw [weightSum_update]
  refine List.sum_nonneg fun x hx => ?_
  obtain ⟨name, -, rfl⟩ := List.mem_map.1 hx
  exact weightOf_nonneg name

theorem tagged_update : Tagged person.trackId t (update h w cameraId ctx person assoc t).2 :=
  update_inv h w cameraId assoc t (P := fun u => Tagged person.trackId t u.2) (fun _ _ _ _ hu => hu)
    (fun _ _ _ hu => hu.emit) (by simp [Tagged])

end

end Netra.Behavior.TheftRiskFSM
