import Netra.Behavior.Worker
import Mathlib.Tactic.Linarith
/-!
# What becomes of an association event

A buffered event goes, with the whole buffer of its camera, into the next frame
of the camera, whoever is in it; an idle poll before that may drop it.
`handed_eq` counts the calls of `_update` it reaches, and `no_loss_iff` says when
no event is lost.
-/
namespace Netra.Behavior

open PyLib RedisStream

/-! ## Runs -/

/-- `signal_confirmation_frames = 1`: the confirmation buffer lets everything through. -/
def passthrough (w : Settings) : Settings := { w with signalConfirmationFrames := 1 }

namespace Worker

section
variable (h : Host) (w : Settings)

/-- A turn of the worker, which asks the host for nothing. -/
def take (s : Worker) (i : Item AssociationEvent DetectionEvent) : Worker × WorkerOut := s.turn h w ((), i)

/-- What the worker turns over in a run. -/
def items (acts : List (Action Unit AssociationEvent DetectionEvent)) :
    List (Item AssociationEvent DetectionEvent) := (run h w).items {} acts

end

/-- The entries that outputs hand to `_update`, call by call; a call gets the events
of its track. -/
def handedBy (outs : List WorkerOut) : List (Entry AssociationEvent) :=
  outs.flatMap fun o => o.calls.flatMap (·.2)

/-- The entries that the turns `is` hand to `_update`. -/
def handed (h : Host) (w : Settings) (is : List (Item AssociationEvent DetectionEvent)) :
    List (Entry AssociationEvent) :=
  handedBy (Mealy.outs (take h w) {} is)

end Worker

/-- The frame has the track of the event, less than 2 s after it. -/
def Meets (ev : AssociationEvent) (d : DetectionEvent) : Prop :=
  d.cameraId = ev.cameraId ∧ (∃ p ∈ d.persons, p.trackId = ev.trackId) ∧ d.timestamp - ev.timestamp < 2

/-- Every event that was read, and that some later frame meets, is handed to
`_update` exactly once. -/
def NoLoss (h : Host) (w : Settings) (acts : List (Action Unit AssociationEvent DetectionEvent)) : Prop :=
  ∀ pre e post, Worker.items h w acts = pre ++ .side e :: post → (∃ d, .main d ∈ post ∧ Meets e.data d.data) →
    (Worker.handed h w (Worker.items h w acts)).countP (·.id = e.id) = 1

/-- The first frame of its camera after such an event has its track exactly once; and
if there is an idle poll before, no earlier frame of the camera was 2 s or more
ahead of the event. -/
def Kept (is : List (Item AssociationEvent DetectionEvent)) : Prop :=
  ∀ pre e post, is = pre ++ .side e :: post → (∃ d, .main d ∈ post ∧ Meets e.data d.data) →
    ∃ B d C, post = B ++ .main d :: C ∧ (∀ d', .main d' ∈ B → d'.data.cameraId ≠ e.data.cameraId) ∧
      d.data.cameraId = e.data.cameraId ∧ d.data.persons.countP (·.trackId = e.data.trackId) = 1 ∧
      (.idle ∈ B → ∀ d', .main d' ∈ pre → d'.data.cameraId = e.data.cameraId → 0 < d'.data.timestamp →
        d'.data.timestamp - e.data.timestamp < 2)

variable {h : Host} {w : Settings}

namespace Worker

/-! ## One turn -/

theorem buffered_onAssoc (s : Worker) (e : Entry AssociationEvent) (cam : String) :
    (s.onAssoc e).buffered cam = if cam = e.data.cameraId then s.buffered cam ++ [e] else s.buffered cam := by
  unfold buffered onAssoc
  dsimp only
  rw [Dict.get?_set]
  split
  · rename_i hcam
    rw [hcam]
    rfl
  · rfl

theorem buffered_onIdle (s : Worker) (cam : String) :
    s.onIdle.buffered cam = match s.latestEventTs.get? cam with
      | some refTs => (s.buffered cam).filter fun e => refTs - e.data.timestamp < 2
      | none => s.buffered cam := by
  unfold buffered onIdle
  dsimp only
  rw [Dict.get?_mapValues]
  cases s.latestEventTs.get? cam with
  | none => cases s.assocBuffer.get? cam <;> rfl
  | some refTs => cases s.assocBuffer.get? cam <;> rfl

theorem buffered_onDetection (s : Worker) (d : DetectionEvent) (cam : String) :
    (s.onDetection h w d).1.buffered cam = if cam = d.cameraId then [] else s.buffered cam := by
  unfold buffered onDetection
  dsimp only
  split
  · rename_i hcam
    rw [hcam, Dict.get?_erase_self]
    rfl
  · rename_i hcam
    rw [Dict.get?_erase_ne _ hcam]

/-- Every confirmation buffer of the worker lets everything through. -/
def Open (s : Worker) : Prop := ∀ cam b, s.confirmers.get? cam = some b → b.required ≤ 1

/-- The buffer of a camera, or the one `setdefault` puts there. -/
theorem required_confirmer {s : Worker} (hs : s.Open) (cam : String) :
    ((s.confirmers.get? cam).getD (.ofSettings (passthrough w))).required ≤ 1 := by
  cases hb : s.confirmers.get? cam with
  | none => exact Nat.le_refl 1
  | some b => exact hs cam b hb

theorem open_take {s : Worker} (hs : s.Open) (i : Item AssociationEvent DetectionEvent) :
    (s.take h (passthrough w) i).1.Open := by
  cases i with
  | side e => exact hs
  | idle => exact hs
  | main e =>
    intro cam b hb
    have hreq := required_confirmer (w := w) hs e.data.cameraId
    let confirmer := (s.confirmers.get? e.data.cameraId).getD (.ofSettings (passthrough w))
    let filtered := confirmer.filterEntries (s.buffered e.data.cameraId) e.data.cameraId e.data.timestamp
    have hget : (s.confirmers.set e.data.cameraId filtered.1).get? cam = some b := hb
    rw [Dict.get?_set] at hget
    split at hget
    · have hfiltered : filtered.1 = confirmer := by
        dsimp only [filtered]
        rw [SignalConfirmationBuffer.filterEntries, SignalConfirmationBuffer.filter, if_pos hreq]
      rw [hfiltered, Option.some_inj] at hget
      exact hget ▸ hreq
    · exact hs cam b hget

/-- What a frame hands on when everything is let through: to each person the
buffered events of the track. -/
theorem calls_open {s : Worker} (hs : s.Open) (d : DetectionEvent) :
    (s.onDetection h (passthrough w) d).2.calls =
      d.persons.map fun p => (p, (s.buffered d.cameraId).filter (·.data.trackId = p.trackId)) := by
  have hreq := required_confirmer (w := w) hs d.cameraId
  simp only [onDetection, SignalConfirmationBuffer.filterEntries, if_pos hreq]

theorem latest_onDetection (s : Worker) (d : DetectionEvent) (cam : String) :
    (s.onDetection h w d).1.latestEventTs.get? cam =
      if cam = d.cameraId ∧ (s.latestEventTs.get? cam).getD 0 < d.timestamp then some d.timestamp
      else s.latestEventTs.get? cam := by
  have hlatest : (s.onDetection h w d).1.latestEventTs = watermark s.latestEventTs d.cameraId d.timestamp := rfl
  rw [hlatest, watermark]
  by_cases hcam : cam = d.cameraId
  · subst hcam
    by_cases hlt : (s.latestEventTs.get? d.cameraId).getD 0 < d.timestamp
    · simp [hlt]
    · simp [hlt]
  · by_cases hlt : (s.latestEventTs.get? d.cameraId).getD 0 < d.timestamp
    · simp [hlt, hcam, Dict.get?_set_ne _ _ hcam]
    · simp [hlt, hcam]

/-! ## The watermark -/

/-- Every watermark is positive. -/
def Marked (s : Worker) : Prop := ∀ cam refTs, s.latestEventTs.get? cam = some refTs → 0 < refTs

theorem marked_take {s : Worker} (hs : s.Marked) (i : Item AssociationEvent DetectionEvent) :
    (s.take h w i).1.Marked := by
  cases i with
  | side e => exact hs
  | idle => exact hs
  | main e =>
    intro cam refTs href
    have hlatest : (s.take h w (.main e)).1.latestEventTs.get? cam = _ := latest_onDetection s e.data cam
    rw [hlatest] at href
    split at href
    · rename_i hnew
      cases href
      cases hold : s.latestEventTs.get? cam with
      | none => simpa [hold] using hnew.2
      | some old => exact (hs cam old hold).trans (by simpa [hold] using hnew.2)
    · exact hs cam refTs href

/-- An idle poll spares what is stamped `t`. -/
def Spares (s : Worker) (cam : String) (t : ℚ) : Prop :=
  ∀ refTs, s.latestEventTs.get? cam = some refTs → refTs - t < 2

/-- Over a run the watermarks only rise, so a frame adds its own condition. -/
theorem spares_onDetection {s : Worker} (hs : s.Marked) (d : DetectionEvent) (cam : String) (t : ℚ) :
    (s.onDetection h w d).1.Spares cam t ↔
      s.Spares cam t ∧ (d.cameraId = cam → 0 < d.timestamp → d.timestamp - t < 2) := by
  unfold Spares
  rw [latest_onDetection]
  by_cases hnew : cam = d.cameraId ∧ (s.latestEventTs.get? cam).getD 0 < d.timestamp
  · obtain ⟨rfl, hlt⟩ := hnew
    have hold : ∀ refTs, s.latestEventTs.get? d.cameraId = some refTs → refTs < d.timestamp := by
      intro refTs href
      rwa [href, Option.getD_some] at hlt
    have hts : 0 < d.timestamp := by
      cases href : s.latestEventTs.get? d.cameraId with
      | none => rwa [href, Option.getD_none] at hlt
      | some refTs => exact (hs d.cameraId refTs href).trans (hold refTs href)
    simp only [hlt, and_self, if_true, Option.some.injEq, forall_eq', forall_const, hts]
    constructor
    · intro hnear
      refine ⟨fun refTs href => ?_, hnear⟩
      have hlt' := hold refTs href
      linarith
    · exact fun hboth => hboth.2
  · simp only [hnew, if_false]
    refine ⟨fun hspares => ⟨hspares, ?_⟩, fun hboth => hboth.1⟩
    rintro rfl hts
    rw [not_and] at hnew
    have hle := not_lt.1 (hnew rfl)
    cases href : s.latestEventTs.get? d.cameraId with
    | none =>
      rw [href, Option.getD_none] at hle
      exact absurd hts (not_lt.2 hle)
    | some refTs =>
      rw [href, Option.getD_some] at hle
      have hnear := hspares refTs href
      linarith

/-- The watermark in terms of the frames so far. -/
theorem spares_iff (is : List (Item AssociationEvent DetectionEvent)) (cam : String) (t : ℚ) :
    (Mealy.after (take h w) {} is).Spares cam t ↔
      ∀ d, .main d ∈ is → d.data.cameraId = cam → 0 < d.data.timestamp → d.data.timestamp - t < 2 := by
  induction is using List.reverseRecOn with
  | nil => simp [Spares]
  | append_singleton is i ih =>
    have hmarked : (Mealy.after (take h w) {} is).Marked :=
      Mealy.after_inv _ Marked _ (fun _ _ href => by cases href) (fun _ i hs => marked_take hs i) is
    rw [Mealy.after_concat]
    simp only [List.mem_append, List.mem_singleton, or_imp, forall_and]
    rw [← ih]
    cases i with
    | side e => simp [take, turn, onAssoc, Spares]
    | idle => simp [take, turn, onIdle, Spares]
    | main e =>
      have hstep := spares_onDetection (h := h) (w := w) hmarked e.data cam t
      simpa [take, turn] using hstep

/-! ## One entry -/

/-- The entry `e` is `n` times in the buffer of its camera and nowhere else. -/
structure Holds (s : Worker) (e : Entry AssociationEvent) (n : Nat) : Prop where
  own : ∀ x ∈ s.buffered e.data.cameraId, x.id = e.id → x = e
  count : (s.buffered e.data.cameraId).countP (·.id = e.id) = n
  others : ∀ cam, cam ≠ e.data.cameraId → ∀ x ∈ s.buffered cam, x.id ≠ e.id

theorem handedBy_cons (o : WorkerOut) (outs : List WorkerOut) :
    handedBy (o :: outs) = o.calls.flatMap (·.2) ++ handedBy outs := List.flatMap_cons

theorem handedBy_append (outs outs' : List WorkerOut) :
    handedBy (outs ++ outs') = handedBy outs ++ handedBy outs' := List.flatMap_append

/-- What a frame hands on of `e`: every copy, to every detection of its track. -/
theorem handed_frame {buf : List (Entry AssociationEvent)} {e : Entry AssociationEvent}
    (hown : ∀ x ∈ buf, x.id = e.id → x = e) (persons : List PersonDetection) :
    ((persons.map fun p => (p, buf.filter (·.data.trackId = p.trackId))).flatMap (·.2)).countP (·.id = e.id) =
      buf.countP (·.id = e.id) * persons.countP (·.trackId = e.data.trackId) := by
  have hcall (k : Int) : (buf.filter (·.data.trackId = k)).countP (·.id = e.id) =
      if k = e.data.trackId then buf.countP (·.id = e.id) else 0 := by
    rw [List.countP_filter]
    split
    · rename_i hk
      refine List.countP_congr fun x hx => ?_
      simp only [Bool.and_eq_true, decide_eq_true_iff]
      exact ⟨fun hx' => hx'.1, fun hid => ⟨hid, by rw [hown x hx hid, hk]⟩⟩
    · rename_i hk
      refine List.countP_eq_zero.2 fun x hx hboth => ?_
      simp only [Bool.and_eq_true, decide_eq_true_iff] at hboth
      exact hk (by rw [← hboth.2, hown x hx hboth.1])
  induction persons with
  | nil => simp
  | cons p persons ih =>
    rw [List.map_cons, List.flatMap_cons, List.countP_append, ih, hcall, List.countP_cons]
    by_cases hp : p.trackId = e.data.trackId
    · rw [if_pos hp, if_pos (decide_eq_true hp), Nat.mul_succ, Nat.add_comm]
    · simp [hp]

theorem holds_onAssoc {s : Worker} {e e' : Entry AssociationEvent} {n : Nat} (hh : s.Holds e n)
    (hne : e'.id ≠ e.id) : (s.onAssoc e').Holds e n := by
  have hmem (cam : String) (x : Entry AssociationEvent) (hx : x ∈ (s.onAssoc e').buffered cam) :
      x ∈ s.buffered cam ∨ x = e' := by
    rw [buffered_onAssoc] at hx
    split at hx
    · simpa using hx
    · exact .inl hx
  constructor
  · intro x hx hid
    rcases hmem _ x hx with hx | rfl
    · exact hh.own x hx hid
    · exact absurd hid hne
  · rw [buffered_onAssoc]
    split
    · simp [hh.count, hne]
    · exact hh.count
  · intro cam hcam x hx
    rcases hmem _ x hx with hx | rfl
    · exact hh.others cam hcam x hx
    · exact hne

theorem mem_onIdle {s : Worker} {cam : String} {x : Entry AssociationEvent} (hx : x ∈ s.onIdle.buffered cam) :
    x ∈ s.buffered cam := by
  rw [buffered_onIdle] at hx
  split at hx
  · exact List.mem_of_mem_filter hx
  · exact hx

theorem holds_onIdle {s : Worker} {e : Entry AssociationEvent} {n : Nat} (hh : s.Holds e n) :
    (s.Spares e.data.cameraId e.data.timestamp → s.onIdle.Holds e n) ∧
      (¬ s.Spares e.data.cameraId e.data.timestamp → s.onIdle.Holds e 0) := by
  have hholds {n' : Nat} (hcount : (s.onIdle.buffered e.data.cameraId).countP (·.id = e.id) = n') :
      s.onIdle.Holds e n' :=
    ⟨fun x hx => hh.own x (mem_onIdle hx), hcount, fun cam hcam x hx => hh.others cam hcam x (mem_onIdle hx)⟩
  unfold Spares
  cases href : s.latestEventTs.get? e.data.cameraId with
  | none =>
    refine ⟨fun _ => hholds ?_, fun hno => absurd (fun _ h => by cases h) hno⟩
    rw [buffered_onIdle, href]
    exact hh.count
  | some refTs =>
    have hcount : (s.onIdle.buffered e.data.cameraId).countP (·.id = e.id) =
        if refTs - e.data.timestamp < 2 then n else 0 := by
      rw [buffered_onIdle, href]
      dsimp only
      rw [List.countP_filter]
      split
      · rename_i hnear
        rw [← hh.count]
        refine List.countP_congr fun x hx => ?_
        simp only [Bool.and_eq_true, decide_eq_true_iff]
        exact ⟨fun hboth => hboth.1, fun hid => ⟨hid, by rwa [hh.own x hx hid]⟩⟩
      · rename_i hfar
        refine List.countP_eq_zero.2 fun x hx hboth => ?_
        simp only [Bool.and_eq_true, decide_eq_true_iff] at hboth
        rw [hh.own x hx hboth.1] at hboth
        exact hfar hboth.2
    simp only [Option.some.injEq, forall_eq']
    refine ⟨fun hnear => hholds ?_, fun hfar => hholds ?_⟩
    · rw [hcount, if_pos hnear]
    · rw [hcount, if_neg hfar]

theorem holds_onDetection {s : Worker} {e : Entry AssociationEvent} {n : Nat} (hh : s.Holds e n)
    (d : DetectionEvent) : (s.onDetection h w d).1.Holds e (if d.cameraId = e.data.cameraId then 0 else n) := by
  have hmem (cam : String) (x : Entry AssociationEvent) (hx : x ∈ (s.onDetection h w d).1.buffered cam) :
      x ∈ s.buffered cam := by
    rw [buffered_onDetection] at hx
    split at hx
    · cases hx
    · exact hx
  refine ⟨fun x hx => hh.own x (hmem _ x hx), ?_, fun cam hcam x hx => hh.others cam hcam x (hmem _ x hx)⟩
  rw [buffered_onDetection]
  by_cases hcam : d.cameraId = e.data.cameraId
  · simp [hcam]
  · simp [hcam, Ne.symm hcam, hh.count]

/-- What a frame hands on of `e`: every copy, to every detection of its track. -/
theorem handed_onDetection {s : Worker} (hs : s.Open) {e : Entry AssociationEvent} {n : Nat} (hh : s.Holds e n)
    (d : DetectionEvent) : ((s.onDetection h (passthrough w) d).2.calls.flatMap (·.2)).countP (·.id = e.id) =
      if d.cameraId = e.data.cameraId then n * d.persons.countP (·.trackId = e.data.trackId) else 0 := by
  rw [calls_open hs]
  split
  · rename_i hcam
    rw [hcam, handed_frame hh.own, hh.count]
  · rename_i hcam
    have hno : (s.buffered d.cameraId).countP (·.id = e.id) = 0 :=
      List.countP_eq_zero.2 fun x hx hid => hh.others _ hcam x hx (of_decide_eq_true hid)
    rw [handed_frame (fun x hx hid => absurd hid (hh.others _ hcam x hx)), hno, Nat.zero_mul]

/-! ## The way of an entry -/

/-- The entries that the turns `is` hand on from `s`. -/
def handedFrom (h : Host) (w : Settings) (s : Worker) (is : List (Item AssociationEvent DetectionEvent)) :
    List (Entry AssociationEvent) := handedBy (Mealy.outs (take h w) s is)

theorem handedFrom_cons (s : Worker) (i : Item AssociationEvent DetectionEvent)
    (is : List (Item AssociationEvent DetectionEvent)) : handedFrom h w s (i :: is) =
      (s.take h w i).2.calls.flatMap (·.2) ++ handedFrom h w (s.take h w i).1 is := handedBy_cons ..

theorem handedFrom_append (s : Worker) (is js : List (Item AssociationEvent DetectionEvent)) :
    handedFrom h w s (is ++ js) = handedFrom h w s is ++ handedFrom h w (Mealy.after (take h w) s is) js := by
  rw [handedFrom, Mealy.outs_append, handedBy_append]
  rfl

/-- An entry that is nowhere stays nowhere. -/
theorem gone_run {s : Worker} (hs : s.Open) {e : Entry AssociationEvent} (hh : s.Holds e 0)
    {is : List (Item AssociationEvent DetectionEvent)} (hid : ∀ e', .side e' ∈ is → e'.id ≠ e.id) :
    (Mealy.after (take h (passthrough w)) s is).Holds e 0 ∧
      (handedFrom h (passthrough w) s is).countP (·.id = e.id) = 0 := by
  induction is generalizing s with
  | nil => exact ⟨hh, rfl⟩
  | cons i is ih =>
    have hrest : ∀ e', .side e' ∈ is → e'.id ≠ e.id := fun e' he' => hid e' (List.mem_cons_of_mem _ he')
    -- no turn brings the entry back: new ones have other ids
    have hturn : (s.take h (passthrough w) i).1.Holds e 0 ∧
        ((s.take h (passthrough w) i).2.calls.flatMap (·.2)).countP (·.id = e.id) = 0 := by
      cases i with
      | side e' => exact ⟨holds_onAssoc hh (hid e' List.mem_cons_self), rfl⟩
      | idle =>
        refine ⟨?_, rfl⟩
        by_cases hspares : s.Spares e.data.cameraId e.data.timestamp
        · exact (holds_onIdle hh).1 hspares
        · exact (holds_onIdle hh).2 hspares
      | main d =>
        have hholds := holds_onDetection (h := h) (w := passthrough w) hh d.data
        have hhanded := handed_onDetection (h := h) (w := w) hs hh d.data
        rw [ite_self] at hholds
        rw [Nat.zero_mul, ite_self] at hhanded
        exact ⟨hholds, hhanded⟩
    obtain ⟨hafter, hhanded⟩ := ih (open_take hs i) hturn.1 hrest
    refine ⟨hafter, ?_⟩
    rw [handedFrom_cons, List.countP_append, hturn.2, hhanded]

/-- Until the next frame of its camera an entry waits, and an idle poll spares it or
drops it by the watermark of the moment it came. -/
theorem waiting_run {s : Worker} (hs : s.Open) {e : Entry AssociationEvent} {n : Nat} (hh : s.Holds e n)
    {is : List (Item AssociationEvent DetectionEvent)} (hid : ∀ e', .side e' ∈ is → e'.id ≠ e.id)
    (hcam : ∀ d, .main d ∈ is → d.data.cameraId ≠ e.data.cameraId) :
    (handedFrom h (passthrough w) s is).countP (·.id = e.id) = 0 ∧
      ((.idle ∈ is → s.Spares e.data.cameraId e.data.timestamp) →
        (Mealy.after (take h (passthrough w)) s is).Holds e n) ∧
      (.idle ∈ is → ¬ s.Spares e.data.cameraId e.data.timestamp →
        (Mealy.after (take h (passthrough w)) s is).Holds e 0) := by
  induction is generalizing s with
  | nil => exact ⟨rfl, fun _ => hh, fun hidle => by cases hidle⟩
  | cons i is ih =>
    have hrest : ∀ e', .side e' ∈ is → e'.id ≠ e.id := fun e' he' => hid e' (List.mem_cons_of_mem _ he')
    have hrestcam : ∀ d, .main d ∈ is → d.data.cameraId ≠ e.data.cameraId := fun d hd =>
      hcam d (List.mem_cons_of_mem _ hd)
    rw [handedFrom_cons, Mealy.after_cons]
    cases i with
    | side e' =>
      have hholds : (s.take h (passthrough w) (.side e')).1.Holds e n :=
        holds_onAssoc hh (hid e' List.mem_cons_self)
      obtain ⟨hhanded, hspared, hdropped⟩ := ih (open_take hs (.side e')) hholds hrest hrestcam
      exact ⟨hhanded, fun hidle => hspared fun hmem => hidle (List.mem_cons_of_mem _ hmem), fun hidle =>
        hdropped (by simpa using hidle)⟩
    | main d =>
      have hne := hcam d List.mem_cons_self
      have hholds := holds_onDetection (h := h) (w := passthrough w) hh d.data
      have hhanded := handed_onDetection (h := h) (w := w) hs hh d.data
      rw [if_neg hne] at hholds hhanded
      -- a frame of another camera leaves this watermark alone
      have hspares : (s.take h (passthrough w) (.main d)).1.Spares e.data.cameraId e.data.timestamp ↔
          s.Spares e.data.cameraId e.data.timestamp := by
        have hlatest : (s.take h (passthrough w) (.main d)).1.latestEventTs.get? e.data.cameraId = _ :=
          latest_onDetection s d.data e.data.cameraId
        rw [Spares, hlatest, if_neg fun hboth => hne hboth.1.symm]
        rfl
      have hrun := ih (open_take hs (.main d)) hholds hrest hrestcam
      rw [hspares] at hrun
      have hzero : ((s.take h (passthrough w) (.main d)).2.calls.flatMap (·.2)).countP (·.id = e.id) = 0 := hhanded
      obtain ⟨hhandedrest, hspared, hdropped⟩ := hrun
      rw [List.countP_append, hzero, hhandedrest]
      exact ⟨rfl, fun hidle => hspared fun hmem => hidle (List.mem_cons_of_mem _ hmem), fun hidle =>
        hdropped (by simpa using hidle)⟩
    | idle =>
      by_cases hspares : s.Spares e.data.cameraId e.data.timestamp
      · have hholds : (s.take h (passthrough w) .idle).1.Holds e n := (holds_onIdle hh).1 hspares
        obtain ⟨hhanded, hafter, -⟩ := ih (open_take hs .idle) hholds hrest hrestcam
        exact ⟨hhanded, fun _ => hafter fun _ => hspares, fun _ hno => absurd hspares hno⟩
      · have hholds : (s.take h (passthrough w) .idle).1.Holds e 0 := (holds_onIdle hh).2 hspares
        obtain ⟨hafter, hhanded⟩ := gone_run (h := h) (w := w) (open_take hs .idle) hholds hrest
        exact ⟨hhanded, fun hno => absurd (hno List.mem_cons_self) hspares, fun _ _ => hafter⟩

theorem open_init : ({} : Worker).Open := fun _ _ hb => by cases hb

theorem open_run {s : Worker} (hs : s.Open) (is : List (Item AssociationEvent DetectionEvent)) :
    (Mealy.after (take h (passthrough w)) s is).Open :=
  Mealy.after_inv _ Open _ hs (fun _ i hs => open_take hs i) is

theorem holds_new {s : Worker} {e : Entry AssociationEvent} (hh : s.Holds e 0) : (s.onAssoc e).Holds e 1 := by
  constructor
  · intro x hx hid
    rw [buffered_onAssoc, if_pos rfl] at hx
    rcases List.mem_append.1 hx with hx | hx
    · exact hh.own x hx hid
    · exact List.mem_singleton.1 hx
  · rw [buffered_onAssoc, if_pos rfl, List.countP_append, hh.count]
    simp
  · intro cam hcam x hx
    rw [buffered_onAssoc, if_neg hcam] at hx
    exact hh.others cam hcam x hx

/-- The next frame of its camera hands the entry on, and nothing does later. -/
theorem frame_run {s : Worker} (hs : s.Open) {e : Entry AssociationEvent} {n : Nat} (hh : s.Holds e n)
    {d : Entry DetectionEvent} (hd : d.data.cameraId = e.data.cameraId)
    {C : List (Item AssociationEvent DetectionEvent)} (hid : ∀ e', .side e' ∈ C → e'.id ≠ e.id) :
    (handedFrom h (passthrough w) s (.main d :: C)).countP (·.id = e.id) =
      n * d.data.persons.countP (·.trackId = e.data.trackId) := by
  have hholds := holds_onDetection (h := h) (w := passthrough w) hh d.data
  have hhanded := handed_onDetection (h := h) (w := w) hs hh d.data
  rw [if_pos hd] at hholds hhanded
  have hlater := (gone_run (h := h) (w := w) (open_take hs (.main d)) hholds hid).2
  rw [handedFrom_cons, List.countP_append, hlater]
  exact hhanded

/-- What becomes of the entry `e`: the first frame `d` of its camera gives it to every
detection of its track, unless an idle poll in between dropped it. -/
theorem handed_eq {pre B C : List (Item AssociationEvent DetectionEvent)} {e : Entry AssociationEvent}
    {d : Entry DetectionEvent} (hpre : ∀ e', .side e' ∈ pre → e'.id ≠ e.id)
    (hpost : ∀ e', .side e' ∈ B ++ .main d :: C → e'.id ≠ e.id)
    (hB : ∀ d', .main d' ∈ B → d'.data.cameraId ≠ e.data.cameraId) (hd : d.data.cameraId = e.data.cameraId) :
    ((.idle ∈ B → (Mealy.after (take h (passthrough w)) {} pre).Spares e.data.cameraId e.data.timestamp) →
      (handed h (passthrough w) (pre ++ .side e :: (B ++ .main d :: C))).countP (·.id = e.id) =
        d.data.persons.countP (·.trackId = e.data.trackId)) ∧
    (.idle ∈ B → ¬ (Mealy.after (take h (passthrough w)) {} pre).Spares e.data.cameraId e.data.timestamp →
      (handed h (passthrough w) (pre ++ .side e :: (B ++ .main d :: C))).countP (·.id = e.id) = 0) := by
  have hnowhere : ({} : Worker).Holds e 0 := by
    refine ⟨?_, rfl, ?_⟩
    · intro x hx
      cases hx
    · intro cam _ x hx
      cases hx
  have hopen := open_run (h := h) (w := w) open_init pre
  obtain ⟨hgone, hpre0⟩ := gone_run (h := h) (w := w) open_init hnowhere hpre
  have hBid : ∀ e', .side e' ∈ B → e'.id ≠ e.id := fun e' he' => hpost e' (List.mem_append_left _ he')
  have hCid : ∀ e', .side e' ∈ C → e'.id ≠ e.id := fun e' he' =>
    hpost e' (List.mem_append_right _ (List.mem_cons_of_mem _ he'))
  obtain ⟨hB0, hspared, hdropped⟩ :=
    waiting_run (h := h) (w := w) (open_take hopen (.side e)) (holds_new hgone) hBid hB
  -- before, between and after: only the frame hands the entry on
  have htotal {n : Nat} (hholds : (Mealy.after (take h (passthrough w))
      (take h (passthrough w) (Mealy.after (take h (passthrough w)) {} pre) (.side e)).1 B).Holds e n) :
      (handed h (passthrough w) (pre ++ .side e :: (B ++ .main d :: C))).countP (·.id = e.id) =
        n * d.data.persons.countP (·.trackId = e.data.trackId) := by
    have hsplit : handed h (passthrough w) (pre ++ .side e :: (B ++ .main d :: C)) = _ :=
      handedFrom_append {} pre _
    rw [hsplit, List.countP_append, handedFrom_cons, List.countP_append, handedFrom_append, List.countP_append,
      hB0, frame_run (open_run (open_take hopen (.side e)) B) hholds hd hCid]
    have hside : (take h (passthrough w) (Mealy.after (take h (passthrough w)) {} pre) (.side e)).2.calls = [] :=
      rfl
    have hpre0' : (handedFrom h (passthrough w) {} pre).countP (·.id = e.id) = 0 := hpre0
    rw [hside, hpre0']
    simp
  constructor
  · intro hidle
    rw [htotal (hspared hidle), Nat.one_mul]
  · intro hidle hno
    rw [htotal (hdropped hidle hno), Nat.zero_mul]

end Worker

/-! ## When no event is lost -/

/-- A frame of a camera among items, and the first one. -/
theorem first_frame {is : List (Item AssociationEvent DetectionEvent)} {cam : String} {d₀ : Entry DetectionEvent}
    (hd₀ : .main d₀ ∈ is) (hcam : d₀.data.cameraId = cam) :
    ∃ B d C, is = B ++ .main d :: C ∧ (∀ d', .main d' ∈ B → d'.data.cameraId ≠ cam) ∧ d.data.cameraId = cam := by
  induction is with
  | nil => cases hd₀
  | cons i is ih =>
    by_cases hfirst : ∃ d, i = .main d ∧ d.data.cameraId = cam
    · obtain ⟨d, rfl, hd⟩ := hfirst
      exact ⟨[], d, is, rfl, by simp, hd⟩
    · have htail : .main d₀ ∈ is := by
        rcases List.mem_cons.1 hd₀ with rfl | htail
        · exact absurd ⟨d₀, rfl, hcam⟩ hfirst
        · exact htail
      obtain ⟨B, d, C, rfl, hB, hd⟩ := ih htail
      refine ⟨i :: B, d, C, rfl, fun d' hd' heq => ?_, hd⟩
      rcases List.mem_cons.1 hd' with rfl | hd'
      · exact hfirst ⟨d', rfl, heq⟩
      · exact hB d' hd' heq

/-- No event is lost iff each goes into a frame that has its track exactly once. -/
theorem no_loss_iff (h : Host) (w : Settings) (acts : List (Action Unit AssociationEvent DetectionEvent)) :
    NoLoss h (passthrough w) acts ↔ Kept (Worker.items h (passthrough w) acts) := by
  constructor
  · rintro hnoloss pre e post hitems ⟨d₀, hd₀, hmeets⟩
    obtain ⟨B, d, C, hpost, hBcam, hd⟩ := first_frame hd₀ hmeets.1
    have hone := hnoloss pre e post hitems ⟨d₀, hd₀, hmeets⟩
    obtain ⟨hpreid, hpostid⟩ := Consumer.side_once hitems
    rw [hpost] at hpostid
    rw [hitems, hpost] at hone
    obtain ⟨hspared, hdropped⟩ := Worker.handed_eq (h := h) (w := w) hpreid hpostid hBcam hd
    by_cases hidle : .idle ∈ B →
        (Mealy.after (Worker.take h (passthrough w)) {} pre).Spares e.data.cameraId e.data.timestamp
    · rw [hspared hidle] at hone
      exact ⟨B, d, C, hpost, hBcam, hd, hone, fun hmem => (Worker.spares_iff pre _ _).1 (hidle hmem)⟩
    · obtain ⟨hmem, hno⟩ := Classical.not_imp.1 hidle
      rw [hdropped hmem hno] at hone
      cases hone
  · rintro hkept pre e post hitems hmeets
    obtain ⟨B, d, C, hpost, hBcam, hd, hcount, hidle⟩ := hkept pre e post hitems hmeets
    obtain ⟨hpreid, hpostid⟩ := Consumer.side_once hitems
    rw [hpost] at hpostid
    rw [hitems, hpost]
    rw [(Worker.handed_eq hpreid hpostid hBcam hd).1 fun hmem => (Worker.spares_iff pre _ _).2 (hidle hmem)]
    exact hcount

/-- A frame of cam-01 at `t` with the given tracks. -/
def frameOf (tracks : List Int) (t : ℚ) : DetectionEvent where
  cameraId := "cam-01"
  persons := tracks.map fun k =>
    { trackId := k, cameraId := "cam-01", bbox := ⟨0, 0, 40, 160⟩, confidence := 1, keypoints := [], timestamp := t }
  items := []
  frameSeq := 0
  timestamp := t

def pickupOfTwo : AssociationEvent :=
  { cameraId := "cam-01", trackId := 2, eventType := .itemPickup, timestamp := 1000 }

/-- A pickup of track 2 is read before a frame with track 1 alone; track 2 is in the next. -/
def missedByAFrame : List (Action Unit AssociationEvent DetectionEvent) :=
  [.addSide pickupOfTwo, .addMain (frameOf [1] 1000.1), .addMain (frameOf [1, 2] 1000.2)] ++
    List.replicate 6 (.work ())

/-- The pickup is gone when its track comes into view. -/
theorem no_loss_fails :
    ¬ ∀ (h : Host) (w : Settings) (acts : List (Action Unit AssociationEvent DetectionEvent)),
      NoLoss h (passthrough w) acts := by
  intro hall
  have hitems : Worker.items .reference (passthrough .default) missedByAFrame =
      [] ++ .side ⟨0, pickupOfTwo⟩ :: [.main ⟨0, frameOf [1] 1000.1⟩, .main ⟨1, frameOf [1, 2] 1000.2⟩] := rfl
  have hone := hall .reference .default missedByAFrame _ _ _ hitems
    ⟨⟨1, frameOf [1, 2] 1000.2⟩, by simp, rfl, ⟨_, List.mem_cons_of_mem _ List.mem_cons_self, rfl⟩,
      by decide +kernel⟩
  obtain ⟨hpreid, hpostid⟩ := Consumer.side_once hitems
  have hzero :=
    (Worker.handed_eq (h := .reference) (w := .default) (B := []) hpreid hpostid (by simp) rfl).1 (by simp)
  rw [hitems] at hone
  exact absurd (hone.symm.trans hzero) (by decide)

end Netra.Behavior
