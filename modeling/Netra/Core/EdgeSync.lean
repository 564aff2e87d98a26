import Netra.Wire.Producers
/-!
# The alert queue of an edge deployment

`LocalAlertQueue.push` appends to a file, and a turn of `EdgeSyncWorker._sync_loop`
(`backend/core/edge_mode.py`) takes all of it at once and then adds the alerts to
`netra:incidents` one by one. What was taken is nowhere else while the turn is
under way, so a turn that ends early loses the rest: `none_lost_iff`.
-/
namespace Netra.EdgeSync

open PyLib Wire

/-- What `push` is given: a dict that `json.dumps` takes. -/
structure Alert where
  items : List (String × Json)
  nodup : (items.map Prod.fst).Nodup
  wellFormed : ∀ kv ∈ items, kv.2.WellFormed

/-- `alert["_queued_at"] = time.time()` -/
def Alert.queued (alert : Alert) (now : ℚ) : Json := .obj (Dict.setItems "_queued_at" (.float now) alert.items)

/-- Where the worker is. -/
inductive Phase where
  /-- between turns -/
  | sleeping
  | pinging
  /-- before `drain` -/
  | connected
  /-- before the answer to the `xadd` of `alert` -/
  | sending (alert : Json) (rest : List Json)
  | closing
  /-- cancelled -/
  | stopped

/-- The loop over `alerts`. -/
def Phase.send : List Json → Phase
  | [] => .closing
  | alert :: rest => .sending alert rest

/-- The alerts that the turn has drained and not yet added. -/
def Phase.pending : Phase → List Json
  | .sending alert rest => alert :: rest
  | _ => []

structure Sys where
  /-- the queue file, empty when there is none -/
  file : List Char := []
  /-- `netra:incidents`, as far as the worker added to it -/
  stream : List Message := []
  phase : Phase := .sleeping
  /-- everything pushed so far -/
  pushed : List Json := []

/-- How an await ends. -/
inductive Outcome where
  | ok | raised | cancelled
  deriving DecidableEq

inductive Action where
  | push (alert : Alert) (now : ℚ)
  /-- The worker's next await ends. An `xadd` that raises or is cancelled can have
  reached Redis before. -/
  | await (o : Outcome) (reached : Bool)
  /-- `start()` of a stopped worker -/
  | start

/-- The worker is between turns. -/
def Sys.Between (s : Sys) : Prop := s.phase = .sleeping ∨ s.phase = .stopped

/-- The turn ends; a cancellation ends the loop. -/
def Sys.endTurn (s : Sys) (o : Outcome) : Sys :=
  { s with phase := if o = .cancelled then .stopped else .sleeping }

section
variable (py : PyJson)

/-- The next await of the worker ends. -/
def worker (s : Sys) (o : Outcome) (reached : Bool) : Sys :=
  match s.phase with
  | .sleeping =>
    if o = .cancelled then s.endTurn o
    -- `self._queue.size == 0`
    else if s.file = [] then s
    else { s with phase := .pinging }
  | .pinging => if o = .ok then { s with phase := .connected } else s.endTurn o
  | .connected =>
    if o = .cancelled then s.endTurn o
    else
      match drain py s.file with
      | none => { s with file := [] }.endTurn .raised
      | some alerts => { s with file := [], phase := .send alerts }
  | .sending alert rest =>
    match strValues py alert with
    -- not a dict
    | none => s.endTurn .raised
    | some m =>
      let s := if o = .ok ∨ reached then { s with stream := s.stream ++ [m], phase := .send rest } else s
      if o = .ok then s else s.endTurn o
  | .closing => s.endTurn o
  | .stopped => s

def step (s : Sys) : Action → Sys × Unit
  | .push alert now =>
    ({ s with file := s.file ++ (py.dumps (alert.queued now)).toList ++ ['\n']
              pushed := s.pushed ++ [alert.queued now] },
     ())
  | .await o reached => (worker py s o reached, ())
  | .start =>
    match s.phase with
    | .stopped => ({ s with phase := .sleeping }, ())
    | _ => (s, ())

/-- Each alert pushed is in the queue file or in the stream. -/
def Kept (s : Sys) : Prop :=
  ∃ queued sent, drain py s.file = some queued ∧ sent.map (strValues py) = s.stream.map some ∧
    s.pushed.Subperm (queued ++ sent)

/-- Between turns no alert is ever missing. -/
def NoneLost (acts : List Action) : Prop :=
  Mealy.Always (step py) (fun s a => (step py s a).1.Between → Kept py (step py s a).1) {} acts

end

/-- An `xadd` raises or the worker is cancelled before the turn has added all that it drained. -/
def Abandons (s : Sys) (a : Action) : Prop :=
  ∃ alert rest o reached, s.phase = .sending alert rest ∧ a = .await o reached ∧ o ≠ .ok ∧ (reached = true → rest ≠ [])

/-! ## Where the alerts are -/

section
variable {py : PyJson}

/-- A dict that can be written to the file. -/
def Storable (v : Json) : Prop := v.WellFormed ∧ ∃ kvs, v = .obj kvs

theorem storable_queued (alert : Alert) (now : ℚ) : Storable (alert.queued now) := by
  refine ⟨.obj (Dict.nodup_setItems _ _ _ alert.nodup) fun kv hkv => ?_, _, rfl⟩
  rcases Dict.mem_setItems hkv with rfl | hkv
  · exact .float _
  · exact alert.wellFormed kv hkv

/-- All that was pushed is in the file, in the stream or still to be sent in this turn. -/
structure Accounted (py : PyJson) (s : Sys) (queued sent : List Json) : Prop where
  file : s.file = py.jsonLines queued
  stream : sent.map (strValues py) = s.stream.map some
  storable : ∀ v ∈ queued ++ s.phase.pending, Storable v
  pushed : s.pushed.Perm (queued ++ (sent ++ s.phase.pending))

theorem accounted_init : Accounted py {} [] [] where
  file := rfl
  stream := rfl
  storable _ hv := by cases hv
  pushed := .refl _

theorem Accounted.drain {s : Sys} {queued sent : List Json} (h : Accounted py s queued sent) :
    drain py s.file = some queued := by
  rw [h.file]
  exact drain_jsonLines fun v hv => (h.storable v (List.mem_append_left _ hv)).1

theorem Accounted.length {s : Sys} {queued sent : List Json} (h : Accounted py s queued sent) :
    s.pushed.length = queued.length + s.stream.length + s.phase.pending.length := by
  have hsent : sent.length = s.stream.length := by
    simpa using congrArg List.length h.stream
  rw [h.pushed.length_eq, List.length_append, List.length_append, hsent, Nat.add_assoc]

@[simp] theorem pending_send (alerts : List Json) : (Phase.send alerts).pending = alerts := by
  cases alerts <;> rfl

/-- A change of phase alone, with nothing left to send on either side. -/
theorem Accounted.phase {s : Sys} {queued sent : List Json} (h : Accounted py s queued sent) {p : Phase}
    (hp : p.pending = s.phase.pending) : Accounted py { s with phase := p } queued sent :=
  ⟨h.file, h.stream, by simpa [hp] using h.storable, by simpa [hp] using h.pushed⟩

theorem pending_endTurn (s : Sys) (o : Outcome) : (s.endTurn o).phase.pending = [] := by
  unfold Sys.endTurn
  dsimp only
  split <;> rfl

theorem Accounted.endTurn {s : Sys} {queued sent : List Json} (h : Accounted py s queued sent)
    (hp : s.phase.pending = []) (o : Outcome) : Accounted py (s.endTurn o) queued sent :=
  h.phase ((pending_endTurn s o).trans hp.symm)

theorem Accounted.push {s : Sys} {queued sent : List Json} (h : Accounted py s queued sent) (alert : Alert) (now : ℚ) :
    Accounted py (step py s (.push alert now)).1 (queued ++ [alert.queued now]) sent where
  file := by
    rw [PyJson.jsonLines_concat, ← h.file]
    rfl
  stream := h.stream
  storable v hv := by
    rcases List.mem_append.1 hv with hv | hv
    · rcases List.mem_append.1 hv with hv | hv
      · exact h.storable v (List.mem_append_left _ hv)
      · exact List.mem_singleton.1 hv ▸ storable_queued alert now
    · exact h.storable v (List.mem_append_right _ hv)
  pushed := by
    refine (h.pushed.append_right [alert.queued now]).trans ?_
    rw [List.append_assoc, List.append_assoc queued]
    exact List.Perm.append_left queued List.perm_append_comm

/-- The file is empty and all of it is to be sent. -/
theorem Accounted.drained {s : Sys} {queued sent : List Json} (h : Accounted py s queued sent)
    (hp : s.phase.pending = []) : Accounted py { s with file := [], phase := .send queued } [] sent where
  file := rfl
  stream := h.stream
  storable v hv := by
    rw [pending_send] at hv
    exact h.storable v (List.mem_append_left _ hv)
  pushed := by
    rw [pending_send, List.nil_append]
    have hpushed := h.pushed
    rw [hp, List.append_nil] at hpushed
    exact hpushed.trans List.perm_append_comm

/-- One more alert is in the stream. -/
theorem Accounted.sent {s : Sys} {queued sent rest : List Json} {alert : Json} {m : Message}
    (h : Accounted py s queued sent) (hp : s.phase = .sending alert rest) (hm : strValues py alert = some m) :
    Accounted py { s with stream := s.stream ++ [m], phase := .send rest } queued (sent ++ [alert]) where
  file := h.file
  stream := by rw [List.map_append, List.map_append, h.stream, List.map_singleton, List.map_singleton, hm]
  storable v hv := by
    rw [pending_send] at hv
    refine h.storable v ?_
    rw [hp]
    rcases List.mem_append.1 hv with hv | hv
    · exact List.mem_append_left _ hv
    · exact List.mem_append_right _ (List.mem_cons_of_mem _ hv)
  pushed := by
    rw [pending_send, List.append_assoc, List.singleton_append]
    have hpushed := h.pushed
    rwa [hp] at hpushed

theorem Accounted.kept {s : Sys} {queued sent : List Json} (h : Accounted py s queued sent) (hs : s.Between) :
    Kept py s := by
  refine ⟨queued, sent, h.drain, h.stream, ?_⟩
  have hpending : s.phase.pending = [] := by
    rcases hs with hs | hs <;> rw [hs] <;> rfl
  have hpushed := h.pushed
  rw [hpending, List.append_nil] at hpushed
  exact hpushed.subperm

/-! ## Turns -/

/-- The alert that is being sent is a dict. -/
theorem Accounted.message {s : Sys} {queued sent rest : List Json} {alert : Json} (h : Accounted py s queued sent)
    (hp : s.phase = .sending alert rest) : ∃ m, strValues py alert = some m := by
  have hmem : alert ∈ queued ++ s.phase.pending := by
    rw [hp]
    exact List.mem_append_right _ List.mem_cons_self
  obtain ⟨-, kvs, rfl⟩ := h.storable alert hmem
  exact ⟨_, rfl⟩

/-- The `xadd` is answered, or was the last one and had been executed when the turn was cut short. -/
theorem Accounted.answered {s : Sys} {queued sent rest : List Json} {alert : Json} (h : Accounted py s queued sent)
    (hp : s.phase = .sending alert rest) {o : Outcome} {reached : Bool} (ho : o = .ok ∨ reached = true ∧ rest = []) :
    Accounted py (worker py s o reached) queued (sent ++ [alert]) := by
  obtain ⟨m, hm⟩ := h.message hp
  simp only [worker, hp, hm]
  by_cases hok : o = .ok
  · rw [if_pos hok, if_pos (Or.inl hok)]
    exact h.sent hp hm
  · obtain ⟨rfl, rfl⟩ := ho.resolve_left hok
    rw [if_neg hok, if_pos (Or.inr rfl)]
    exact (h.sent hp hm).endTurn rfl o

/-- A turn that is not abandoned keeps account of every alert. -/
theorem accounted_step {s : Sys} {queued sent : List Json} (h : Accounted py s queued sent) {a : Action}
    (ha : ¬ Abandons s a) : ∃ queued' sent', Accounted py (step py s a).1 queued' sent' := by
  cases a with
  | push alert now => exact ⟨_, _, h.push alert now⟩
  | start =>
    unfold step
    cases hp : s.phase with
    | stopped => exact ⟨_, _, h.phase (by rw [hp]; rfl)⟩
    | _ => exact ⟨_, _, h⟩
  | await o reached =>
    simp only [step, worker]
    cases hp : s.phase with
    | sleeping =>
      have hnone : s.phase.pending = [] := by rw [hp]; rfl
      dsimp only
      split
      · exact ⟨_, _, h.endTurn hnone o⟩
      · split
        · exact ⟨_, _, h⟩
        · exact ⟨_, _, h.phase hnone.symm⟩
    | pinging =>
      have hnone : s.phase.pending = [] := by rw [hp]; rfl
      dsimp only
      split
      · exact ⟨_, _, h.phase hnone.symm⟩
      · exact ⟨_, _, h.endTurn hnone o⟩
    | connected =>
      have hnone : s.phase.pending = [] := by rw [hp]; rfl
      dsimp only
      split
      · exact ⟨_, _, h.endTurn hnone o⟩
      · rw [h.drain]
        exact ⟨_, _, h.drained hnone⟩
    | sending alert rest =>
      have hanswered : o = .ok ∨ reached = true ∧ rest = [] := by
        by_contra hnot
        obtain ⟨hok, hleft⟩ := not_or.1 hnot
        exact ha ⟨alert, rest, o, reached, hp, rfl, hok, fun hr hrest => hleft ⟨hr, hrest⟩⟩
      have hsent := h.answered hp hanswered
      simp only [worker, hp] at hsent
      exact ⟨_, _, hsent⟩
    | closing => exact ⟨_, _, h.endTurn (by rw [hp]; rfl) o⟩
    | stopped => exact ⟨_, _, h⟩

/-- Where every alert is kept, the stream has grown by all that was to be sent. -/
theorem Accounted.sent_le {s s' : Sys} {queued sent : List Json} (h : Accounted py s queued sent)
    (hfile : s'.file = s.file) (hpushed : s'.pushed = s.pushed) (hkept : Kept py s') :
    s.stream.length + s.phase.pending.length ≤ s'.stream.length := by
  obtain ⟨queued', sent', hdrain, hstream, hsub⟩ := hkept
  rw [hfile, h.drain] at hdrain
  obtain rfl := Option.some.inj hdrain
  have hsent : sent'.length = s'.stream.length := by simpa using congrArg List.length hstream
  have hle : s.pushed.length ≤ (queued ++ sent').length := hpushed ▸ hsub.length_le
  rw [h.length, List.length_append, hsent] at hle
  omega

/-- One that is loses an alert. -/
theorem lost_step {s : Sys} {queued sent : List Json} (h : Accounted py s queued sent) {a : Action}
    (ha : Abandons s a) : (step py s a).1.Between ∧ ¬ Kept py (step py s a).1 := by
  obtain ⟨alert, rest, o, reached, hp, rfl, hok, hleft⟩ := ha
  obtain ⟨m, hm⟩ := h.message hp
  have hstep : ∃ p, (step py s (.await o reached)).1 =
      ({ s with stream := s.stream ++ (if reached then [m] else []), phase := p }).endTurn o := by
    simp only [step, worker, hp, hm, hok, false_or, if_false]
    cases reached with
    | true => exact ⟨.send rest, rfl⟩
    | false =>
      refine ⟨s.phase, ?_⟩
      rw [if_neg Bool.false_ne_true, if_neg Bool.false_ne_true, List.append_nil]
  obtain ⟨p, hstep⟩ := hstep
  rw [hstep]
  constructor
  · unfold Sys.Between Sys.endTurn
    dsimp only
    split
    · exact .inr rfl
    · exact .inl rfl
  · intro hkept
    -- at most one of the alerts that were left has been added
    have hle : s.stream.length + s.phase.pending.length ≤ (s.stream ++ if reached then [m] else []).length :=
      h.sent_le (by rfl) (by rfl) hkept
    rw [hp, Phase.pending, List.length_cons, List.length_append] at hle
    cases reached with
    | true =>
      have hpos : 0 < rest.length := List.length_pos_iff.2 (hleft rfl)
      simp only [if_true, List.length_singleton] at hle
      omega
    | false =>
      simp only [Bool.false_eq_true, if_false, List.length_nil] at hle
      omega

/-- No alert is lost exactly when no turn is cut short between its `drain` and the
last `xadd`. -/
theorem none_lost_iff (py : PyJson) (acts : List Action) :
    NoneLost py acts ↔ Mealy.Always (step py) (fun s a => ¬ Abandons s a) {} acts := by
  have hstep {s : Sys} {queued sent : List Json} (h : Accounted py s queued sent) (a : Action) :
      ((step py s a).1.Between → Kept py (step py s a).1) ↔ ¬ Abandons s a := by
    constructor
    · intro hkept ha
      obtain ⟨hbetween, hlost⟩ := lost_step h ha
      exact hlost (hkept hbetween)
    · intro ha hbetween
      obtain ⟨queued', sent', h'⟩ := accounted_step h ha
      exact h'.kept hbetween
  refine Mealy.always_rel (step py) (step py) (fun s t => s = t ∧ ∃ queued sent, Accounted py s queued sent) ?_ ?_
    ⟨rfl, [], [], accounted_init⟩ acts
  · rintro s _ a ⟨rfl, queued, sent, h⟩ hkept
    exact ⟨rfl, accounted_step h ((hstep h a).1 hkept)⟩
  · rintro s _ a ⟨rfl, queued, sent, h⟩
    exact hstep h a

/-- A turn that takes a queued alert. -/
def takes (alert : Alert) : List Action :=
  [.push alert 1700000000, .await .ok false, .await .ok false, .await .ok false]

theorem after_takes (py : PyJson) (alert : Alert) :
    (Mealy.after (step py) {} (takes alert)).phase = .sending (alert.queued 1700000000) [] ∧
      Accounted py (Mealy.after (step py) {} (takes alert)) [] [] := by
  have hinit : Accounted py {} [] [] := accounted_init
  have hpush := hinit.push alert 1700000000
  have hfile : (step py {} (.push alert 1700000000)).1.file ≠ [] := by simp [step]
  have hphase : (step py {} (.push alert 1700000000)).1.phase = .sleeping := rfl
  rw [takes, Mealy.after_cons]
  generalize (step py {} (.push alert 1700000000)).1 = s at hpush hfile hphase
  have hdrain := hpush.drain
  have hafter : Mealy.after (step py) s [.await .ok false, .await .ok false, .await .ok false] =
      { s with file := [], phase := .send [alert.queued 1700000000] } := by
    simp [Mealy.after, step, worker, hphase, hfile, hdrain]
  rw [hafter]
  exact ⟨rfl, hpush.drained (by rw [hphase]; rfl)⟩

/-- The connection is lost before the alert is added. -/
theorem none_lost_fails : ¬ ∀ (py : PyJson) (acts : List Action), NoneLost py acts := by
  intro hall
  have hlost := hall .reference (takes ⟨[], List.nodup_nil, by simp⟩ ++ [.await .raised false])
  obtain ⟨-, hkept, -⟩ := Mealy.always_append.1 hlost
  obtain ⟨hphase, haccounted⟩ := after_takes .reference ⟨[], List.nodup_nil, by simp⟩
  have habandons : Abandons (Mealy.after (step .reference) {} (takes ⟨[], List.nodup_nil, by simp⟩))
      (.await .raised false) :=
    ⟨_, _, .raised, false, hphase, rfl, by decide, by simp⟩
  obtain ⟨hbetween, hnot⟩ := lost_step haccounted habandons
  exact hnot (hkept hbetween)

end

end Netra.EdgeSync
