import Netra.Alerting.Worker
import Netra.Lib.Trim
/-!
# A backlog of incidents

The risk worker and `SyntheticEventGenerator` add to `netra:incidents` with a `MAXLEN ~`
that lets Redis trim it (`EdgeSyncWorker` adds without one), and `trim_redis_streams`
(`backend/utils/cleanup.py`) trims it every minute. The alerting worker is given an
incident unless a trim finds it unread behind 500 newer ones; while it is not that far
behind, it does what it would do on the whole stream (`incidents_kept`).
-/
namespace Netra.Alerting

open PyLib Wire RedisStream

/-- What happens to `netra:incidents`; `cut` is what Redis makes of a trim. -/
inductive IncidentsAction where
  /-- the risk worker's `xadd` -/
  | publish (m : Message) (cut : Nat)
  /-- that of `SyntheticEventGenerator` -/
  | synthetic (m : Message) (cut : Nat)
  | trimRedisStreams (cut : Nat)
  | work (x : Meets)
  | restart

namespace IncidentsAction

def acts : IncidentsAction → List (Group.TrimAction Meets Message)
  | .publish m cut => [.act (.add m), .trim 2000 cut]
  | .synthetic m cut => [.act (.add m), .trim 500 cut]
  | .trimRedisStreams cut => [.trim 500 cut]
  | .work x => [.act (.work x)]
  | .restart => [.act .restart]

theorem le_of_trim {a : IncidentsAction} {maxLen cut : Nat} (h : .trim maxLen cut ∈ a.acts) : 500 ≤ maxLen := by
  cases a <;> simp [acts] at h <;> omega

theorem restart_of_mem {a : IncidentsAction} (h : .act .restart ∈ a.acts) : a = .restart := by
  cases a <;> simp [acts] at h ⊢

end IncidentsAction

section
variable (py : PyText) (cd : CameraAlertCooldown) (cs : ChannelSettings)

/-- The worker and the stream after `acts`. -/
def workerAfter (acts : List (Group.TrimAction Meets Message)) : Group.State Worker Message :=
  (Worker.run py cd cs.channels).trimAfter .init acts

/-- The entries turned over, in hand or still to be read. -/
def accountedFor (acts : List (Group.TrimAction Meets Message)) : List (Entry Message) :=
  Group.entries ((Worker.run py cd cs.channels).trimHandled .init acts) (workerAfter py cd cs acts)

/-- What becomes of the incidents of a run. -/
structure Kept (as : List IncidentsAction) : Prop where
  ordered : (accountedFor py cd cs (as.flatMap (·.acts))).Sublist
    (workerAfter py cd cs (as.flatMap (·.acts))).stream.all
  /-- Without a restart, an incident is missing just when a trim has removed it unread. -/
  missing : .restart ∉ as → ∀ e ∈ (workerAfter py cd cs (as.flatMap (·.acts))).stream.all,
    (e ∉ accountedFor py cd cs (as.flatMap (·.acts)) ↔ ∃ pre a post, as.flatMap (·.acts) = pre ++ a :: post ∧
      Group.Loses (Worker.run py cd cs.channels) .init e pre a)
  /-- Then there were at least 500 newer ones. -/
  late : ∀ pre a post e, as.flatMap (·.acts) = pre ++ a :: post →
    Group.Loses (Worker.run py cd cs.channels) .init e pre a →
    e ∈ (workerAfter py cd cs pre).stream.pending ∧ e.id + 500 < (workerAfter py cd cs pre).stream.entries.length
  /-- While no more than 500 are unread, the trims make no difference. -/
  free : (∀ pre post, as.flatMap (·.acts) = pre ++ post → (workerAfter py cd cs pre).stream.pending.length ≤ 500) →
    workerAfter py cd cs (as.flatMap (·.acts)) =
        (Worker.run py cd cs.channels).after .init ((as.flatMap (·.acts)).filterMap (·.act?)) ∧
      (Worker.run py cd cs.channels).trimHandled .init (as.flatMap (·.acts)) =
        (Worker.run py cd cs.channels).handled .init ((as.flatMap (·.acts)).filterMap (·.act?))

theorem incidents_kept (as : List IncidentsAction) : Kept py cd cs as := by
  have hlen {pre post : List (Group.TrimAction Meets Message)} {maxLen cut : Nat}
      (he : as.flatMap (·.acts) = pre ++ .trim maxLen cut :: post) : 500 ≤ maxLen := by
    obtain ⟨a, -, ha⟩ := List.mem_flatMap.1 (show .trim maxLen cut ∈ as.flatMap (·.acts) by rw [he]; simp)
    exact IncidentsAction.le_of_trim ha
  refine ⟨Group.trimHandled_sublist _ _ _, fun hno e he => ?_, fun pre a post e hsplit hlost => ?_, fun hup => ?_⟩
  · have hno' : .act .restart ∉ as.flatMap (·.acts) := by
      intro hmem
      obtain ⟨a, ha, hrestart⟩ := List.mem_flatMap.1 hmem
      exact hno (IncidentsAction.restart_of_mem hrestart ▸ ha)
    rw [accountedFor, workerAfter, Group.mem_entries_iff hno' he, not_not]
  · cases a with
    | act a => exact hlost.elim
    | trim maxLen cut =>
      have hle := hlen hsplit
      obtain ⟨hp, -, hnewer⟩ := hlost
      exact ⟨hp, by rw [workerAfter]; omega⟩
  · exact Group.trim_free fun pre maxLen cut post he => (hup pre _ he).trans (hlen he)

end

end Netra.Alerting
