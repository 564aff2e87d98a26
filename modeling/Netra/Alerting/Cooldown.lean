import Netra.Lib.Machine
import Netra.Lib.Numeric
import Netra.Lib.Dict
import Mathlib.Data.Int.Log
import Mathlib.Tactic.Linarith
/-!
# The alert rate limit of a camera

`CameraAlertCooldown.try_dispatch` (`backend/services/alerting/cooldown.py`): a
sorted set with one member per alert, and a Lua script that removes the members
older than the window, counts the rest and adds one. A member is the clock in 14
digits and a random number, so two alerts can have the same one, and the key
expires by the clock of the server. While neither happens (`EntryCounts`), the
set holds every alert of the window (`Kept`).
-/
namespace Netra

open PyLib

namespace Alerting

/-! ## The sorted set -/

/-- What the digits of `%.14g` stand for. -/
def fourteenDigits (x : ℚ) : ℚ :=
  let scale : ℚ := 10 ^ (13 - Int.log 10 |x|)
  roundHalfEven (x * scale) / scale

/-- `now .. '-' .. random` -/
structure Member where
  clock : ℚ
  random : Nat
deriving DecidableEq

/-- `netra:cooldown:window:{camera_id}`; without entries there is no key. -/
structure WindowKey where
  entries : Dict Member ℚ
  /-- in the server's milliseconds -/
  expireAt : Option Int

namespace WindowKey

def missing : WindowKey := ⟨.empty, none⟩

def expired (serverMs : Int) (k : WindowKey) : Bool := k.expireAt.any (· < serverMs)

/-- What a command finds at the server's time. -/
def lookup (serverMs : Int) (k : WindowKey) : WindowKey := if k.expired serverMs then missing else k

/-- `ZREMRANGEBYSCORE key lo hi` -/
def zremrangebyscore (lo hi : ℚ) (k : WindowKey) : WindowKey :=
  let kept := k.entries.filter fun _ score => !(decide (lo ≤ score) && decide (score ≤ hi))
  if kept.items.isEmpty then missing else { k with entries := kept }

/-- `ZCARD key` -/
def zcard (k : WindowKey) : Int := k.entries.items.length

/-- `ZADD key score member` -/
def zadd (score : ℚ) (m : Member) (k : WindowKey) : WindowKey := { k with entries := k.entries.set m score }

/-- `PEXPIRE key ms` -/
def pexpire (serverMs ms : Int) (k : WindowKey) : WindowKey :=
  if ms ≤ 0 then missing else { k with expireAt := some (serverMs + ms) }

def scores (k : WindowKey) : List ℚ := k.entries.items.map Prod.snd

end WindowKey

/-! ## `CameraAlertCooldown` -/

/-- Its `_window`, `_max` and `_burst`. -/
structure CameraAlertCooldown where
  window : Int
  max : Int
  burst : Int

/-- A call, in the order in which the script runs. -/
structure Call where
  burst : Bool
  /-- `time.time()` -/
  now : ℚ
  /-- the server's clock when the script runs -/
  serverMs : Int
  /-- `math.random(1000000)` -/
  random : Nat

def Call.member (c : Call) : Member := ⟨fourteenDigits c.now, c.random⟩

namespace CameraAlertCooldown

def limit (cd : CameraAlertCooldown) (burst : Bool) : Int := if burst then cd.burst else cd.max

variable (cd : CameraAlertCooldown)

/-- The key once the expired entries are removed. -/
def pruned (k : WindowKey) (c : Call) : WindowKey := (k.lookup c.serverMs).zremrangebyscore 0 (c.now - cd.window)

/-- `try_dispatch` -/
def tryDispatch (k : WindowKey) (c : Call) : WindowKey × Bool :=
  let k := cd.pruned k c
  if k.zcard < cd.limit c.burst then ((k.zadd c.now c.member).pexpire c.serverMs (cd.window * 1000), true)
  else (k, false)

/-- The key after the calls `calls`. -/
def keyAfter (calls : List Call) : WindowKey := Mealy.after cd.tryDispatch .missing calls

/-- The times of the calls that returned true. -/
def allowedTimes (calls : List Call) : List ℚ :=
  (calls.zip (Mealy.outs cd.tryDispatch .missing calls)).filterMap fun (c, allowed) =>
    if allowed then some c.now else none

/-- A call that is allowed finds fewer than its limit allowed within the window. -/
def RateLimited (calls : List Call) : Prop :=
  ∀ pre c post, calls = pre ++ c :: post → (cd.tryDispatch (cd.keyAfter pre) c).2 = true →
    (((cd.allowedTimes pre).filter fun t => c.now - cd.window < t ∧ t ≤ c.now).length : Int) ≤ cd.limit c.burst - 1

/-- A call that finds room adds a member of its own, and the key has not expired
under an entry of the window. -/
def EntryCounts (k : WindowKey) (c : Call) : Prop :=
  ((cd.pruned k c).zcard < cd.limit c.burst → (cd.pruned k c).entries.get? c.member = none) ∧
    (k.expired c.serverMs = true → ∀ score ∈ k.scores, score ≤ c.now - cd.window)

instance (k : WindowKey) (c : Call) : Decidable (cd.EntryCounts k c) := inferInstanceAs (Decidable (_ ∧ _))

/-! ## The scores of the key -/

theorem scores_zremrangebyscore (lo hi : ℚ) (k : WindowKey) :
    (k.zremrangebyscore lo hi).scores = k.scores.filter fun s => !(decide (lo ≤ s) && decide (s ≤ hi)) := by
  have hkept : (k.entries.filter fun _ s => !(decide (lo ≤ s) && decide (s ≤ hi))).items.map Prod.snd =
      k.scores.filter fun s => !(decide (lo ≤ s) && decide (s ≤ hi)) := by
    rw [WindowKey.scores, List.filter_map]
    rfl
  unfold WindowKey.zremrangebyscore
  dsimp only
  split
  · rename_i hempty
    rw [← hkept, List.isEmpty_iff.1 hempty]
    rfl
  · exact hkept

/-- An entry of the window is still there when the script counts. -/
theorem sublist_pruned {k : WindowKey} {c : Call} (hcount : cd.EntryCounts k c) :
    (k.scores.filter (c.now - cd.window < ·)).Sublist (cd.pruned k c).scores := by
  rw [pruned, scores_zremrangebyscore, WindowKey.lookup]
  split
  · rename_i hexpired
    have hold := hcount.2 hexpired
    rw [List.filter_eq_nil_iff.2 fun s hs => by simpa using hold s hs]
    exact List.nil_sublist _
  · apply List.monotone_filter_right
    intro s hs
    rw [decide_eq_true_eq] at hs
    simp [not_le.2 hs]

theorem scores_zadd {k : WindowKey} {m : Member} (score : ℚ) (hfresh : k.entries.get? m = none) :
    (k.zadd score m).scores = k.scores ++ [score] := by
  rw [WindowKey.scores, WindowKey.zadd, Dict.items_set_of_fresh _ score hfresh, List.map_append]
  rfl

/-! ## The times of the calls allowed -/

theorem keyAfter_concat (calls : List Call) (c : Call) :
    cd.keyAfter (calls ++ [c]) = (cd.tryDispatch (cd.keyAfter calls) c).1 := Mealy.after_concat ..

theorem allowedTimes_concat (calls : List Call) (c : Call) :
    cd.allowedTimes (calls ++ [c]) =
      cd.allowedTimes calls ++ if (cd.tryDispatch (cd.keyAfter calls) c).2 then [c.now] else [] := by
  rw [allowedTimes, Mealy.outs_append, List.zip_append (Mealy.length_outs ..).symm, List.filterMap_append]
  rw [Mealy.outs_cons, Mealy.outs_nil, List.zip_cons_cons, List.zip_nil_left, ← keyAfter, ← allowedTimes]
  split <;> simp [*]

theorem mem_allowedTimes {calls : List Call} {t : ℚ} (ht : t ∈ cd.allowedTimes calls) : ∃ c ∈ calls, c.now = t := by
  obtain ⟨⟨c, allowed⟩, hmem, hc⟩ := List.mem_filterMap.1 ht
  refine ⟨c, (List.of_mem_zip hmem).1, ?_⟩
  dsimp only at hc
  split at hc
  · exact Option.some.inj hc
  · cases hc

/-- The key holds every alert that is in the window of a later reading. -/
def Kept (calls : List Call) (k : WindowKey) : Prop :=
  ∀ t, (∀ c ∈ calls, c.now ≤ t) → ((cd.allowedTimes calls).filter (t - cd.window < ·)).Sublist k.scores

variable {cd}

theorem Kept.pruned {calls : List Call} {k : WindowKey} {c : Call} (h : cd.Kept calls k) (hcount : cd.EntryCounts k c)
    (hlate : ∀ c' ∈ calls, c'.now ≤ c.now) {t : ℚ} (ht : c.now ≤ t) :
    ((cd.allowedTimes calls).filter (t - cd.window < ·)).Sublist (cd.pruned k c).scores := by
  have hkept := (h c.now hlate).filter (c.now - cd.window < ·)
  rw [List.filter_filter] at hkept
  simp only [Bool.and_self] at hkept
  refine .trans ?_ (hkept.trans (cd.sublist_pruned hcount))
  apply List.monotone_filter_right
  intro s hs
  rw [decide_eq_true_eq] at hs ⊢
  linarith

/-- A window of no length holds no alert. -/
theorem filter_eq_nil_of_window {times : List ℚ} {t : ℚ} (hwindow : cd.window ≤ 0) (htimes : ∀ s ∈ times, s ≤ t) :
    times.filter (t - cd.window < ·) = [] := by
  have hcast : (cd.window : ℚ) ≤ 0 := by exact_mod_cast hwindow
  rw [List.filter_eq_nil_iff]
  intro s hs
  rw [decide_eq_true_eq]
  linarith [htimes s hs]

theorem kept_concat {calls : List Call} {c : Call} (h : cd.Kept calls (cd.keyAfter calls))
    (hcount : cd.EntryCounts (cd.keyAfter calls) c) (hlate : ∀ c' ∈ calls, c'.now ≤ c.now) :
    cd.Kept (calls ++ [c]) (cd.keyAfter (calls ++ [c])) := by
  intro t ht
  have hc : c.now ≤ t := ht c (by simp)
  have hpruned := h.pruned hcount hlate hc
  by_cases hwindow : cd.window ≤ 0
  · rw [filter_eq_nil_of_window hwindow fun s hs => ?_]
    · exact List.nil_sublist _
    · obtain ⟨c', hc', rfl⟩ := cd.mem_allowedTimes hs
      exact ht c' hc'
  · rw [keyAfter_concat, allowedTimes_concat]
    unfold tryDispatch
    dsimp only
    split
    · rename_i hroom
      have hlives : ¬ cd.window * 1000 ≤ 0 := by omega
      have hadd := scores_zadd c.now (hcount.1 hroom)
      rw [WindowKey.pexpire, if_neg hlives, if_pos rfl, List.filter_append]
      rw [WindowKey.scores] at hadd ⊢
      rw [hadd]
      exact hpruned.append List.filter_sublist
    · simpa using hpruned

theorem kept_keyAfter {calls : List Call} (hclock : calls.Pairwise (·.now ≤ ·.now))
    (hcount : Mealy.Always cd.tryDispatch cd.EntryCounts .missing calls) : cd.Kept calls (cd.keyAfter calls) := by
  induction calls using List.reverseRecOn with
  | nil => exact fun _ _ => List.nil_sublist _
  | append_singleton calls c ih =>
    rw [List.pairwise_append] at hclock
    rw [Mealy.always_append] at hcount
    exact kept_concat (ih hclock.1 hcount.1) hcount.2.1 fun c' hc' => hclock.2.2 c' hc' c (List.mem_singleton_self c)

/-- When each call that finds room adds a member of its own, and the key never
expires under an entry of the window, the limit holds in every window. -/
theorem rate_limit_holds (cd : CameraAlertCooldown) (calls : List Call) (hclock : calls.Pairwise (·.now ≤ ·.now))
    (hcount : Mealy.Always cd.tryDispatch cd.EntryCounts .missing calls) : cd.RateLimited calls := by
  rintro pre c post rfl hallowed
  rw [List.pairwise_append] at hclock
  rw [Mealy.always_append] at hcount
  have hlate : ∀ c' ∈ pre, c'.now ≤ c.now := fun c' hc' => hclock.2.2 c' hc' c List.mem_cons_self
  have hsub := (kept_keyAfter hclock.1 hcount.1).pruned hcount.2.1 hlate (le_refl c.now)
  have hroom : (cd.pruned (cd.keyAfter pre) c).zcard < cd.limit c.burst := by
    unfold tryDispatch at hallowed
    dsimp only at hallowed
    split at hallowed
    · assumption
    · cases hallowed
  have hwithin : ((cd.allowedTimes pre).filter fun t => c.now - cd.window < t ∧ t ≤ c.now).length ≤
      ((cd.allowedTimes pre).filter (c.now - cd.window < ·)).length := by
    refine (List.monotone_filter_right _ fun t ht => ?_).length_le
    simpa using (of_decide_eq_true ht).1
  have hcard : (cd.pruned (cd.keyAfter pre) c).scores.length = (cd.pruned (cd.keyAfter pre) c).zcard := by
    simp [WindowKey.scores, WindowKey.zcard]
  have hlen := hsub.length_le
  omega

/-- The limits of the settings: one alert in 60 s, two when it is critical. -/
def ofSettings : CameraAlertCooldown := ⟨60, 1, 2⟩

/-- Two critical alerts in one second, a third one, and one after a minute. -/
def quietMinute : List Call := [
  ⟨true, 1700000000, 1700000000001, 7⟩, ⟨true, 1700000000.5, 1700000000501, 7⟩, ⟨true, 1700000001, 1700000001001, 7⟩,
  ⟨false, 1700000061, 1700000061001, 7⟩]

theorem rate_limit_holds_quietMinute : ofSettings.RateLimited quietMinute :=
  rate_limit_holds ofSettings quietMinute (by decide +kernel) (by decide +kernel)

/-- Three critical alerts within a ten-thousandth of a second, with one random number. -/
def flood : List Call := [
  ⟨true, 1700000000, 1700000000001, 7⟩, ⟨true, 1700000000 + 1 / 65536, 1700000000001, 7⟩,
  ⟨true, 1700000000 + 1 / 32768, 1700000000001, 7⟩]

/-- All three are allowed: the second one writes the member of the first again. -/
theorem rate_limit_fails :
    ¬ ∀ (cd : CameraAlertCooldown) (calls : List Call), calls.Pairwise (·.now ≤ ·.now) → cd.RateLimited calls := by
  intro hall
  have hlimited := hall ofSettings flood (by decide +kernel) (flood.take 2) (flood[2]) [] rfl (by decide +kernel)
  revert hlimited
  decide +kernel

end CameraAlertCooldown

end Alerting

end Netra
