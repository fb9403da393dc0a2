/-
When the validator drops expired entries.

`DeleteOldNodes()` scans the entries when `last_delete_` has timed out, and
restarts `last_delete_` whether it has scanned them or not.  So the minute is
counted from the last call of `IsValid` that got there, not from the last scan,
and with a call in every minute there is never a scan:

* `Counts.step` — from when `last_delete_` counts;
* `purgesExpired_iff` — what a call purges;
* `expired_purged_iff` — the entries that have expired are gone, at each call that
  is due, iff the call before it was more than a minute ago or there are none.
-/
import RiapsCore.Validation

open Runs StdString

namespace Riaps

namespace DiscoveryValidator

variable {env : ValidatorEnv} {v v' s : DiscoveryValidator} {now start : ℤ} {draw : ℕ}
  {endpoint a b : String} {period : CheckPeriod}
  {past tr : List (Transition DiscoveryValidator Timed)} {t : Transition DiscoveryValidator Timed}

/-- The address that a call checks. -/
def Call.checked : Call → Option String
  | .isValid nodeAddress _ => some nodeAddress
  | .replyAll _ => none

/-- The call gets to `DeleteOldNodes()`. -/
def reachesDelete (env : ValidatorEnv) (l : Timed) : Bool :=
  l.call.checked.any fun a => isValidZmqAddress env.inetPton a = .ok true

/-- The call scans the entries. -/
def scans (env : ValidatorEnv) (v : DiscoveryValidator) (l : Timed) : Bool :=
  reachesDelete env l && v.lastDelete.isTimeout l.now

/-- The time of the last transition that passes the test, or the start. -/
def lastTime (p : Transition DiscoveryValidator Timed → Bool) (start : ℤ)
    (past : List (Transition DiscoveryValidator Timed)) : ℤ :=
  ((past.filter p).map fun t => t.label.now).getLastD start

/-- The last scan, or `InitWithSecurity`. -/
def lastPurge (env : ValidatorEnv) (start : ℤ)
    (past : List (Transition DiscoveryValidator Timed)) : ℤ :=
  lastTime (fun t => scans env t.pre t.label) start past

/-- The last call that got to `DeleteOldNodes()`, or `InitWithSecurity`. -/
def lastReached (env : ValidatorEnv) (start : ℤ)
    (past : List (Transition DiscoveryValidator Timed)) : ℤ :=
  lastTime (fun t => reachesDelete env t.label) start past

/-- A call more than a minute after the last scan leaves no expired entry of
another address. -/
def PurgesExpired (env : ValidatorEnv) (start : ℤ)
    (past : List (Transition DiscoveryValidator Timed)) (t : Transition DiscoveryValidator Timed) :
    Prop :=
  ∀ a ∈ t.label.call.checked, t.label.now - lastPurge env start past > minutes →
    ∀ b node, t.pre.clusterNodes.lookup b = some node →
      node.checkPeriod.isTimeout t.label.now → b ≠ a → b ∉ t.post.clusterNodes

/-- A call more than a minute after the last scan gets to `DeleteOldNodes()`, and
the last that did was more than a minute ago, or nothing else has expired. -/
def ScansOrClean (env : ValidatorEnv) (start : ℤ)
    (past : List (Transition DiscoveryValidator Timed)) (t : Transition DiscoveryValidator Timed) :
    Prop :=
  ∀ a ∈ t.label.call.checked, t.label.now - lastPurge env start past > minutes →
    reachesDelete env t.label = true ∧ t.label.now - lastReached env start past > minutes ∨
      ∀ e ∈ t.pre.clusterNodes.entries, e.1 ≠ a → ¬ e.2.checkPeriod.isTimeout t.label.now

instance : Decidable (ScansOrClean env start past t) :=
  inferInstanceAs (Decidable (∀ a ∈ t.label.call.checked, _ → _ ∨ _))

/-! ### The timer -/

theorem lastTime_snoc (p : Transition DiscoveryValidator Timed → Bool) (start : ℤ)
    (past : List (Transition DiscoveryValidator Timed)) (t : Transition DiscoveryValidator Timed) :
    lastTime p start (past ++ [t]) = if p t then t.label.now else lastTime p start past := by
  rw [lastTime, List.filter_append]
  by_cases hp : p t = true
  · simp [hp]
  · simp [hp, lastTime]

/-- A call of `IsValid` with security on. -/
theorem next_isValid (hsec : v.hasSecurity = true)
    (h : next env v ⟨now, .isValid a period⟩ = some v') :
    reachesDelete env ⟨now, .isValid a period⟩ = true ∧
        v' = (v.checkNode now period a).validator ∨
      reachesDelete env ⟨now, .isValid a period⟩ = false ∧ v' = v := by
  rw [next] at h
  dsimp only at h
  rw [isValid, if_neg (by simp [hsec])] at h
  rcases hvalid : isValidZmqAddress env.inetPton a with e | _ | _
  · rw [hvalid] at h
    cases h
  · rw [hvalid] at h
    refine .inr ⟨?_, (Option.some_inj.mp h).symm⟩
    simp [reachesDelete, Call.checked, hvalid]
  · rw [hvalid] at h
    refine .inl ⟨?_, (Option.some_inj.mp h).symm⟩
    simp [reachesDelete, Call.checked, hvalid]

/-- The invariant: security is on, and the timer counts a minute from the last
call that got to it. -/
structure Counts (env : ValidatorEnv) (start : ℤ)
    (past : List (Transition DiscoveryValidator Timed)) (v : DiscoveryValidator) : Prop where
  hasSecurity : v.hasSecurity = true
  timeout : v.lastDelete.timeout = 1
  endPoint : v.lastDelete.endPoint = lastReached env start past + minutes

theorem Counts.isTimeout_iff (h : Counts env start past v) :
    v.lastDelete.isTimeout now ↔ now - lastReached env start past > minutes := by
  rw [Timeout.isTimeout_iff, h.endPoint]
  omega

theorem Counts.step (h : Counts env start past t.pre) (hs : next env t.pre t.label = some t.post) :
    Counts env start (past ++ [t]) t.post := by
  have hlast : lastReached env start (past ++ [t])
      = if reachesDelete env t.label then t.label.now else lastReached env start past :=
    lastTime_snoc _ start past t
  rcases t with ⟨pre, ⟨now, call⟩, post⟩
  dsimp only at h hs hlast
  cases call with
  | isValid a period =>
    rcases next_isValid h.hasSecurity hs with ⟨hreach, rfl⟩ | ⟨hreach, rfl⟩
    · refine ⟨h.hasSecurity, h.timeout, ?_⟩
      rw [hlast, if_pos hreach]
      show now + pre.lastDelete.timeout * minutes = now + minutes
      rw [h.timeout, Int.one_mul]
    · refine ⟨h.hasSecurity, h.timeout, ?_⟩
      rw [hlast, hreach]
      exact h.endPoint
  | replyAll arrived =>
    obtain rfl := Option.some_inj.mp hs
    have htimer := replyAll_lastDelete env pre arrived
    refine ⟨(replyAll_hasSecurity env pre arrived).trans h.hasSecurity, ?_, ?_⟩
    · rw [htimer, h.timeout]
    · rw [htimer, hlast]
      exact h.endPoint

/-! ### One call -/

/-- **One call**: it purges what it should iff it scans the entries or there is
nothing to purge. -/
theorem purgesExpired_iff (h : Counts env start past t.pre)
    (hs : next env t.pre t.label = some t.post) :
    PurgesExpired env start past t ↔ ScansOrClean env start past t := by
  rcases t with ⟨pre, ⟨now, call⟩, post⟩
  dsimp only at h hs
  refine forall₂_congr fun a ha => imp_congr_right fun _ => ?_
  obtain ⟨period, rfl⟩ : ∃ period, call = .isValid a period := by
    cases call with
    | isValid a' period =>
      obtain rfl := Option.some_inj.mp ha
      exact ⟨period, rfl⟩
    | replyAll arrived => cases ha
  dsimp only
  rw [← h.isTimeout_iff]
  rcases next_isValid h.hasSecurity hs with ⟨hreach, rfl⟩ | ⟨hreach, rfl⟩
  · constructor
    · intro hgone
      by_cases hscan : pre.lastDelete.isTimeout now
      · exact .inl ⟨hreach, hscan⟩
      · refine .inr fun ⟨b, node⟩ he hne hexp => ?_
        have hnode : pre.clusterNodes.lookup b = some node := AList.mem_lookup_iff.mpr he
        refine hgone b node hnode hexp hne (Table.mem_iff_lookup.mpr ⟨node, ?_⟩)
        rw [lookup_checkNode_of_ne pre now period hne, lookup_deleteOldNodes_iff]
        exact ⟨hnode, fun h => absurd h hscan⟩
    · rintro (⟨-, hscan⟩ | hclean) b node hnode hexp hne hmem
      · obtain ⟨node', hnode'⟩ := Table.mem_iff_lookup.mp hmem
        rw [lookup_checkNode_of_ne pre now period hne, lookup_deleteOldNodes_iff] at hnode'
        obtain rfl := Option.some_inj.mp (hnode.symm.trans hnode'.1)
        exact hnode'.2 hscan hexp
      · exact hclean ⟨b, node⟩ (AList.mem_lookup_iff.mp hnode) hne hexp
  · constructor
    · intro hgone
      refine .inr fun ⟨b, node⟩ he hne hexp => ?_
      have hnode : post.clusterNodes.lookup b = some node := AList.mem_lookup_iff.mpr he
      exact hgone b node hnode hexp hne (Table.mem_iff_lookup.mpr ⟨node, hnode⟩)
    · rintro (⟨hscan, -⟩ | hclean) b node hnode hexp hne hmem
      · rw [hreach] at hscan
        cases hscan
      · exact hclean ⟨b, node⟩ (AList.mem_lookup_iff.mp hnode) hne hexp

/-- **When expired entries are purged.**  In a run of a validator with security,
each call more than a minute after the last scan leaves no expired entry of
another address, iff at each of these calls the last one that got to
`DeleteOldNodes()` was more than a minute ago, or nothing else has expired. -/
theorem expired_purged_iff (h : Run (next env) (initWithSecurity env start draw endpoint) tr s) :
    Along (PurgesExpired env start) tr ↔ Along (ScansOrClean env start) tr := by
  refine h.along_iff (Counts env start) ?_ ?_ ?_ (along_of_forall fun _ _ => trivial)
  · exact ⟨rfl, rfl, by simp [initWithSecurity, lastReached, lastTime]⟩
  · intro past t hI _ hs
    exact purgesExpired_iff hI hs
  · intro past t hI _ hs _
    exact hI.step hs

/-- The calls for one address are two minutes apart. -/
theorem expired_purged_after_pause :
    ∃ tr s, Run (next toyEnv) (initWithSecurity toyEnv 1 0 "tcp://10.0.0.1:5000") tr s ∧
      s.clusterNodes.keys = ["tcp://10.0.0.2:5001"] ∧ Along (PurgesExpired toyEnv 1) tr := by
  obtain ⟨tr, s, hrun, hkeys, hscans⟩ :=
    exists_run_of_replay (next toyEnv) (initWithSecurity toyEnv 1 0 "tcp://10.0.0.1:5000")
      (fun tr s => s.clusterNodes.keys = ["tcp://10.0.0.2:5001"] ∧ Along (ScansOrClean toyEnv 1) tr)
      [⟨seconds, .isValid otherNode shortPeriod⟩,
        ⟨2 * minutes, .isValid "tcp://10.0.0.2:5001" shortPeriod⟩] (by decide)
  exact ⟨tr, s, hrun, hkeys, (expired_purged_iff hrun).mpr hscans⟩

/-- With a call every forty seconds there is no scan, and an expired entry
stays. -/
theorem expired_entry_stays :
    ∃ tr t, Run (next toyEnv) (initWithSecurity toyEnv 1 0 "tcp://10.0.0.1:5000") (tr ++ [t])
        t.post ∧ ClockFrom Timed.now 1 (tr ++ [t]) ∧
      t.label.now - lastPurge toyEnv 1 tr > minutes ∧ otherNode ∈ t.post.clusterNodes ∧
      ¬ PurgesExpired toyEnv 1 tr t := by
  obtain ⟨tr, t, hrun, hclock, hdue, hstays, hchecked, ⟨e, he, hother, hexp⟩⟩ :=
    exists_run_snoc_of_replay (next toyEnv) (initWithSecurity toyEnv 1 0 "tcp://10.0.0.1:5000")
      (fun tr t => ClockFrom Timed.now 1 (tr ++ [t]) ∧
        t.label.now - lastPurge toyEnv 1 tr > minutes ∧ otherNode ∈ t.post.clusterNodes ∧
        t.label.call.checked = some "tcp://10.0.0.2:5001" ∧
        ∃ e ∈ t.pre.clusterNodes.entries,
          e.1 = otherNode ∧ e.2.checkPeriod.isTimeout t.label.now)
      [⟨seconds, .isValid otherNode shortPeriod⟩,
        ⟨40 * seconds, .isValid "tcp://10.0.0.2:5001" shortPeriod⟩]
      ⟨80 * seconds, .isValid "tcp://10.0.0.2:5001" shortPeriod⟩ (by decide)
  refine ⟨tr, t, hrun, hclock, hdue, hstays, fun hpurges => ?_⟩
  have hnode : t.pre.clusterNodes.lookup e.1 = some e.2 := AList.mem_lookup_iff.mpr he
  have hgone := hpurges _ hchecked hdue e.1 e.2 hnode hexp (by rw [hother]; decide)
  rw [hother] at hgone
  exact hgone hstays

end DiscoveryValidator

end Riaps
