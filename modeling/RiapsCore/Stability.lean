/-
What `isStable` of the tracker means.

`check_state` returns true when there is a node and all nodes are stable, and the
result is kept in `isStable`.  The flag is computed again when a node is added or
marked; a refresh that drops nodes computes it only while it is false, so that it
stays true when the last node is dropped:

* `checkState_fst` — the test;
* `handleInput_flag`, `refresh_flag` — what an input and a refresh do to the flag;
* `stability_flag_iff` — the flag means what it says iff no refresh empties the
  list of a stable tracker.
-/
import RiapsCore.DhtTracker
import RiapsCore.Runs

open Runs

namespace Riaps

/-- There is a node, and all nodes are stable. -/
def AllStable (nodeList : NodeList) : Prop :=
  (∃ ip, ip ∈ nodeList) ∧ ∀ ip node, nodeList.lookup ip = some node → node.stable = true

/-- **The test of `check_state`.** -/
theorem checkState_fst (nodeList : NodeList) :
    (checkState nodeList).1 = true ↔ AllStable nodeList := by
  have hall : (nodeList.entries.countP fun e => !e.2.stable) = 0 ↔
      ∀ ip node, nodeList.lookup ip = some node → node.stable = true := by
    rw [List.countP_eq_zero]
    constructor
    · intro h ip node hnode
      simpa using h _ (AList.mem_lookup_iff.mp hnode)
    · rintro h ⟨ip, node⟩ he
      simp [h ip node (AList.mem_lookup_iff.mpr he)]
  have htest : (checkState nodeList).1 = true ↔
      (nodeList.entries.countP fun e => !e.2.stable) = 0 ∧
        0 < nodeList.entries.countP fun e => e.2.stable := by
    rw [checkState]
    split
    · rename_i hyes
      exact ⟨fun _ => hyes, fun _ => rfl⟩
    · rename_i hno
      exact ⟨nofun, fun h => absurd h hno⟩
  rw [htest, hall, AllStable, and_comm, List.countP_pos_iff]
  refine and_congr_left fun hstable => ?_
  constructor
  · rintro ⟨⟨ip, node⟩, he, -⟩
    exact ⟨ip, Table.mem_iff_lookup.mpr ⟨node, AList.mem_lookup_iff.mpr he⟩⟩
  · rintro ⟨ip, hip⟩
    obtain ⟨node, hnode⟩ := Table.mem_iff_lookup.mp hip
    exact ⟨⟨ip, node⟩, AList.mem_lookup_iff.mp hnode, hstable ip node hnode⟩

namespace DhtTracker

variable {t t' : DhtTracker} {now : ℤ} {l : TrackerLabel}

/-- The flag is true iff there is a node and all nodes are stable. -/
def FlagExact (t : DhtTracker) : Prop := t.isStable = true ↔ AllStable t.nodeList

/-- A refresh is due that drops the last node of a stable list: every node has
timed out, and each is stable or is marked by what has arrived. -/
def EmptiesStable (t : DhtTracker) (l : TrackerLabel) : Prop :=
  t.lastRefresh.isTimeout l.now ∧ (∃ ip, ip ∈ t.nodeList) ∧
    (∀ ip, l.input = .beaconIp ip → ip ∈ t.nodeList) ∧
    ∀ ip node, t.nodeList.lookup ip = some node →
      node.timeout.isTimeout l.now ∧ (node.stable = true ∨ l.input = .dhtIp ip)

theorem recheck_flag (t : DhtTracker) (nodeList : NodeList) :
    FlagExact (t.recheck nodeList).1 :=
  checkState_fst nodeList

theorem handleInput_flag (h : FlagExact t) (input : TrackerInput) :
    FlagExact (t.handleInput now input).1 := by
  cases input with
  | beaconIp ip =>
    rw [handleInput]
    split
    · exact h
    · exact recheck_flag t _
  | dhtIp ip =>
    rw [handleInput]
    split
    · exact h
    · split
      · exact h
      · exact recheck_flag t _
  | _ => exact h

/-- What a refresh leaves of a stable list is stable iff it leaves a node. -/
theorem allStable_refresh_iff (hdue : t.lastRefresh.isTimeout now)
    (hstable : AllStable t.nodeList) :
    AllStable (t.refresh now).1.nodeList ↔
      ∃ ip node, t.nodeList.lookup ip = some node ∧ ¬ node.timeout.isTimeout now := by
  constructor
  · rintro ⟨⟨ip, hip⟩, -⟩
    obtain ⟨node, hnode⟩ := Table.mem_iff_lookup.mp hip
    obtain ⟨hnode, hkept⟩ := lookup_refresh.mp hnode
    exact ⟨ip, node, hnode, hkept hdue⟩
  · rintro ⟨ip, node, hnode, hkept⟩
    have hpost := lookup_refresh.mpr ⟨hnode, fun _ => hkept⟩
    refine ⟨⟨ip, Table.mem_iff_lookup.mpr ⟨node, hpost⟩⟩, fun ip' node' hnode' => ?_⟩
    exact hstable.2 ip' node' (lookup_refresh.mp hnode').1

/-- A refresh keeps the flag exact unless it drops all nodes of a stable list. -/
theorem refresh_flag (h : FlagExact t) :
    FlagExact (t.refresh now).1 ↔
      ¬ (t.lastRefresh.isTimeout now ∧ AllStable t.nodeList ∧
        ∀ ip node, t.nodeList.lookup ip = some node → node.timeout.isTimeout now) := by
  by_cases hdue : t.lastRefresh.isTimeout now
  · rcases hflag : t.isStable with _ | _
    · -- the flag is computed again
      have hexact : FlagExact (t.refresh now).1 := by
        rw [refresh, if_neg (not_not_intro hdue)]
        simp only [hflag]
        exact checkState_fst _
      have hstable : ¬ AllStable t.nodeList := by
        intro hall
        rw [h.mpr hall] at hflag
        cases hflag
      simp [hexact, hstable]
    · -- the flag stays true, and what is left is stable
      have hstable : AllStable t.nodeList := h.mp hflag
      have hpost : (t.refresh now).1.isStable = true := by
        rw [refresh, if_neg (not_not_intro hdue)]
        simp only [hflag]
        rfl
      rw [FlagExact, hpost, allStable_refresh_iff hdue hstable]
      simp [hdue, hstable]
  · have hsame : (t.refresh now).1 = t := by rw [refresh, if_pos hdue]
    rw [hsame]
    simp [h, hdue]

/-- The condition, in terms of the list that the refresh starts from. -/
theorem emptiesStable_iff :
    EmptiesStable t l ↔
      t.lastRefresh.isTimeout l.now ∧ AllStable (t.handleInput l.now l.input).1.nodeList ∧
        ∀ ip node, (t.handleInput l.now l.input).1.nodeList.lookup ip = some node →
          node.timeout.isTimeout l.now := by
  refine and_congr_right fun _ => ?_
  simp only [AllStable, Table.mem_iff_lookup, lookup_handleInput]
  have hafter : ∀ ip old, t.nodeList.lookup ip = some old →
      entryAfter l.now l.input ip (t.nodeList.lookup ip)
        = some { old with stable := old.stable || l.input = .dhtIp ip } :=
    fun _ old hold => entryAfter_eq_some_iff.mpr (.inr ⟨old, hold, rfl⟩)
  constructor
  · rintro ⟨⟨ip, node, hnode⟩, hbeacon, hall⟩
    have hentry : ∀ ip node', entryAfter l.now l.input ip (t.nodeList.lookup ip) = some node' →
        node'.stable = true ∧ node'.timeout.isTimeout l.now := by
      intro ip node' hnode'
      rcases entryAfter_eq_some_iff.mp hnode' with ⟨hnone, hinput, -⟩ | ⟨old, hold, rfl⟩
      · obtain ⟨old, hold⟩ := hbeacon ip hinput
        cases hnone.symm.trans hold
      · obtain ⟨hexp, hstable⟩ := hall ip old hold
        exact ⟨by simpa using hstable, hexp⟩
    exact ⟨⟨⟨ip, _, hafter ip node hnode⟩, fun ip node h => (hentry ip node h).1⟩,
      fun ip node h => (hentry ip node h).2⟩
  · rintro ⟨⟨⟨ip, node, hnode⟩, hstable⟩, hexp⟩
    have hbeacon : ∀ ip, l.input = .beaconIp ip → ∃ node, t.nodeList.lookup ip = some node := by
      intro ip hinput
      rcases hold : t.nodeList.lookup ip with _ | old
      · -- a new node is not stable
        have hnew := hstable ip _ (entryAfter_eq_some_iff.mpr (.inl ⟨hold, hinput, rfl⟩))
        cases hnew
      · exact ⟨old, rfl⟩
    refine ⟨?_, hbeacon, fun ip old hold => ?_⟩
    · rcases entryAfter_eq_some_iff.mp hnode with ⟨-, hinput, -⟩ | ⟨old, hold, -⟩
      · exact ⟨ip, hbeacon ip hinput⟩
      · exact ⟨ip, old, hold⟩
    · have hexp' := hexp ip _ (hafter ip old hold)
      exact ⟨hexp', by simpa using hstable ip _ (hafter ip old hold)⟩

/-- **When the stability flag means what it says.**  In a run of the tracker, the
flag is true after each iteration iff there is a node and all nodes are stable,
iff no iteration drops all nodes of a stable list. -/
theorem stability_flag_iff {start : ℤ} {tr : List (Transition DhtTracker TrackerLabel)}
    {s : DhtTracker} (h : Run next (init start) tr s) :
    (∀ t ∈ tr, FlagExact t.post) ↔ ∀ t ∈ tr, ¬ EmptiesStable t.pre t.label := by
  refine h.invariant_iff FlagExact (fun s l => ¬ EmptiesStable s l) ?_ ?_
  · exact ⟨nofun, fun hs => by simpa [init] using hs.1⟩
  · intro s l s' hI hs
    rw [next_eq hs, refresh_flag (handleInput_flag hI l.input), handleInput_lastRefresh,
      emptiesStable_iff]

/-- Of two stable nodes one is dropped. -/
theorem stability_flag_one_dropped :
    ∃ tr s, Run next (init 0) tr s ∧ s.isStable = true ∧ s.nodeList.keys = ["10.0.0.3"] ∧
      ∀ t ∈ tr, FlagExact t.post := by
  obtain ⟨tr, s, hrun, hstable, hkeys, hkept⟩ := exists_run_of_replay next (init 0)
    (fun tr s => s.isStable = true ∧ s.nodeList.keys = ["10.0.0.3"] ∧
      ∀ t ∈ tr, t.pre.lastRefresh.isTimeout t.label.now →
        ∃ e ∈ t.pre.nodeList.entries, ¬ e.2.timeout.isTimeout t.label.now)
    [⟨0, .beaconIp "10.0.0.2"⟩, ⟨seconds, .dhtIp "10.0.0.2"⟩, ⟨5 * minutes, .beaconIp "10.0.0.3"⟩,
      ⟨6 * minutes, .dhtIp "10.0.0.3"⟩, ⟨11 * minutes, .timeout⟩] (by decide)
  refine ⟨tr, s, hrun, hstable, hkeys, (stability_flag_iff hrun).mpr fun t ht hempties => ?_⟩
  obtain ⟨hdue, -, -, hall⟩ := hempties
  obtain ⟨⟨ip, node⟩, he, hlive⟩ := hkept t ht hdue
  exact hlive (hall ip node (AList.mem_lookup_iff.mpr he)).1

/-- All nodes have gone, and the tracker still answers that the hash table is
stable. -/
theorem stability_flag_on_empty_list :
    ∃ tr s, Run next (init 0) tr s ∧ ClockFrom TrackerLabel.now 0 tr ∧
      s.isStable = true ∧ s.nodeList.keys = [] ∧ ¬ FlagExact s := by
  obtain ⟨tr, s, hrun, hclock, hstable, hempty⟩ := exists_run_of_replay next (init 0)
    (fun tr s => ClockFrom TrackerLabel.now 0 tr ∧ s.isStable = true ∧ s.nodeList.keys = [])
    [⟨0, .beaconIp "10.0.0.2"⟩, ⟨seconds, .dhtIp "10.0.0.2"⟩, ⟨11 * minutes, .timeout⟩] (by decide)
  refine ⟨tr, s, hrun, hclock, hstable, hempty, fun hexact => ?_⟩
  obtain ⟨⟨ip, hip⟩, -⟩ := hexact.mp hstable
  rw [AList.mem_keys, hempty] at hip
  cases hip

end DhtTracker

end Riaps
