/-
The nodes that the tracker keeps.

The first beacon of a node starts a timeout of ten minutes, and a later one does
not start it again.  A node that goes on beaconing is dropped by the first
refresh after these ten minutes, and its mark with it:

* `lookup_post` — an entry that an iteration does not drop;
* `Tracks.step` — a refresh that drops no beaconing node keeps all of them;
* `beaconing_tracked_iff` — all beaconing nodes are tracked, and stay marked, iff
  no refresh drops one.
-/
import RiapsCore.DhtTracker
import RiapsCore.Runs

open Runs

namespace Riaps

namespace DhtTracker

variable {s : DhtTracker} {ip : String} {now start : ℤ}
  {past tr : List (Transition DhtTracker TrackerLabel)} {t : Transition DhtTracker TrackerLabel}

/-- A beacon of the address was handled less than ten minutes before `now`. -/
def RecentBeacon (ip : String) (past : List (Transition DhtTracker TrackerLabel)) (now : ℤ) :
    Prop :=
  ∃ u ∈ past, u.label.input = .beaconIp ip ∧ now - u.label.now < 10 * minutes

instance : Decidable (RecentBeacon ip past now) :=
  inferInstanceAs (Decidable (∃ u ∈ past, _ ∧ _))

/-- The address is marked stable. -/
def MarkedStable (s : DhtTracker) (ip : String) : Prop :=
  ∃ node, s.nodeList.lookup ip = some node ∧ node.stable = true

/-- From `past` on, the address has sent a beacon in the ten minutes before each
iteration, so that its beacons are less than ten minutes apart. -/
def BeaconsOn (ip : String) (past tr : List (Transition DhtTracker TrackerLabel)) : Prop :=
  AlongFrom (fun past t => RecentBeacon ip past t.label.now) past tr

/-- The address is marked at the end if it was marked once and has beaconed
since. -/
def StaysMarked (ip : String) (tr : List (Transition DhtTracker TrackerLabel))
    (s : DhtTracker) : Prop :=
  ∀ tr₁ u tr₂, tr = tr₁ ++ u :: tr₂ → MarkedStable u.post ip → BeaconsOn ip (tr₁ ++ [u]) tr₂ →
    MarkedStable s ip

/-- After the iteration, addresses with a recent beacon are tracked, and those
that have beaconed since they were marked are marked. -/
def TracksBeaconing (past : List (Transition DhtTracker TrackerLabel))
    (t : Transition DhtTracker TrackerLabel) : Prop :=
  ∀ ip, (RecentBeacon ip (past ++ [t]) t.label.now → ip ∈ t.post.nodeList) ∧
    StaysMarked ip (past ++ [t]) t.post

/-- No refresh finds a node timed out that has sent a beacon less than ten minutes
ago. -/
def DropsNoBeaconing (past : List (Transition DhtTracker TrackerLabel))
    (t : Transition DhtTracker TrackerLabel) : Prop :=
  t.pre.lastRefresh.isTimeout t.label.now →
    ∀ e ∈ t.pre.nodeList.entries, e.2.timeout.isTimeout t.label.now →
      ¬ RecentBeacon e.1 (past ++ [t]) t.label.now

instance : Decidable (DropsNoBeaconing past t) :=
  inferInstanceAs (Decidable (_ → ∀ e ∈ _, _ → ¬ _))

/-- The invariant: what is tracked at any later time. -/
def Tracks (past : List (Transition DhtTracker TrackerLabel)) (s : DhtTracker) : Prop :=
  ∀ ip, (∀ now, (∀ u ∈ past, u.label.now ≤ now) → RecentBeacon ip past now → ip ∈ s.nodeList) ∧
    StaysMarked ip past s

/-! ### One iteration -/

/-- An entry that is not dropped. -/
theorem lookup_post {node : TrackedNode} (hs : next t.pre t.label = some t.post)
    (hdrops : DropsNoBeaconing past t) (hnode : t.pre.nodeList.lookup ip = some node)
    (hrecent : RecentBeacon ip (past ++ [t]) t.label.now) :
    t.post.nodeList.lookup ip
      = some { node with stable := node.stable || t.label.input = .dhtIp ip } := by
  refine (lookup_next hs).mpr ⟨entryAfter_eq_some_iff.mpr (.inr ⟨node, hnode, rfl⟩), ?_⟩
  intro hdue hexp
  exact hdrops hdue ⟨ip, node⟩ (AList.mem_lookup_iff.mp hnode) hexp hrecent

theorem RecentBeacon.snoc (h : RecentBeacon ip past now) : RecentBeacon ip (past ++ [t]) now := by
  obtain ⟨u, hu, hbeacon⟩ := h
  exact ⟨u, List.mem_append_left _ hu, hbeacon⟩

/-- **An iteration that drops no beaconing node keeps track of all.** -/
theorem Tracks.step (h : Tracks past t.pre) (hclock : ∀ u ∈ past, u.label.now ≤ t.label.now)
    (hs : next t.pre t.label = some t.post) (hdrops : DropsNoBeaconing past t) :
    TracksBeaconing past t := by
  intro ip
  constructor
  · intro hrecent
    rcases hold : t.pre.nodeList.lookup ip with _ | node
    · -- not tracked before, so the beacon is the one that has arrived
      obtain ⟨u, hu, hinput, htime⟩ := hrecent
      rcases List.mem_append.mp hu with hu | hu
      · have hmem := (h ip).1 _ hclock ⟨u, hu, hinput, htime⟩
        rw [← AList.lookup_isSome, hold] at hmem
        cases hmem
      · rw [List.mem_singleton.mp hu] at hinput
        refine Table.mem_iff_lookup.mpr ⟨⟨false, .ofCount t.label.now 10⟩, ?_⟩
        refine (lookup_next hs).mpr ⟨entryAfter_eq_some_iff.mpr (.inl ⟨hold, hinput, rfl⟩), ?_⟩
        intro _ hexp
        rw [Timeout.isTimeout_iff, Timeout.ofCount_endPoint] at hexp
        have hten : (0 : ℤ) ≤ 10 * minutes := by decide
        omega
    · exact Table.mem_iff_lookup.mpr ⟨_, lookup_post hs hdrops hold hrecent⟩
  · intro tr₁ u tr₂ hsplit hmarked hbeacons
    rcases List.eq_nil_or_concat' tr₂ with rfl | ⟨tr₃, v, rfl⟩
    · obtain ⟨-, hlast⟩ := List.append_inj' hsplit rfl
      obtain rfl : t = u := by simpa using hlast
      exact hmarked
    · rw [← List.cons_append, ← List.append_assoc] at hsplit
      obtain ⟨hpast, hlast⟩ := List.append_inj' hsplit rfl
      obtain rfl : t = v := by simpa using hlast
      obtain ⟨hbefore, hrecent⟩ := alongFrom_snoc.mp hbeacons
      rw [List.append_assoc, List.singleton_append, ← hpast] at hrecent
      obtain ⟨node, hnode, hstable⟩ := (h ip).2 tr₁ u tr₃ hpast hmarked hbefore
      exact ⟨_, lookup_post hs hdrops hnode hrecent.snoc, by simp [hstable]⟩

/-- A refresh that drops a beaconing node loses track of it. -/
theorem TracksBeaconing.dropsNoBeaconing (h : TracksBeaconing past t)
    (hs : next t.pre t.label = some t.post) : DropsNoBeaconing past t := by
  rintro hdue ⟨ip, node⟩ he hexp hrecent
  have hnode : t.pre.nodeList.lookup ip = some node := AList.mem_lookup_iff.mpr he
  obtain ⟨node', hpost⟩ := Table.mem_iff_lookup.mp ((h ip).1 hrecent)
  obtain ⟨hafter, hkept⟩ := (lookup_next hs).mp hpost
  rcases entryAfter_eq_some_iff.mp hafter with ⟨hnone, -⟩ | ⟨old, hold, rfl⟩
  · cases hnone.symm.trans hnode
  · obtain rfl := Option.some_inj.mp (hold.symm.trans hnode)
    exact hkept hdue hexp

/-! ### Runs -/

theorem TracksBeaconing.tracks (h : TracksBeaconing past t) : Tracks (past ++ [t]) t.post := by
  intro ip
  refine ⟨fun now hnow hrecent => (h ip).1 ?_, (h ip).2⟩
  have hle : t.label.now ≤ now := hnow t (by simp)
  obtain ⟨u, hu, hinput, htime⟩ := hrecent
  exact ⟨u, hu, hinput, by omega⟩

/-- **When beaconing nodes stay tracked.**  In a run at non-decreasing times, an
address that has sent a beacon less than ten minutes ago is always tracked, and
stays marked stable while its beacons are less than ten minutes apart, iff no
refresh drops a node that has sent one less than ten minutes ago. -/
theorem beaconing_tracked_iff (h : Run next (init start) tr s)
    (hclock : ClockFrom TrackerLabel.now start tr) :
    Along TracksBeaconing tr ↔ Along DropsNoBeaconing tr := by
  refine h.along_iff Tracks ?_ ?_ ?_ hclock.along
  · intro ip
    refine ⟨fun now _ hrecent => ?_, fun tr₁ u tr₂ hsplit => ?_⟩
    · obtain ⟨u, hu, -⟩ := hrecent
      cases hu
    · simp at hsplit
  · intro past t hI hclock hs
    exact ⟨fun hP => hP.dropsNoBeaconing hs, hI.step hclock hs⟩
  · intro past t hI hclock hs hC
    exact (hI.step hclock hs hC).tracks

/-- A marked node that goes away, and is dropped after its last beacon. -/
theorem beaconing_tracked_gone :
    ∃ tr s, Run next (init 0) tr s ∧ s.nodeList.keys = [] ∧ Along TracksBeaconing tr := by
  obtain ⟨tr, s, hrun, hclock, hkeys, hdrops⟩ := exists_run_of_replay next (init 0)
    (fun tr s => ClockFrom TrackerLabel.now 0 tr ∧ s.nodeList.keys = [] ∧ Along DropsNoBeaconing tr)
    [⟨0, .beaconIp "10.0.0.2"⟩, ⟨seconds, .dhtIp "10.0.0.2"⟩, ⟨minutes, .beaconIp "10.0.0.2"⟩,
      ⟨12 * minutes, .timeout⟩] (by decide)
  exact ⟨tr, s, hrun, hkeys, (beaconing_tracked_iff hrun hclock).mpr hdrops⟩

/-- A marked node whose last beacon is two minutes old is dropped. -/
theorem beaconing_node_dropped :
    ∃ tr t, Run next (init 0) (tr ++ [t]) t.post ∧ ClockFrom TrackerLabel.now 0 (tr ++ [t]) ∧
      RecentBeacon "10.0.0.2" (tr ++ [t]) t.label.now ∧ "10.0.0.2" ∉ t.post.nodeList ∧
      ¬ TracksBeaconing tr t := by
  obtain ⟨tr, t, hrun, hclock, hrecent, hgone⟩ := exists_run_snoc_of_replay next (init 0)
    (fun tr t => ClockFrom TrackerLabel.now 0 (tr ++ [t]) ∧
      RecentBeacon "10.0.0.2" (tr ++ [t]) t.label.now ∧ "10.0.0.2" ∉ t.post.nodeList)
    [⟨0, .beaconIp "10.0.0.2"⟩, ⟨seconds, .dhtIp "10.0.0.2"⟩, ⟨5 * minutes, .beaconIp "10.0.0.2"⟩,
      ⟨9 * minutes, .beaconIp "10.0.0.2"⟩] ⟨11 * minutes, .timeout⟩ (by decide)
  exact ⟨tr, t, hrun, hclock, hrecent, hgone, fun htracks => hgone ((htracks _).1 hrecent)⟩

end DhtTracker

end Riaps
