/-
`dht_tracker` (`include/discoveryd/r_dhttracker.h`,
`src/discoveryd/r_dhttracker.cc`): whether the hash table is stable.

The tracker keeps the nodes that have sent a beacon.  A node is stable once its
address has been found in the hash table; the search is made by `check_state`
and its result comes back later as a command.  Every thirty seconds the tracker
drops what has timed out and publishes its own address again.

One iteration reads the clock once.  The searches are given out; the commands
that answer them are inputs like the others.
-/
import RiapsCore.Tables
import RiapsCore.Timeout

namespace Riaps

/-- An entry of `node_list`. -/
structure TrackedNode where
  stable : Bool
  timeout : Timeout minutes
deriving DecidableEq

/-- `node_list`. -/
abbrev NodeList := Table String TrackedNode

structure DhtTracker where
  nodeList : NodeList
  isStable : Bool
  publishIpTo : Timeout minutes
  lastRefresh : Timeout seconds
  terminated : Bool

/-- What the poller returns: a message on the pipe, a command with its
parameter, or nothing. -/
inductive TrackerInput where
  | pipe (command : String)
  | beaconIp (ip : String)
  | dhtIp (ip : String)
  | queryStable
  | other
  | timeout
deriving DecidableEq

/-- What an iteration sends out: the addresses searched for in the hash table,
the answer to a query, and whether the own address is put into it. -/
structure TrackerEffects where
  searches : List String := []
  answer : Option Bool := none
  republishes : Bool := false

/-- `check_state(node_list, dht)`: its result, and the addresses it searches
for. -/
def checkState (nodeList : NodeList) : Bool × List String :=
  let stableCount := nodeList.entries.countP fun e => e.2.stable
  let unstableCount := nodeList.entries.countP fun e => !e.2.stable
  if unstableCount = 0 ∧ stableCount > 0 then (true, [])
  else (false, (nodeList.entries.filter fun e => !e.2.stable).map Sigma.fst)

namespace DhtTracker

/-- Before the loop; the own address has been published. -/
def init (now : ℤ) : DhtTracker where
  nodeList := ∅
  isStable := false
  publishIpTo := .ofCount now 10
  lastRefresh := .ofCount now 30
  terminated := false

/-- Change the list of nodes and check it. -/
def recheck (t : DhtTracker) (nodeList : NodeList) : DhtTracker × TrackerEffects :=
  let (isStable, searches) := checkState nodeList
  ({ t with nodeList := nodeList, isStable := isStable }, { searches := searches })

/-- What has arrived. -/
def handleInput (t : DhtTracker) (now : ℤ) : TrackerInput → DhtTracker × TrackerEffects
  | .pipe command => ({ t with terminated := t.terminated || command = "$TERM" }, {})
  | .beaconIp ip =>
    if ip ∈ t.nodeList then (t, {})
    else t.recheck (t.nodeList.insert ip ⟨false, .ofCount now 10⟩)
  | .dhtIp ip =>
    match t.nodeList.lookup ip with
    | none => (t, {})
    | some node =>
      if node.stable then (t, {}) else t.recheck (t.nodeList.insert ip { node with stable := true })
  | .queryStable => (t, { answer := some t.isStable })
  | .other | .timeout => (t, {})

/-- The refresh at the end of an iteration. -/
def refresh (t : DhtTracker) (now : ℤ) : DhtTracker × TrackerEffects :=
  if ¬ t.lastRefresh.isTimeout now then (t, {})
  else
    let nodeList := Table.retain (fun _ node => ¬ node.timeout.isTimeout now) t.nodeList
    let republishes := t.publishIpTo.isTimeout now
    let (isStable, searches) := if t.isStable then (true, []) else checkState nodeList
    ({ t with
        nodeList := nodeList
        isStable := isStable
        publishIpTo := if republishes then t.publishIpTo.reset now else t.publishIpTo
        lastRefresh := t.lastRefresh.reset now },
      { searches := searches, republishes := republishes })

/-- One iteration of the loop. -/
def iterate (t : DhtTracker) (now : ℤ) (input : TrackerInput) :
    Option (DhtTracker × TrackerEffects) :=
  if t.terminated then none
  else
    let (t, handled) := t.handleInput now input
    let (t, refreshed) := t.refresh now
    some (t, ⟨handled.searches ++ refreshed.searches, handled.answer, refreshed.republishes⟩)

end DhtTracker

/-- An iteration: its reading of the clock, and what has arrived. -/
structure TrackerLabel where
  now : ℤ
  input : TrackerInput
deriving DecidableEq

namespace DhtTracker

variable {t t' : DhtTracker} {now : ℤ} {input : TrackerInput} {l : TrackerLabel} {ip : String}
  {node : TrackedNode}

/-- The step function of runs. -/
def next (t : DhtTracker) (l : TrackerLabel) : Option DhtTracker :=
  (t.iterate l.now l.input).map Prod.fst

theorem next_eq (h : next t l = some t') :
    t' = ((t.handleInput l.now l.input).1.refresh l.now).1 := by
  rw [next, iterate] at h
  split at h
  · cases h
  · exact (Option.some_inj.mp h).symm

/-! ### Entries -/

/-- What becomes of the entry of an address when something arrives. -/
def entryAfter (now : ℤ) (input : TrackerInput) (ip : String) :
    Option TrackedNode → Option TrackedNode
  | none => if input = .beaconIp ip then some ⟨false, .ofCount now 10⟩ else none
  | some node => some { node with stable := node.stable || input = .dhtIp ip }

theorem entryAfter_of_ne (hbeacon : input ≠ .beaconIp ip) (hdht : input ≠ .dhtIp ip)
    (entry : Option TrackedNode) : entryAfter now input ip entry = entry := by
  rcases entry with _ | node
  · simp [entryAfter, hbeacon]
  · simp [entryAfter, hdht]

theorem entryAfter_eq_some_iff {entry : Option TrackedNode} :
    entryAfter now input ip entry = some node ↔
      entry = none ∧ input = .beaconIp ip ∧ node = ⟨false, .ofCount now 10⟩ ∨
      ∃ old, entry = some old ∧
        node = { old with stable := old.stable || input = .dhtIp ip } := by
  rcases entry with _ | old
  · by_cases hbeacon : input = .beaconIp ip
    · simp [entryAfter, hbeacon, eq_comm]
    · simp [entryAfter, hbeacon]
  · simp [entryAfter, eq_comm]

/-- What arrives for another address leaves the entry as it is. -/
theorem lookup_handleInput_of_ne (hbeacon : input ≠ .beaconIp ip) (hdht : input ≠ .dhtIp ip) :
    (t.handleInput now input).1.nodeList.lookup ip = t.nodeList.lookup ip := by
  cases input with
  | beaconIp ip' =>
    rw [handleInput]
    split
    · rfl
    · exact AList.lookup_insert_ne fun hip => hbeacon (hip ▸ rfl)
  | dhtIp ip' =>
    rw [handleInput]
    split
    · rfl
    · split
      · rfl
      · exact AList.lookup_insert_ne fun hip => hdht (hip ▸ rfl)
  | _ => rfl

theorem lookup_handleInput (t : DhtTracker) (now : ℤ) (input : TrackerInput) (ip : String) :
    (t.handleInput now input).1.nodeList.lookup ip
      = entryAfter now input ip (t.nodeList.lookup ip) := by
  by_cases hbeacon : input = .beaconIp ip
  · subst hbeacon
    rw [handleInput]
    rcases hentry : t.nodeList.lookup ip with _ | node
    · rw [if_neg (AList.lookup_eq_none.mp hentry)]
      simp [recheck, entryAfter]
    · rw [if_pos (Table.mem_iff_lookup.mpr ⟨node, hentry⟩)]
      simp [entryAfter, hentry]
  · by_cases hdht : input = .dhtIp ip
    · subst hdht
      rw [handleInput]
      rcases hentry : t.nodeList.lookup ip with _ | ⟨_ | _, timeout⟩
      · simp [entryAfter, hentry]
      · simp [recheck, entryAfter]
      · simp [entryAfter, hentry]
    · rw [lookup_handleInput_of_ne hbeacon hdht, entryAfter_of_ne hbeacon hdht]

theorem handleInput_lastRefresh (t : DhtTracker) (now : ℤ) (input : TrackerInput) :
    (t.handleInput now input).1.lastRefresh = t.lastRefresh := by
  cases input with
  | beaconIp ip =>
    rw [handleInput]
    split <;> rfl
  | dhtIp ip =>
    rw [handleInput]
    split
    · rfl
    · split <;> rfl
  | _ => rfl

/-- A refresh that is due drops the nodes that have timed out. -/
theorem lookup_refresh :
    (t.refresh now).1.nodeList.lookup ip = some node ↔
      t.nodeList.lookup ip = some node ∧
        (t.lastRefresh.isTimeout now → ¬ node.timeout.isTimeout now) := by
  rw [refresh]
  by_cases hdue : t.lastRefresh.isTimeout now
  · rw [if_neg (not_not_intro hdue)]
    dsimp only
    rw [Table.lookup_retain, decide_eq_true_eq]
    simp [hdue]
  · rw [if_pos hdue]
    simp [hdue]

/-- **An iteration, entry by entry.** -/
theorem lookup_next (h : next t l = some t') :
    t'.nodeList.lookup ip = some node ↔
      entryAfter l.now l.input ip (t.nodeList.lookup ip) = some node ∧
        (t.lastRefresh.isTimeout l.now → ¬ node.timeout.isTimeout l.now) := by
  rw [next_eq h, lookup_refresh, lookup_handleInput, handleInput_lastRefresh]

end DhtTracker

end Riaps
