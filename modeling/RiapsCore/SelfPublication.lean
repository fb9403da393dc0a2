/-
What marks a node of the tracker as stable.

A tracker puts its own address into the hash table, under the id that the
constructor `InfoHash(self_ip)` makes of it, and `check_state` takes an address
for stable when there is a value under its id.  The constructor parses 40
hexadecimal digits, and an address is shorter than that, so that all addresses
have the same id:

* `get_content` — what is found under the id of an address;
* `mem_checkStateReports_iff` — the addresses that are reported;
* `reports_self_published_iff` — only nodes that have published are reported, iff
  nobody has or all that are searched for have.
-/
import RiapsCore.DhtTracker
import RiapsCore.GroupKeys

namespace Riaps

variable {H : Type*}

/-- The values in the hash table, with the ids that they were put under. -/
abbrev DhtContent (H : Type*) := List (H × String)

/-- `dht->put(key, value)`. -/
def DhtContent.put (content : DhtContent H) (key : H) (value : String) : DhtContent H :=
  content ++ [(key, value)]

/-- The values that `dht.get(key)` returns. -/
def DhtContent.get [DecidableEq H] (content : DhtContent H) (key : H) : List String :=
  content.filterMap fun p => if p.1 = key then some p.2 else none

/-- `republish` of the tracker on the node with this address. -/
def republish (dht : OpenDht H) (content : DhtContent H) (selfIp : String) : DhtContent H :=
  content.put (dht.ofString selfIp) selfIp

/-- The hash table after these nodes have published themselves, in this order. -/
def contentOf (dht : OpenDht H) (publishers : List String) : DhtContent H :=
  publishers.foldl (republish dht) []

/-- The addresses that `check_state` sends `CMD_DHT_IP` for: those whose search
has a result. -/
def checkStateReports [DecidableEq H] (dht : OpenDht H) (content : DhtContent H)
    (nodeList : NodeList) : List String :=
  (checkState nodeList).2.filter fun ip => content.get (dht.ofString ip) ≠ []

/-- Only nodes that have published are reported. -/
def ReportsSelfPublished [DecidableEq H] (dht : OpenDht H) (publishers : List String)
    (nodeList : NodeList) : Prop :=
  ∀ ip ∈ checkStateReports dht (contentOf dht publishers) nodeList, ip ∈ publishers

instance [DecidableEq H] (dht : OpenDht H) (publishers : List String) (nodeList : NodeList) :
    Decidable (ReportsSelfPublished dht publishers nodeList) :=
  inferInstanceAs (Decidable (∀ ip ∈ _, _))

theorem contentOf_eq (dht : OpenDht H) (publishers : List String) :
    contentOf dht publishers = publishers.map fun ip => (dht.ofString ip, ip) := by
  have hgen : ∀ content : DhtContent H, publishers.foldl (republish dht) content
      = content ++ publishers.map fun ip => (dht.ofString ip, ip) := by
    induction publishers with
    | nil => simp
    | cons ip rest ih =>
      intro content
      rw [List.foldl_cons, ih, republish, DhtContent.put, List.append_assoc, List.map_cons,
        List.singleton_append]
  exact hgen []

/-- The addresses that are searched for are those that are not stable. -/
theorem mem_checkState_snd {nodeList : NodeList} {ip : String} :
    ip ∈ (checkState nodeList).2 ↔
      ∃ node, nodeList.lookup ip = some node ∧ node.stable = false := by
  have hunstable : ip ∈ (nodeList.entries.filter fun e => !e.2.stable).map Sigma.fst ↔
      ∃ node, nodeList.lookup ip = some node ∧ node.stable = false := by
    rw [List.mem_map]
    constructor
    · rintro ⟨⟨_, node⟩, he, rfl⟩
      obtain ⟨he, hstable⟩ := List.mem_filter.mp he
      exact ⟨node, AList.mem_lookup_iff.mpr he, by simpa using hstable⟩
    · rintro ⟨node, hnode, hstable⟩
      refine ⟨⟨ip, node⟩, List.mem_filter.mpr ⟨AList.mem_lookup_iff.mp hnode, ?_⟩, rfl⟩
      simp [hstable]
  rw [checkState]
  split
  · -- no node is unstable
    rename_i hcounts
    rw [← hunstable]
    have hnone := List.countP_eq_zero.mp hcounts.1
    simp only [List.not_mem_nil, false_iff, List.mem_map, List.mem_filter]
    rintro ⟨e, ⟨he, hstable⟩, -⟩
    exact hnone e he hstable
  · exact hunstable

variable [DecidableEq H] {dht : OpenDht H} {zero : H} {publishers : List String}
  {nodeList : NodeList}

/-- Under the id of an address, what everybody has published is found. -/
theorem get_content (hdht : ParsesHex dht zero) (hpublishers : ∀ ip ∈ publishers, ip.length < 40)
    {ip : String} (hip : ip.length < 40) :
    (contentOf dht publishers).get (dht.ofString ip) = publishers := by
  rw [contentOf_eq, DhtContent.get, List.filterMap_map, hdht.short ip hip]
  refine (List.filterMap_congr fun p hp => ?_).trans List.filterMap_some
  rw [Function.comp_apply, if_pos (hdht.short p (hpublishers p hp))]

theorem mem_checkStateReports_iff (hdht : ParsesHex dht zero)
    (hpublishers : ∀ ip ∈ publishers, ip.length < 40)
    (hnodes : ∀ ip ∈ nodeList, ip.length < 40) {ip : String} :
    ip ∈ checkStateReports dht (contentOf dht publishers) nodeList ↔
      publishers ≠ [] ∧ ∃ node, nodeList.lookup ip = some node ∧ node.stable = false := by
  rw [checkStateReports, List.mem_filter, mem_checkState_snd, decide_eq_true_eq, and_comm]
  refine and_congr_left fun hnode => ?_
  obtain ⟨node, hnode, -⟩ := hnode
  rw [get_content hdht hpublishers (hnodes ip (Table.mem_iff_lookup.mpr ⟨node, hnode⟩))]

/-- **When a node is reported for its own entry only.**  Let the nodes have
addresses, so that these are shorter than 40 characters.  All nodes that
`check_state` reports have published themselves iff nobody has published, or all
nodes of the list that are not stable have. -/
theorem reports_self_published_iff (hdht : ParsesHex dht zero)
    (hpublishers : ∀ ip ∈ publishers, ip.length < 40)
    (hnodes : ∀ ip ∈ nodeList, ip.length < 40) :
    ReportsSelfPublished dht publishers nodeList ↔
      publishers = [] ∨
        ∀ ip node, nodeList.lookup ip = some node → node.stable = false → ip ∈ publishers := by
  constructor
  · intro h
    by_cases hnobody : publishers = []
    · exact .inl hnobody
    · refine .inr fun ip node hnode hstable => h ip ?_
      exact (mem_checkStateReports_iff hdht hpublishers hnodes).mpr
        ⟨hnobody, node, hnode, hstable⟩
  · intro h ip hip
    obtain ⟨hsome, node, hnode, hstable⟩ :=
      (mem_checkStateReports_iff hdht hpublishers hnodes).mp hip
    rcases h with hnobody | hall
    · exact absurd hnobody hsome
    · exact hall ip node hnode hstable

/-! ### Two nodes -/

open DiscoveryMessageHandler (infoHash infoHash_parsesHex)

/-- The list of `10.0.0.1` after the first beacon of `10.0.0.2`. -/
def beaconedList : NodeList := AList.singleton "10.0.0.2" ⟨false, .ofCount 0 10⟩

theorem eq_of_mem_beaconedList {ip : String} (h : ip ∈ beaconedList) : ip = "10.0.0.2" := by
  rw [AList.mem_keys] at h
  exact List.mem_singleton.mp h

/-- Both nodes have published. -/
theorem reports_self_published_both :
    "10.0.0.2" ∈ checkStateReports infoHash (contentOf infoHash ["10.0.0.1", "10.0.0.2"])
        beaconedList ∧
      ReportsSelfPublished infoHash ["10.0.0.1", "10.0.0.2"] beaconedList := by
  refine ⟨by decide, (reports_self_published_iff infoHash_parsesHex (by decide) ?_).mpr ?_⟩
  · intro ip hip
    rw [eq_of_mem_beaconedList hip]
    decide
  · refine .inr fun ip node hnode _ => ?_
    rw [eq_of_mem_beaconedList (Table.mem_iff_lookup.mpr ⟨node, hnode⟩)]
    decide

/-- One node has published, and the other is reported. -/
theorem other_publication_reported :
    "10.0.0.2" ∈ checkStateReports infoHash (contentOf infoHash ["10.0.0.1"]) beaconedList ∧
      ¬ ReportsSelfPublished infoHash ["10.0.0.1"] beaconedList := by
  decide

end Riaps
