/-
Whether a component counts itself as a peer.

A group update from the discovery service lists the publishers of one member,
and `ConnectToNewServices` connects the internal subscriber port to all of them
that have its message type.  It does not leave out the publisher of the
component itself, which then hears its own heartbeats and enters itself into
`known_nodes_`; the next candidacy counts it twice.  As long as no update lists
the own publisher:

* `not_connected_to_self` — the subscriber port never has the own publisher
  among its endpoints;
* `own_id_excluded` — hence the own id is never in `known_nodes_`, and a
  candidacy counts each component known alive once, itself included.

`counts_itself_after_own_update` is a run with such an update.
-/
import RiapsCore.Leadership

open Runs

namespace Riaps

namespace GroupNet

open GroupLead (compA compB)

variable {members : Finset ComponentUuid} {s s' s₀ : GroupNet} {l : Label} {c : ComponentUuid}
  {tr : List (Transition GroupNet Label)} {address : ComponentUuid → String}

/-- All groups have just been initialised and nothing is in flight. -/
structure Started (s : GroupNet) : Prop where
  node : ∀ c, ∃ now timeo hasLeader userSubports,
    s.node c = Group.initGroup c now timeo hasLeader userSubports
  chan : s.chan = Channels.empty

theorem Started.initial (h : Started s) : Initial s := by
  refine ⟨fun c => ?_, h.chan⟩
  obtain ⟨now, timeo, hasLeader, userSubports, hnode⟩ := h.node c
  exact ⟨now, timeo, by rw [lead, hnode]; rfl⟩

/-- The endpoint of a component's internal publisher. -/
def endpoint (address : ComponentUuid → String) (c : ComponentUuid) : String :=
  "tcp://" ++ address c

/-- A message arrives only from a publisher that the receiver's internal port
is connected to. -/
def ArrivesConnected (address : ComponentUuid → String) (s : GroupNet) : Label → Prop
  | .deliver src dst _ _ => endpoint address src ∈ (s.node dst).groupSubport.endpoints
  | _ => True

instance (address : ComponentUuid → String) (s : GroupNet) :
    ∀ l, Decidable (ArrivesConnected address s l)
  | .deliver _ _ _ _ => inferInstanceAs (Decidable (_ ∈ _))
  | .act _ _ => .isTrue trivial
  | .lose _ _ _ => .isTrue trivial

def Connected (address : ComponentUuid → String) (tr : List (Transition GroupNet Label)) : Prop :=
  ∀ t ∈ tr, ArrivesConnected address t.pre t.label

instance (address : ComponentUuid → String) (tr : List (Transition GroupNet Label)) :
    Decidable (Connected address tr) :=
  inferInstanceAs (Decidable (∀ t ∈ tr, _))

/-- Which services a group update lists, and at whom it arrives. -/
def listed : Label → List (ComponentUuid × GroupService)
  | .act c (.connect _ services) => services.map fun service => (c, service)
  | _ => []

/-- The step is a group update at `c` that lists `c`'s own internal publisher. -/
def ListsOwn (address : ComponentUuid → String) (c : ComponentUuid) (l : Label) : Prop :=
  (c, ⟨internalMessageType, address c⟩) ∈ listed l

instance (address : ComponentUuid → String) (c : ComponentUuid) (l : Label) :
    Decidable (ListsOwn address c l) :=
  inferInstanceAs (Decidable (_ ∈ listed l))

/-! ### One step -/

/-- The internal port of `c`'s group is not connected to `c`, and `c` is not in
the table. -/
structure Apart (address : ComponentUuid → String) (c : ComponentUuid) (g : Group) : Prop where
  messageType : g.groupSubport.messageType = internalMessageType
  endpoints : endpoint address c ∉ g.groupSubport.endpoints
  knownNodes : (c : String) ∉ g.knownNodes

theorem apart_start (h : Started s) : Apart address c (s.node c) := by
  obtain ⟨now, timeo, hasLeader, userSubports, hnode⟩ := h.node c
  rw [hnode]
  exact ⟨rfl, Finset.notMem_empty _, AList.notMem_empty _⟩

theorem Apart.of_port {g g' : Group} (h : Apart address c g)
    (hport : g'.groupSubport = g.groupSubport) (hknown : (c : String) ∉ g'.knownNodes) :
    Apart address c g' := by
  refine ⟨?_, ?_, hknown⟩
  · rw [hport]
    exact h.messageType
  · rw [hport]
    exact h.endpoints

/-- A heartbeat that reaches `c` under its own id came over the channel from
`c` to itself. -/
theorem self_of_heartBeat (h₀ : Initial s₀) (h : Run (step members) s₀ tr s) {now : ℤ}
    {draws : Draws} {m : GroupMsg} {hb : GroupHeartBeat}
    (he : eventOf s l = some (c, .receive now draws m)) (hhb : m.heartBeat = some hb)
    (hid : hb.sourceComponentId = c) : l = .deliver c c now draws := by
  cases l with
  | act c' call => simp [eventOf] at he
  | deliver src dst now' draws' =>
    obtain ⟨m', hm', heq⟩ := Option.map_eq_some_iff.mp he
    simp only [Prod.mk.injEq, Group.Event.receive.injEq] at heq
    obtain ⟨rfl, rfl, rfl, rfl⟩ := heq
    -- the message was sent by `src`, under the id of `src`
    obtain ⟨t, ht, hv, hout⟩ := sent_of_mem_chan h₀ h (List.mem_of_mem_head? hm')
    obtain ⟨e, hev⟩ := Option.isSome_iff_exists.mp hv
    obtain ⟨-, eff, hg, heff, -⟩ := step_of_eventOf (h.step_of_mem ht) (view_eq_some.mp hev)
    rw [heff] at hout
    have hsrc := Group.heartBeat_of_step hg hout hhb
    obtain ⟨tr₁, tr₂, rfl⟩ := List.append_of_mem ht
    have hcid : (t.pre.node src).parentComponentId = src := lead_componentId h₀ h.at_split.1 src
    rw [hcid, hid] at hsrc
    rw [Subtype.ext hsrc]
  | lose src dst k => simp [eventOf] at he

/-- An event keeps `c` apart from itself unless it is an update that lists the
own publisher or a heartbeat under the own id. -/
theorem Apart.step {g g' : Group} {e : Group.Event} (h : Apart address c g)
    (hstep : Group.MembershipStep g e g')
    (hup : ∀ connects services, e = .call (.connect connects services) →
      (⟨internalMessageType, address c⟩ : GroupService) ∉ services)
    (hhb : ∀ now draws m hb, e = .receive now draws m → m.heartBeat = some hb →
      hb.sourceComponentId ≠ c) : Apart address c g' := by
  cases hstep with
  | same _ hknown hport =>
    refine h.of_port hport ?_
    rw [hknown]
    exact h.knownNodes
  | purged _ hknown hport =>
    refine h.of_port hport ?_
    rw [hknown]
    exact fun hmem => h.knownNodes (Table.mem_of_mem_retain hmem)
  | heard hbeat hknown hport =>
    refine h.of_port hport ?_
    rw [hknown, KnownNodes.mem_heartBeat]
    rintro (hself | hold)
    · exact hhb _ _ _ _ rfl hbeat hself.symm
    · exact h.knownNodes hold
  | connected hknown hport =>
    refine ⟨?_, ?_, ?_⟩
    · rw [hport, Group.offers_messageType]
      exact h.messageType
    · rw [hport]
      intro hmem
      rcases Group.mem_endpoints_of_offers hmem with hold | ⟨service, hservice, htype, heq⟩
      · exact h.endpoints hold
      · -- the service that brought the endpoint is the own publisher
        have haddr : address c = service.address := (String.append_right_inj _).mp heq
        refine hup _ _ rfl ?_
        rw [haddr, ← h.messageType, ← htype]
        exact hservice
    · rw [hknown]
      exact h.knownNodes

/-! ### Whole runs -/

/-- **The internal port is never connected to its own component**, and the
table never holds the own id, in a run without an update that lists the own
publisher. -/
theorem not_connected_to_self (h₀ : Started s₀) (h : Run (step members) s₀ tr s)
    (hconn : Connected address tr) (hup : ∀ t ∈ tr, ¬ ListsOwn address c t.label) :
    Apart address c (s.node c) := by
  induction h with
  | nil => exact apart_start h₀
  | @snoc tr s s' l hrun hs ih =>
    have hlast : (⟨s, l, s'⟩ : Transition GroupNet Label) ∈ tr ++ [⟨s, l, s'⟩] := by simp
    have hI : Apart address c (s.node c) :=
      ih (fun t ht => hconn t (List.mem_append_left _ ht))
        fun t ht => hup t (List.mem_append_left _ ht)
    rcases hv : view c s l with _ | e
    · rwa [node_of_view_none hs hv]
    · have hev := view_eq_some.mp hv
      obtain ⟨-, eff, hg, -, -⟩ := step_of_eventOf hs hev
      refine hI.step (Group.step_membership hg) ?_ ?_
      · rintro connects services rfl hmem
        obtain rfl := eventOf_eq_call hev
        exact hup _ hlast (List.mem_map.mpr ⟨_, hmem, rfl⟩)
      · -- an own heartbeat would need the connection that `hI` excludes
        rintro now draws m hb rfl hbeat hid
        obtain rfl := self_of_heartBeat h₀.initial hrun hev hbeat hid
        exact hI.endpoints (hconn _ hlast)

/-- **A component does not count itself as a peer**, in a run without an update
that lists its own publisher: its id is never in `known_nodes_`, and when it
becomes CANDIDATE, `m_numberOfNodesInVote` is the number of distinct components
known alive, itself included, as long as that number of peers fits the 16 bits
of `GetMemberCount()`. -/
theorem own_id_excluded (h₀ : Started s₀) (h : Run (step members) s₀ tr s)
    (hconn : Connected address tr) (hup : ∀ t ∈ tr, ¬ ListsOwn address c t.label) :
    (∀ t ∈ tr, (c : String) ∉ (t.post.node c).knownNodes) ∧
      ∀ t ∈ tr, (lead c t.pre).currentState ≠ .candidate →
        (lead c t.post).currentState = .candidate →
        ∃ now, t.label = .act c (.poll now) ∧
          (((t.pre.node c).knownNodes.getKnownComponents now).card < 65536 →
            (lead c t.post).numberOfNodesInVote.toNat
              = (insert (c : String) ((t.pre.node c).knownNodes.getKnownComponents now)).card) := by
  have hapart : ∀ t ∈ tr, Apart address c (t.post.node c) := by
    intro t ht
    obtain ⟨tr₁, tr₂, rfl⟩ := List.append_of_mem ht
    have hbefore : ∀ u ∈ tr₁ ++ [t], u ∈ tr₁ ++ t :: tr₂ := by
      intro u hu
      rcases List.mem_append.mp hu with hu | hu
      · exact List.mem_append_left _ hu
      · rw [List.mem_singleton.mp hu]
        exact ht
    obtain ⟨hrun, hs, -⟩ := h.at_split
    exact not_connected_to_self h₀ (.snoc hrun hs) (fun u hu => hconn u (hbefore u hu))
      fun u hu => hup u (hbefore u hu)
  refine ⟨fun t ht => (hapart t ht).knownNodes, fun t ht hpre hpost => ?_⟩
  obtain ⟨now, hlabel, hlive, hcount⟩ := candidacy_counts (h.step_of_mem ht) hpre hpost
  refine ⟨now, hlabel, fun hcard => ?_⟩
  -- the table after the candidacy holds those known alive
  have halive : Table.keySet (t.post.node c).knownNodes
      = (t.pre.node c).knownNodes.getKnownComponents now := by
    rw [hlive]
    rfl
  rw [halive] at hcount
  have hown : (c : String) ∉ (t.pre.node c).knownNodes.getKnownComponents now := by
    rw [← halive, Table.mem_keySet]
    exact (hapart t ht).knownNodes
  rw [hcount hcard, Finset.card_insert_of_notMem hown]

/-! ### Concrete runs -/

/-- The addresses of the publishers in the runs below. -/
def hostPort (c : ComponentUuid) : String := c ++ ":5555"

/-- `a` learns about the publisher of `src` and hears a ping of `src`. -/
def hearsPing (src : ComponentUuid) : List Label :=
  [.act compA (.connect (fun _ _ => true) [⟨internalMessageType, hostPort src⟩]),
    .act src (.ping 0), deliverAt src compA 10, pollAt compA 160]

theorem started_startTrio : Started (startTrio fun _ => []) :=
  ⟨fun c => ⟨0, firstTimeo c, true, [], rfl⟩, rfl⟩

theorem own_id_excluded_hears_peer :
    ∃ tr s, Run (step trio) (startTrio fun _ => []) tr s ∧ "b" ∈ (s.node compA).knownNodes ∧
      (∀ t ∈ tr, (compA : String) ∉ (t.post.node compA).knownNodes) ∧
      ∀ t ∈ tr, (lead compA t.pre).currentState ≠ .candidate →
        (lead compA t.post).currentState = .candidate →
        ∃ now, t.label = .act compA (.poll now) ∧
          (((t.pre.node compA).knownNodes.getKnownComponents now).card < 65536 →
            (lead compA t.post).numberOfNodesInVote.toNat = (insert (compA : String)
              ((t.pre.node compA).knownNodes.getKnownComponents now)).card) := by
  obtain ⟨tr, s, hrun, hb, hconn, hup⟩ :=
    exists_run_of_replay (step trio) (startTrio fun _ => [])
      (fun tr s =>
        "b" ∈ (s.node compA).knownNodes ∧ Connected hostPort tr ∧
          ∀ t ∈ tr, ¬ ListsOwn hostPort compA t.label) (hearsPing compB) (by decide)
  exact ⟨tr, s, hrun, hb, own_id_excluded started_startTrio hrun hconn hup⟩

/-- `a` handles the update about its own joining, hears its own ping and becomes
a candidate that counts two nodes, although it is the only one it knows of. -/
theorem counts_itself_after_own_update :
    ∃ tr s, Run (step trio) (startTrio fun _ => []) tr s ∧ Connected hostPort tr ∧
      (compA : String) ∈ (s.node compA).knownNodes ∧
      (lead compA s).currentState = .candidate ∧ (lead compA s).numberOfNodesInVote = 2 ∧
      (insert (compA : String) (Table.keySet (s.node compA).knownNodes)).card = 1 :=
  exists_run_of_replay (step trio) (startTrio fun _ => [])
    (fun tr s =>
      Connected hostPort tr ∧ (compA : String) ∈ (s.node compA).knownNodes ∧
        (lead compA s).currentState = .candidate ∧ (lead compA s).numberOfNodesInVote = 2 ∧
        (insert (compA : String) (Table.keySet (s.node compA).knownNodes)).card = 1)
    (hearsPing compA) (by decide)

end GroupNet

end Riaps
