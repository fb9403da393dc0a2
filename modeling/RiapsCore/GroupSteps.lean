/-
What an event of a group does.

Everything a group does about elections and decisions it does through its
`GroupLead`.  `leadInput` names the call that an event leads to, and
`step_lead` shows that an event is either that call, with the messages of the
call and no others, or leaves the `GroupLead` alone and sends nothing that an
election or a decision produces.

`MembershipStep` lists what an event can do to the membership table and to the
connections of the internal port, and `step_membership` shows that there is
nothing else; `tableCall` names the call on the table that an event leads to.
-/
import RiapsCore.Group
import RiapsCore.ElectionSteps

namespace Riaps

namespace Group

/-- The call of the `GroupLead` that an event leads to. -/
def leadInput (g : Group) : Event → Option GroupLead.Input
  | .call (.poll now) => if g.hasLeader then some (.update now g.knownNodes) else none
  | .receive now draws ⟨.leaderElection e, _⟩ => some (.message now draws.electionTimeo e)
  | .receive now draws ⟨.consensus c, frame⟩ =>
    if g.leaderId = g.parentComponentId then g.leaderCall now draws c frame else none
  | _ => none

/-- A message that only an election or a decision produces. -/
def LeadMessage (m : GroupMsg) : Prop :=
  match m.header with
  | .leaderElection _ => True
  | .consensus ⟨_, _, .announce _ _, _⟩ => True
  | _ => False

theorem leadMessage_of_election {m : GroupMsg} {e : LeaderElection} (h : m.election = some e) :
    LeadMessage m := by
  rw [GroupMsg.election] at h
  split at h
  · simp [LeadMessage, *]
  · simp at h

theorem leadMessage_of_announced {m : GroupMsg} {d : String × VoteResults}
    (h : m.announced = some d) : LeadMessage m := by
  rw [GroupMsg.announced] at h
  split at h
  · simp [LeadMessage, *]
  · simp at h

/-- A message that the group sends on its own behalf: none of an election or a
decision, and a heartbeat only under its own id. -/
def Plain (g : Group) (m : GroupMsg) : Prop :=
  match m.header with
  | .leaderElection _ => False
  | .consensus ⟨_, _, .announce _ _, _⟩ => False
  | .groupHeartBeat hb => hb.sourceComponentId = g.parentComponentId
  | _ => True

/-- An event that is passed to the `GroupLead`, which alone decides what is
sent. -/
def Driven (g : Group) (e : Event) (g' : Group) (eff : Effects) : Prop :=
  ∃ i, leadInput g e = some i ∧ g'.groupLeader = (g.groupLeader.step i).1 ∧
    eff.sent = (g.groupLeader.step i).2

/-- The effect of an event that is not passed to the `GroupLead`. -/
structure Aside (g g' : Group) (eff : Effects) : Prop where
  groupLeader : g'.groupLeader = g.groupLeader
  sent : ∀ m ∈ eff.sent, Plain g m

variable {g g' : Group} {eff : Effects} {m : GroupMsg}

theorem Plain.not_leadMessage (h : Plain g m) : ¬ LeadMessage m := by
  intro hm
  rw [Plain] at h
  rw [LeadMessage] at hm
  split at hm <;> simp_all

theorem aside_silent (hlead : g'.groupLeader = g.groupLeader) (hsent : eff.sent = []) :
    Aside g g' eff :=
  ⟨hlead, by simp [hsent]⟩

theorem aside_one (hlead : g'.groupLeader = g.groupLeader) (hsent : eff.sent = [m])
    (hm : Plain g m) : Aside g g' eff := by
  refine ⟨hlead, fun m' hm' => ?_⟩
  rw [hsent, List.mem_singleton] at hm'
  rwa [hm']

/-- A function that checks for the leader before it sends. -/
theorem aside_guarded {P : Prop} [Decidable P] (hlead : g'.groupLeader = g.groupLeader)
    (hsent : eff.sent = if P then [] else [m]) (hm : Plain g m) : Aside g g' eff := by
  by_cases hP : P
  · exact aside_silent hlead (hsent.trans (if_pos hP))
  · exact aside_one hlead (hsent.trans (if_neg hP)) hm

theorem connectToNewServices_groupLeader (g : Group) (connects : String → String → Bool)
    (services : List GroupService) :
    (g.connectToNewServices connects services).groupLeader = g.groupLeader := by
  rw [connectToNewServices]
  induction services generalizing g with
  | nil => rfl
  | cons service services ih =>
    rw [List.foldl_cons, ih]

/-- Only an election message leads to `Update(internalMessage)`. -/
theorem leadInput_message {e : Event} {now : ℤ} {timeo : ElectionTimeo} {le : LeaderElection}
    (h : leadInput g e = some (.message now timeo le)) :
    ∃ draws m, e = .receive now draws m ∧ m.election = some le := by
  rw [leadInput.eq_def] at h
  split at h
  · split at h <;> simp at h
  · rw [Option.some_inj, GroupLead.Input.message.injEq] at h
    obtain ⟨rfl, -, rfl⟩ := h
    exact ⟨_, _, rfl, rfl⟩
  · split at h
    · rw [leaderCall.eq_def] at h
      split at h <;> simp at h
    · simp at h
  · simp at h

/-- Only a poll leads to `Update()`, which reads the group's own table. -/
theorem leadInput_update {e : Event} {now : ℤ} {known : KnownNodes}
    (h : leadInput g e = some (.update now known)) :
    e = .call (.poll now) ∧ g.hasLeader ∧ known = g.knownNodes := by
  rw [leadInput.eq_def] at h
  split at h
  · split at h
    · rename_i hl
      rw [Option.some_inj, GroupLead.Input.update.injEq] at h
      obtain ⟨rfl, rfl⟩ := h
      exact ⟨rfl, hl, rfl⟩
    · simp at h
  · simp at h
  · split at h
    · rw [leaderCall.eq_def] at h
      split at h <;> simp at h
    · simp at h
  · simp at h

theorem perform_lead (g : Group) (c : Call) :
    Driven g (.call c) (g.perform c).1 (g.perform c).2 ∨
      leadInput g (.call c) = none ∧ Aside g (g.perform c).1 (g.perform c).2 := by
  cases c with
  | poll now =>
    by_cases hl : g.hasLeader
    · left
      refine ⟨.update now g.knownNodes, by simp [leadInput, hl], ?_, ?_⟩
      · rw [perform, poll, if_pos hl]
        rfl
      · rw [perform, poll, if_pos hl]
        rfl
    · right
      rw [perform, poll, if_neg hl]
      exact ⟨by simp [leadInput, hl], aside_silent rfl rfl⟩
  | connect connects services =>
    right
    exact ⟨rfl, aside_silent (connectToNewServices_groupLeader g connects services) rfl⟩
  | memberCount now => exact .inr ⟨rfl, aside_silent rfl rfl⟩
  | ping now => exact .inr ⟨rfl, aside_one rfl rfl rfl⟩
  | pingWithPeriod now =>
    right
    refine ⟨rfl, ?_⟩
    rw [perform, sendPingWithPeriod]
    split
    · exact aside_one rfl rfl rfl
    split
    · exact aside_one rfl rfl rfl
    · exact aside_silent rfl rfl
  | message message => exact .inr ⟨rfl, aside_one rfl rfl trivial⟩
  | messageToLeader message => exact .inr ⟨rfl, aside_guarded rfl rfl trivial⟩
  | leaderMessage message => exact .inr ⟨rfl, aside_guarded rfl rfl trivial⟩
  | proposeValue message proposeId => exact .inr ⟨rfl, aside_guarded rfl rfl trivial⟩
  | proposeAction proposeId actionId absTime => exact .inr ⟨rfl, aside_guarded rfl rfl trivial⟩
  | vote proposeId accept =>
    exact .inr ⟨rfl, aside_one rfl rfl trivial⟩

/-- Everything that handling a message can do: pass it to the `GroupLead`, enter
the sender of a heartbeat into the table and answer a ping, or nothing but make
callbacks. -/
inductive ReceiveStep (g : Group) (now : ℤ) (draws : Draws) (m : GroupMsg) :
    Group → Effects → Prop
  | driven {i : GroupLead.Input} :
      leadInput g (.receive now draws m) = some i → m.heartBeat = none →
      ReceiveStep g now draws m (g.drive i).1 (g.drive i).2
  | heard {hb : GroupHeartBeat} {eff : Effects} :
      leadInput g (.receive now draws m) = none → m.heartBeat = some hb →
      (∀ out ∈ eff.sent, out = g.sendPong) →
      ReceiveStep g now draws m
        { g with knownNodes := g.knownNodes.heartBeat now draws.nodeTimeo hb.sourceComponentId } eff
  | silent {eff : Effects} :
      leadInput g (.receive now draws m) = none → m.heartBeat = none → eff.sent = [] →
      ReceiveStep g now draws m g eff

theorem receive_cases {now : ℤ} {draws : Draws} {m : GroupMsg}
    (h : g.receive now draws m = some (g', eff)) : ReceiveStep g now draws m g' eff := by
  obtain ⟨header, frame⟩ := m
  cases header with
  | groupMessage source =>
    obtain ⟨rfl, rfl⟩ := Prod.mk.inj (Option.some.inj h)
    exact .silent rfl rfl rfl
  | groupHeartBeat hb =>
    have hbeat : GroupMsg.heartBeat ⟨.groupHeartBeat hb, frame⟩ = some hb := rfl
    simp only [receive] at h
    split at h
    · obtain ⟨rfl, rfl⟩ := Prod.mk.inj (Option.some.inj h)
      refine .heard rfl hbeat fun out hout => ?_
      rw [List.mem_singleton.mp hout]
      rfl
    · obtain ⟨rfl, rfl⟩ := Prod.mk.inj (Option.some.inj h)
      exact .heard rfl hbeat (by simp)
  | leaderElection e =>
    simp only [receive] at h
    split at h
    · obtain ⟨rfl, rfl⟩ := Prod.mk.inj (Option.some.inj h)
      exact .driven rfl rfl
    · simp at h
  | messageToLeader source =>
    simp only [receive] at h
    split at h
    · obtain ⟨rfl, rfl⟩ := Prod.mk.inj (Option.some.inj h)
      exact .silent rfl rfl rfl
    · obtain ⟨rfl, rfl⟩ := Prod.mk.inj (Option.some.inj h)
      exact .silent rfl rfl rfl
  | consensus c =>
    simp only [receive] at h
    by_cases hid : g.leaderId = g.parentComponentId
    · rw [if_pos hid] at h
      have hinput : leadInput g (.receive now draws ⟨.consensus c, frame⟩)
          = g.leaderCall now draws c frame := by
        rw [leadInput, if_pos hid]
      rcases hi : g.leaderCall now draws c frame with _ | i
      · rw [hi] at h hinput
        obtain ⟨rfl, rfl⟩ := Prod.mk.inj (Option.some.inj h)
        exact .silent hinput rfl rfl
      · rw [hi] at h hinput
        obtain ⟨rfl, rfl⟩ := Prod.mk.inj (Option.some.inj h)
        exact .driven hinput rfl
    · rw [if_neg hid] at h
      obtain ⟨cbs, -, heq⟩ := Option.map_eq_some_iff.mp h
      obtain ⟨rfl, rfl⟩ := Prod.mk.inj heq
      exact .silent (by rw [leadInput, if_neg hid]) rfl rfl
  | leaderMessage source =>
    obtain ⟨rfl, rfl⟩ := Prod.mk.inj (Option.some.inj h)
    exact .silent rfl rfl rfl

theorem receive_lead {now : ℤ} {draws : Draws} {m : GroupMsg}
    (h : g.receive now draws m = some (g', eff)) :
    Driven g (.receive now draws m) g' eff ∨
      leadInput g (.receive now draws m) = none ∧ Aside g g' eff := by
  cases receive_cases h with
  | driven hi _ => exact .inl ⟨_, hi, rfl, rfl⟩
  | heard hi _ hpong =>
    refine .inr ⟨hi, rfl, fun out hout => ?_⟩
    rw [hpong out hout]
    show (g.parentComponentId : String) = g.parentComponentId
    rfl
  | silent hi _ hsent => exact .inr ⟨hi, aside_silent rfl hsent⟩

/-- **An event is a call of the `GroupLead` or leaves it alone**, and elections
and decisions speak only through such calls. -/
theorem step_lead {e : Event} (h : g.step e = some (g', eff)) :
    Driven g e g' eff ∨ leadInput g e = none ∧ Aside g g' eff := by
  cases e with
  | call c =>
    obtain ⟨rfl, rfl⟩ := Prod.mk.inj (Option.some.inj h)
    exact perform_lead g c
  | receive now draws m => exact receive_lead h

/-- **A group sends heartbeats under its own id only.** -/
theorem heartBeat_of_step {e : Event} {hb : GroupHeartBeat} (h : g.step e = some (g', eff))
    (hm : m ∈ eff.sent) (hhb : m.heartBeat = some hb) :
    hb.sourceComponentId = g.parentComponentId := by
  rcases step_lead h with ⟨i, -, -, hsent⟩ | ⟨-, haside⟩
  · rw [hsent] at hm
    rw [GroupLead.step_heartBeat g.groupLeader i m hm] at hhb
    simp at hhb
  · have hplain := haside.sent m hm
    rw [GroupMsg.heartBeat] at hhb
    split at hhb
    · rename_i hb' hheader
      rw [Plain, hheader] at hplain
      rwa [Option.some.inj hhb] at hplain
    · simp at hhb

/-! ### Membership and connections -/

/-- The call on the membership table that an event leads to.  A proposal reads
the table as well, which is left out here. -/
def tableCall (g : Group) : Event → Option KnownNodes.Call
  | .call (.poll now) =>
    if g.hasLeader ∧ g.groupLeader.currentState = .follower ∧
        g.groupLeader.electionTimeout.isTimeout now then some (.getMemberCount now)
    else none
  | .call (.memberCount now) => some (.getMemberCount now)
  | .receive now draws m =>
    m.heartBeat.map fun hb => .heartBeat now draws.nodeTimeo hb.sourceComponentId
  | _ => none

/-- Everything an event can do to the table and the internal subscriber port. -/
inductive MembershipStep (g : Group) : Event → Group → Prop
  | same {e : Event} {g' : Group} :
      tableCall g e = none → g'.knownNodes = g.knownNodes →
      g'.groupSubport = g.groupSubport → MembershipStep g e g'
  | purged {e : Event} {g' : Group} {now : ℤ} :
      tableCall g e = some (.getMemberCount now) → g'.knownNodes = g.knownNodes.live now →
      g'.groupSubport = g.groupSubport → MembershipStep g e g'
  | heard {now : ℤ} {draws : Draws} {m : GroupMsg} {hb : GroupHeartBeat} {g' : Group} :
      m.heartBeat = some hb →
      g'.knownNodes = g.knownNodes.heartBeat now draws.nodeTimeo hb.sourceComponentId →
      g'.groupSubport = g.groupSubport → MembershipStep g (.receive now draws m) g'
  | connected {connects : String → String → Bool} {services : List GroupService} {g' : Group} :
      g'.knownNodes = g.knownNodes →
      g'.groupSubport = services.foldl (fun port service => port.offer connects service)
        g.groupSubport →
      MembershipStep g (.call (.connect connects services)) g'

theorem connectToNewServices_membership (g : Group) (connects : String → String → Bool)
    (services : List GroupService) :
    (g.connectToNewServices connects services).knownNodes = g.knownNodes ∧
      (g.connectToNewServices connects services).groupSubport
        = services.foldl (fun port service => port.offer connects service) g.groupSubport := by
  rw [connectToNewServices]
  induction services generalizing g with
  | nil => exact ⟨rfl, rfl⟩
  | cons service services ih =>
    rw [List.foldl_cons, List.foldl_cons]
    exact ih _

theorem perform_membership (g : Group) (c : Call) :
    MembershipStep g (.call c) (g.perform c).1 := by
  cases c with
  | poll now =>
    rw [perform, poll]
    by_cases hl : g.hasLeader
    · rw [if_pos hl]
      show MembershipStep g _ { g with
        groupLeader := (g.groupLeader.update now g.knownNodes).1
        knownNodes := (g.groupLeader.update now g.knownNodes).2.1 }
      rw [GroupLead.update]
      -- only a candidacy counts, and thereby purges, the members
      rcases hs : g.groupLeader.currentState with _ | _ | _
      · by_cases ht : g.groupLeader.electionTimeout.isTimeout now
        · simp only [ht, if_true]
          exact .purged (by simp [tableCall, hl, hs, ht]) rfl rfl
        · simp only [ht, if_false]
          exact .same (by simp [tableCall, ht]) rfl rfl
      · by_cases ht : g.groupLeader.electionTimeout.isTimeout now
        · simp only [ht, if_true]
          exact .same (by simp [tableCall, hs]) rfl rfl
        · simp only [ht, if_false]
          exact .same (by simp [tableCall, hs]) rfl rfl
      · by_cases ht : g.groupLeader.appEntryTimeout.isTimeout now
        · simp only [ht, if_true]
          exact .same (by simp [tableCall, hs]) rfl rfl
        · simp only [ht, if_false]
          exact .same (by simp [tableCall, hs]) rfl rfl
    · rw [if_neg hl]
      exact .same (by simp [tableCall, hl]) rfl rfl
  | connect connects services =>
    obtain ⟨hknown, hport⟩ := connectToNewServices_membership g connects services
    exact .connected hknown hport
  | memberCount now => exact .purged rfl rfl rfl
  | pingWithPeriod now =>
    rw [perform, sendPingWithPeriod]
    split
    · exact .same rfl rfl rfl
    split
    · exact .same rfl rfl rfl
    · exact .same rfl rfl rfl
  | ping _ | message _ | messageToLeader _ | leaderMessage _ | proposeValue _ _
  | proposeAction _ _ _ | vote _ _ => exact .same rfl rfl rfl

theorem receive_membership {now : ℤ} {draws : Draws} {m : GroupMsg}
    (h : g.receive now draws m = some (g', eff)) :
    MembershipStep g (.receive now draws m) g' := by
  cases receive_cases h with
  | driven _ hnone => exact .same (by simp [tableCall, hnone]) rfl rfl
  | heard _ hbeat _ => exact .heard hbeat rfl rfl
  | silent _ hnone _ => exact .same (by simp [tableCall, hnone]) rfl rfl

/-- **Every event is one of the listed steps.** -/
theorem step_membership {e : Event} (h : g.step e = some (g', eff)) : MembershipStep g e g' := by
  cases e with
  | call c =>
    obtain ⟨rfl, -⟩ := Prod.mk.inj (Option.some.inj h)
    exact perform_membership g c
  | receive now draws m => exact receive_membership h

/-- An event that leads to a call on the table leaves the outcome of that call. -/
theorem knownNodes_of_tableCall {e : Event} {l : KnownNodes.Call}
    (h : g.step e = some (g', eff)) (hl : tableCall g e = some l) :
    g'.knownNodes = g.knownNodes.call l := by
  cases step_membership h with
  | same hnone _ _ => simp [hnone] at hl
  | purged hcall hknown _ =>
    rw [hcall, Option.some_inj] at hl
    rw [hknown, ← hl]
    rfl
  | heard hbeat hknown _ =>
    rw [tableCall, hbeat, Option.map_some, Option.some_inj] at hl
    rw [hknown, ← hl]
    rfl
  | connected _ _ => simp [tableCall] at hl

theorem knownNodes_of_tableCall_none {e : Event} (h : g.step e = some (g', eff))
    (hl : tableCall g e = none) : g'.knownNodes = g.knownNodes := by
  cases step_membership h with
  | same _ hknown _ => exact hknown
  | purged hcall _ _ => simp [hcall] at hl
  | heard hbeat _ _ => simp [tableCall, hbeat] at hl
  | connected hknown _ => exact hknown

theorem offer_messageType (port : SubscriberPort) (connects : String → String → Bool)
    (service : GroupService) : (port.offer connects service).messageType = port.messageType := by
  rw [SubscriberPort.offer, SubscriberPort.connectToPublisher]
  split
  · split <;> rfl
  · rfl

theorem offers_messageType (connects : String → String → Bool) (services : List GroupService)
    (port : SubscriberPort) :
    (services.foldl (fun port service => port.offer connects service) port).messageType
      = port.messageType := by
  induction services generalizing port with
  | nil => rfl
  | cons service services ih => rw [List.foldl_cons, ih, offer_messageType]

/-- The endpoints a port is connected to after an update: old ones, and those
of services with the port's message type. -/
theorem mem_endpoints_of_offers {connects : String → String → Bool} {services : List GroupService}
    {port : SubscriberPort} {endpoint : String}
    (h : endpoint ∈
      (services.foldl (fun port service => port.offer connects service) port).endpoints) :
    endpoint ∈ port.endpoints ∨
      ∃ service ∈ services, service.messageType = port.messageType ∧
        endpoint = "tcp://" ++ service.address := by
  induction services generalizing port with
  | nil => exact .inl h
  | cons service services ih =>
    rw [List.foldl_cons] at h
    rcases ih h with hold | ⟨service', hmem, hty, heq⟩
    · rw [SubscriberPort.offer, SubscriberPort.connectToPublisher] at hold
      split at hold
      · rename_i hmatch
        split at hold
        · rcases Finset.mem_insert.mp hold with hnew | hold
          · exact .inr ⟨service, List.mem_cons_self, hmatch.symm, hnew⟩
          · exact .inl hold
        · exact .inl hold
      · exact .inl hold
    · exact .inr ⟨service', List.mem_cons_of_mem _ hmem, hty.trans (offer_messageType _ _ _), heq⟩

end Group

end Riaps
