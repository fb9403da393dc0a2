/-
What a group sends and what it calls, message by message.

`Emits` and `Sends` list every message that a call of the `GroupLead` and an
event of a group can send, with the guard under which the source sends it;
`Makes` lists the callbacks that a received message can lead to.  Two
consequences for whole groups:

* `members_survive` — the two unchecked pointers of `FetchNextMessage()`, the
  `GroupLead` of a group without leader and the missing frame of a proposed
  value, are never met: in a group whose members agree on having a leader, every
  message in flight can be handled;
* `deliveries_le` — handling a message sends at most one message, of a lower
  `depth`, so that the messages sent by calls bound the deliveries of a run.
-/
import RiapsCore.GroupNet
import RiapsCore.ConsensusSteps

open Runs

namespace Riaps

/-! ### The messages of a `GroupLead` -/

namespace GroupLead

/-- The messages that a call can send: those of an election, announcements, and
the proposal that the call has just registered. -/
inductive Emits (gl : GroupLead) : Input → GroupMsg → Prop
  | election {i : Input} {m : GroupMsg} {e : LeaderElection} :
      m.election = some e → Emits gl i m
  | announcement {i : Input} {m : GroupMsg} {d : String × VoteResults} :
      m.announced = some d → Emits gl i m
  | value {now : ℤ} {known : KnownNodes} {isAction : Bool} {proposeId : String}
      {frame : Option Frame} :
      gl.getLeaderId = gl.componentId →
      Emits gl (.propose now known isAction proposeId frame)
        (gl.proposeToClients .value proposeId {} frame)
  | action {now : ℤ} {known : KnownNodes} {proposeId : String} {tsca : TimeSyncCoordA} :
      gl.getLeaderId = gl.componentId →
      Emits gl (.actionPropose now known proposeId tsca)
        (gl.proposeToClients .action proposeId tsca none)

variable {gl : GroupLead} {i : Input} {m : GroupMsg}

/-- The three kinds of messages that come from a `GroupLead`. -/
theorem Emits.kind (h : Emits gl i m) :
    m.election ≠ none ∨ m.announced ≠ none ∨ m.forwarded ≠ none := by
  cases h with
  | election hle => exact .inl (by simp [hle])
  | announcement hd => exact .inr (.inl (by simp [hd]))
  | value _ => exact .inr (.inr (by simp [proposeToClients, GroupMsg.forwarded]))
  | action _ => exact .inr (.inr (by simp [proposeToClients, GroupMsg.forwarded]))

/-- What an election message is answered with: a vote for a request, and the
first heartbeat of a new leader for a vote. -/
theorem updateMessage_out (gl : GroupLead) (now : ℤ) (timeo : ElectionTimeo)
    (le : LeaderElection) :
    (gl.updateMessage now timeo le).2 = [] ∨
      (∃ req, le.requestForVoteReq = some req ∧
        ∃ gl', (gl.updateMessage now timeo le).2 = [sendVote gl' req.sourceComponentId]) ∨
      ∃ rep, le.requestForVoteReq = none ∧ le.requestForVoteRep = some rep ∧
        ∃ gl', (gl.updateMessage now timeo le).2 = [sendAppendEntry gl'] := by
  rw [updateMessage]
  rcases hreq : le.requestForVoteReq with _ | req
  · rcases hs : gl.currentState with _ | _ | _
    · left
      rcases le.appendEntry with _ | entry <;> rfl
    · rcases hrep : le.requestForVoteRep with _ | rep
      · exact .inl rfl
      · simp only [onVoteRep]
        split
        · split
          · exact .inr (.inr ⟨rep, trivial, rfl, _, rfl⟩)
          · exact .inl rfl
        · exact .inl rfl
    · left
      rcases le.appendEntry with _ | entry <;> rfl
  · have hother : (gl.onVoteReqOther timeo req).2 = [] ∨
        ∃ gl', (gl.onVoteReqOther timeo req).2 = [sendVote gl' req.sourceComponentId] := by
      rw [onVoteReqOther]
      split
      · exact .inr ⟨_, rfl⟩
      · exact .inl rfl
    have hfollower : (gl.onVoteReqFollower timeo req).2 = [] ∨
        ∃ gl', (gl.onVoteReqFollower timeo req).2 = [sendVote gl' req.sourceComponentId] := by
      rw [onVoteReqFollower]
      split
      · exact .inr ⟨_, rfl⟩
      · exact .inl rfl
    rcases hs : gl.currentState with _ | _ | _
    · exact hfollower.imp_right fun h => .inl ⟨req, rfl, h⟩
    · exact hother.imp_right fun h => .inl ⟨req, rfl, h⟩
    · exact hother.imp_right fun h => .inl ⟨req, rfl, h⟩

/-- A vote on a proposal is answered with at most one announcement. -/
theorem onVote_out (gl : GroupLead) (now : ℤ) (proposeId : String) (result : VoteResults)
    (source : String) :
    (gl.onVote now proposeId result source).2 = [] ∨
      ∃ r, (gl.onVote now proposeId result source).2 = [announce proposeId r] := by
  rw [onVote]
  rcases gl.proposeData.lookup proposeId with _ | pd
  · exact .inl rfl
  · simp only
    split
    · exact .inr ⟨.rejected, rfl⟩
    split
    · exact .inl rfl
    split
    · exact .inr ⟨.accepted, rfl⟩
    split
    · exact .inr ⟨.rejected, rfl⟩
    · exact .inl rfl

/-- A proposal is forwarded by one message, or not at all. -/
theorem onPropose_out (gl : GroupLead) (now : ℤ) (known : KnownNodes) (isAction : Bool)
    (proposeId : String) (frame : Option Frame) :
    (gl.onProposeFromClient now known isAction proposeId frame).2 = [] ∨
      gl.getLeaderId = gl.componentId ∧
        (gl.onProposeFromClient now known isAction proposeId frame).2
          = [gl.proposeToClients .value proposeId {} frame] := by
  rw [onProposeFromClient]
  by_cases hid : gl.getLeaderId = gl.componentId
  · rw [if_neg (by simpa using hid)]
    exact .inr ⟨hid, rfl⟩
  · rw [if_pos hid]
    exact .inl rfl

theorem onActionPropose_out (gl : GroupLead) (now : ℤ) (known : KnownNodes)
    (proposeId : String) (tsca : TimeSyncCoordA) :
    (gl.onActionProposeFromClient now known proposeId tsca).2 = [] ∨
      gl.getLeaderId = gl.componentId ∧
        (gl.onActionProposeFromClient now known proposeId tsca).2
          = [gl.proposeToClients .action proposeId tsca none] := by
  rw [onActionProposeFromClient]
  by_cases hid : gl.getLeaderId = gl.componentId
  · rw [if_neg (by simpa using hid)]
    split
    · exact .inl rfl
    · exact .inr ⟨hid, rfl⟩
  · rw [if_pos hid]
    exact .inl rfl

theorem emits_update {now : ℤ} {known : KnownNodes} (hm : m ∈ (gl.update now known).2.2) :
    Emits gl (.update now known) m := by
  rw [update] at hm
  rcases hs : gl.currentState with _ | _ | _
  · simp only [hs] at hm
    split at hm
    · rw [List.mem_singleton.mp hm]
      exact .election rfl
    · simp at hm
  · simp only [hs] at hm
    split at hm <;> simp at hm
  · simp only [hs] at hm
    split at hm
    · rw [List.mem_singleton.mp hm]
      exact .election rfl
    · obtain ⟨proposeId, -, rfl⟩ := List.mem_map.mp hm
      exact .announcement rfl

/-- **Every message of a call is one of the listed.** -/
theorem emits_of_mem (hm : m ∈ (gl.step i).2) : Emits gl i m := by
  cases i with
  | update now known => exact emits_update hm
  | message now timeo le =>
    rw [step] at hm
    rcases updateMessage_out gl now timeo le with h | ⟨req, -, gl', h⟩ | ⟨rep, -, -, gl', h⟩
    · simp [h] at hm
    · rw [h] at hm
      rw [List.mem_singleton.mp hm]
      exact .election rfl
    · rw [h] at hm
      rw [List.mem_singleton.mp hm]
      exact .election rfl
  | actionPropose now known proposeId tsca =>
    rw [step] at hm
    rcases onActionPropose_out gl now known proposeId tsca with h | ⟨hid, h⟩
    · simp [h] at hm
    · rw [h] at hm
      rw [List.mem_singleton.mp hm]
      exact .action hid
  | propose now known isAction proposeId frame =>
    rw [step] at hm
    rcases onPropose_out gl now known isAction proposeId frame with h | ⟨hid, h⟩
    · simp [h] at hm
    · rw [h] at hm
      rw [List.mem_singleton.mp hm]
      exact .value hid
  | vote now proposeId result source =>
    rw [step] at hm
    rcases onVote_out gl now proposeId result source with h | ⟨r, h⟩
    · simp [h] at hm
    · rw [h] at hm
      rw [List.mem_singleton.mp hm]
      exact .announcement rfl

end GroupLead

/-! ### The messages and callbacks of a group -/

namespace Group

/-- The messages that an event can send. -/
inductive Sends (g : Group) : Event → GroupMsg → Prop
  | lead {e : Event} {i : GroupLead.Input} {m : GroupMsg} :
      leadInput g e = some i → GroupLead.Emits g.groupLeader i m → Sends g e m
  | heartBeat {e : Event} {type : HeartBeatType} : Sends g e (g.sendHeartBeat type)
  | message {f : Frame} :
      Sends g (.call (.message f)) ⟨.groupMessage g.parentComponentId, some f⟩
  | leaderMessage {f : Frame} :
      g.leaderId = g.parentComponentId →
      Sends g (.call (.leaderMessage f)) ⟨.groupMessage g.parentComponentId, some f⟩
  | messageToLeader {f : Frame} :
      g.leaderId ≠ "" →
      Sends g (.call (.messageToLeader f)) ⟨.messageToLeader g.parentComponentId, some f⟩
  | proposeValue {f : Frame} {p : String} :
      g.leaderId ≠ "" →
      Sends g (.call (.proposeValue f p))
        ⟨.consensus ⟨g.parentComponentId, .value, .proposeToLeader p, {}⟩, some f⟩
  | proposeAction {p a : String} {absTime : Timespec} :
      g.leaderId ≠ "" →
      Sends g (.call (.proposeAction p a absTime))
        ⟨.consensus ⟨g.parentComponentId, .action, .proposeToLeader p,
          ⟨a, ⟨absTime.tvSec.toInt32, absTime.tvNsec.toInt32⟩⟩⟩, none⟩
  | vote {p : String} {accept : Bool} :
      Sends g (.call (.vote p accept))
        ⟨.consensus ⟨g.parentComponentId, .value,
          .vote p (if accept then .accepted else .rejected), {}⟩, none⟩

/-- The callbacks that handling a message can make. -/
inductive Makes (g : Group) : GroupMsg → Callback → Prop
  | groupMessage {source : String} {f : Frame} :
      Makes g ⟨.groupMessage source, some f⟩ (.onGroupMessage f)
  | messageToLeader {source : String} {f : Frame} :
      g.leaderId = g.parentComponentId →
      Makes g ⟨.messageToLeader source, some f⟩ (.onMessageToLeader f)
  | value {source p leader : String} {tsca : TimeSyncCoordA} {f : Frame} :
      g.leaderId ≠ g.parentComponentId →
      Makes g ⟨.consensus ⟨source, .value, .proposeToClients p leader, tsca⟩, some f⟩
        (.onPropose p f)
  | action {source p leader : String} {tsca : TimeSyncCoordA} {frame : Option Frame} :
      g.leaderId ≠ g.parentComponentId →
      Makes g ⟨.consensus ⟨source, .action, .proposeToClients p leader, tsca⟩, frame⟩
        (.onActionPropose p tsca.actionId ⟨tsca.time.tvSec.toInt64, tsca.time.tvNsec.toInt64⟩)
  | announcement {source p : String} {type : VoteType} {r : VoteResults} {tsca : TimeSyncCoordA}
      {frame : Option Frame} :
      g.leaderId ≠ g.parentComponentId →
      Makes g ⟨.consensus ⟨source, type, .announce p r, tsca⟩, frame⟩
        (.onAnnounce p (r = .accepted))

variable {g g' : Group} {e : Event} {eff : Effects} {m : GroupMsg} {cb : Callback}

/-- A function that checks for the leader before it sends. -/
theorem mem_guarded {P : Prop} [Decidable P] {out : GroupMsg}
    (hm : m ∈ if P then [] else [out]) : ¬ P ∧ m = out := by
  by_cases hP : P
  · rw [if_pos hP] at hm
    simp at hm
  · rw [if_neg hP] at hm
    exact ⟨hP, List.mem_singleton.mp hm⟩

theorem sends_perform {c : Call} (hm : m ∈ (g.perform c).2.sent) : Sends g (.call c) m := by
  cases c with
  | poll now =>
    rw [perform, poll] at hm
    by_cases hl : g.hasLeader
    · rw [if_pos hl] at hm
      refine .lead (i := .update now g.knownNodes) (by simp [leadInput, hl]) ?_
      exact GroupLead.emits_update hm
    · rw [if_neg hl] at hm
      simp at hm
  | connect connects services => simp [perform] at hm
  | memberCount now => simp [perform] at hm
  | ping now =>
    rw [List.mem_singleton.mp hm]
    exact .heartBeat
  | pingWithPeriod now =>
    rw [perform, sendPingWithPeriod] at hm
    split at hm
    · rw [List.mem_singleton.mp hm]
      exact .heartBeat
    split at hm
    · rw [List.mem_singleton.mp hm]
      exact .heartBeat
    · simp at hm
  | message f =>
    rw [List.mem_singleton.mp hm]
    exact .message
  | messageToLeader f =>
    obtain ⟨hid, rfl⟩ := mem_guarded hm
    exact .messageToLeader hid
  | leaderMessage f =>
    obtain ⟨hid, rfl⟩ := mem_guarded hm
    exact .leaderMessage (not_ne_iff.mp hid)
  | proposeValue f p =>
    obtain ⟨hid, rfl⟩ := mem_guarded hm
    exact .proposeValue hid
  | proposeAction p a absTime =>
    obtain ⟨hid, rfl⟩ := mem_guarded hm
    exact .proposeAction hid
  | vote p accept =>
    rw [List.mem_singleton.mp hm]
    exact .vote

/-- **Every message of an event is one of the listed.** -/
theorem sends_of_mem (h : g.step e = some (g', eff)) (hm : m ∈ eff.sent) : Sends g e m := by
  cases e with
  | call c =>
    obtain ⟨-, rfl⟩ := Prod.mk.inj (Option.some.inj h)
    exact sends_perform hm
  | receive now draws m' =>
    cases receive_cases h with
    | driven hi _ => exact .lead hi (GroupLead.emits_of_mem hm)
    | heard _ _ hpong =>
      rw [hpong m hm]
      exact .heartBeat
    | silent _ _ hsent => simp [hsent] at hm

theorem makes_memberCallbacks {c : Consensus} {frame : Option Frame} {cbs : List Callback}
    (hid : g.leaderId ≠ g.parentComponentId) (h : memberCallbacks c frame = some cbs)
    (hcb : cb ∈ cbs) : Makes g ⟨.consensus c, frame⟩ cb := by
  obtain ⟨source, type, body, tsca⟩ := c
  cases body with
  | proposeToLeader p =>
    obtain rfl : [] = cbs := by simpa [memberCallbacks] using h
    simp at hcb
  | proposeToClients p leader =>
    cases type with
    | value =>
      obtain ⟨f, rfl, rfl⟩ := Option.map_eq_some_iff.mp h
      rw [List.mem_singleton.mp hcb]
      exact .value hid
    | action =>
      obtain rfl := Option.some.inj h
      rw [List.mem_singleton.mp hcb]
      exact .action hid
  | vote p r =>
    obtain rfl : [] = cbs := by simpa [memberCallbacks] using h
    simp at hcb
  | announce p r =>
    obtain rfl := Option.some.inj h
    rw [List.mem_singleton.mp hcb]
    exact .announcement hid

/-- **Every callback is one of the listed.** -/
theorem makes_of_mem {now : ℤ} {draws : Draws} (h : g.receive now draws m = some (g', eff))
    (hcb : cb ∈ eff.callbacks) : Makes g m cb := by
  obtain ⟨header, frame⟩ := m
  cases header with
  | groupMessage source =>
    obtain ⟨-, rfl⟩ := Prod.mk.inj (Option.some.inj h)
    rcases frame with _ | f
    · simp at hcb
    · obtain rfl : cb = .onGroupMessage f := by simpa using hcb
      exact .groupMessage
  | groupHeartBeat hb =>
    simp only [receive] at h
    split at h
    · obtain ⟨-, rfl⟩ := Prod.mk.inj (Option.some.inj h)
      simp at hcb
    · obtain ⟨-, rfl⟩ := Prod.mk.inj (Option.some.inj h)
      simp at hcb
  | leaderElection le =>
    simp only [receive] at h
    split at h
    · obtain ⟨-, rfl⟩ := Prod.mk.inj (Option.some.inj h)
      simp at hcb
    · simp at h
  | messageToLeader source =>
    simp only [receive] at h
    split at h
    · obtain ⟨-, rfl⟩ := Prod.mk.inj (Option.some.inj h)
      simp at hcb
    · rename_i hid
      obtain ⟨-, rfl⟩ := Prod.mk.inj (Option.some.inj h)
      rcases frame with _ | f
      · simp at hcb
      · obtain rfl : cb = .onMessageToLeader f := by simpa using hcb
        exact .messageToLeader (not_ne_iff.mp hid)
  | consensus c =>
    simp only [receive] at h
    by_cases hid : g.leaderId = g.parentComponentId
    · rw [if_pos hid] at h
      rcases hi : g.leaderCall now draws c frame with _ | i
      · rw [hi] at h
        obtain ⟨-, rfl⟩ := Prod.mk.inj (Option.some.inj h)
        simp at hcb
      · rw [hi] at h
        obtain ⟨-, rfl⟩ := Prod.mk.inj (Option.some.inj h)
        simp at hcb
    · rw [if_neg hid] at h
      obtain ⟨cbs, hcbs, heq⟩ := Option.map_eq_some_iff.mp h
      obtain ⟨-, rfl⟩ := Prod.mk.inj heq
      exact makes_memberCallbacks hid hcbs hcb
  | leaderMessage source =>
    obtain ⟨-, rfl⟩ := Prod.mk.inj (Option.some.inj h)
    simp at hcb

/-! ### No message brings a member down -/

/-- A message that does not make a member use a pointer that is null; `leads`
tells whether the members have a `GroupLead`. -/
def Safe (leads : Bool) (m : GroupMsg) : Prop :=
  match m.header with
  | .leaderElection _ => leads = true
  | .consensus ⟨_, .value, .proposeToLeader _, _⟩ => m.frame.isSome
  | .consensus ⟨_, .value, .proposeToClients _ _, _⟩ => m.frame.isSome
  | _ => True

/-- A group that takes itself for its leader has a `GroupLead`. -/
theorem hasLeader_of_leaderId (h : g.leaderId = g.parentComponentId) : g.hasLeader = true := by
  rcases hl : g.hasLeader with _ | _
  · rw [leaderId, hl] at h
    exact absurd h.symm g.parentComponentId.property
  · rfl

theorem connectToNewServices_hasLeader (g : Group) (connects : String → String → Bool)
    (services : List GroupService) :
    (g.connectToNewServices connects services).hasLeader = g.hasLeader := by
  rw [connectToNewServices]
  induction services generalizing g with
  | nil => rfl
  | cons service services ih => rw [List.foldl_cons, ih]

theorem perform_hasLeader (g : Group) (c : Call) : (g.perform c).1.hasLeader = g.hasLeader := by
  cases c with
  | poll now =>
    rw [perform, poll]
    split <;> rfl
  | connect connects services => exact connectToNewServices_hasLeader g connects services
  | pingWithPeriod now =>
    rw [perform, sendPingWithPeriod]
    split
    · rfl
    split <;> rfl
  | memberCount _ | ping _ | message _ | messageToLeader _ | leaderMessage _ | proposeValue _ _
  | proposeAction _ _ _ | vote _ _ => rfl

theorem step_hasLeader (h : g.step e = some (g', eff)) : g'.hasLeader = g.hasLeader := by
  cases e with
  | call c =>
    obtain ⟨rfl, -⟩ := Prod.mk.inj (Option.some.inj h)
    exact perform_hasLeader g c
  | receive now draws m =>
    cases receive_cases h with
    | driven _ _ | heard _ _ _ | silent _ _ _ => rfl

/-- A safe message is handled. -/
theorem receive_isSome (now : ℤ) (draws : Draws) (hm : Safe g.hasLeader m) :
    (g.receive now draws m).isSome := by
  obtain ⟨header, frame⟩ := m
  cases header with
  | groupMessage source => rfl
  | groupHeartBeat hb =>
    simp only [receive]
    split <;> rfl
  | leaderElection le =>
    have hl : g.hasLeader = true := hm
    simp only [receive, hl, if_true]
    rfl
  | messageToLeader source =>
    simp only [receive]
    split <;> rfl
  | consensus c =>
    simp only [receive]
    by_cases hid : g.leaderId = g.parentComponentId
    · rw [if_pos hid]
      rcases g.leaderCall now draws c frame with _ | i <;> rfl
    · rw [if_neg hid, Option.isSome_map]
      obtain ⟨source, type, body, tsca⟩ := c
      cases body with
      | proposeToLeader p => cases type <;> rfl
      | proposeToClients p leader =>
        cases type with
        | value =>
          rw [memberCallbacks, Option.isSome_map]
          exact hm
        | action => rfl
      | vote p r => cases type <;> rfl
      | announce p r => cases type <;> rfl
  | leaderMessage source => rfl

/-- Only a proposal with its frame leads to `OnProposeFromClient`. -/
theorem leadInput_propose {now : ℤ} {known : KnownNodes} {isAction : Bool} {p : String}
    {frame : Option Frame} (h : leadInput g e = some (.propose now known isAction p frame)) :
    ∃ draws source tsca, e = .receive now draws
      ⟨.consensus ⟨source, .value, .proposeToLeader p, tsca⟩, frame⟩ := by
  rw [leadInput.eq_def] at h
  split at h
  · split at h <;> simp at h
  · simp at h
  · rename_i now' draws c frame'
    split at h
    · obtain ⟨source, type, body, tsca⟩ := c
      cases body with
      | proposeToLeader p' =>
        cases type with
        | value =>
          simp only [leaderCall, Option.some_inj, GroupLead.Input.propose.injEq] at h
          obtain ⟨rfl, -, -, rfl, rfl⟩ := h
          exact ⟨draws, source, tsca, rfl⟩
        | action => simp [leaderCall] at h
      | proposeToClients p' leader => simp [leaderCall] at h
      | vote p' r => simp [leaderCall] at h
      | announce p' r => simp [leaderCall] at h
    · simp at h
  · simp at h

theorem leadInput_actionPropose {now : ℤ} {known : KnownNodes} {p : String}
    {tsca : TimeSyncCoordA} (h : leadInput g e = some (.actionPropose now known p tsca)) :
    ∃ draws source frame, e = .receive now draws
      ⟨.consensus ⟨source, .action, .proposeToLeader p, tsca⟩, frame⟩ := by
  rw [leadInput.eq_def] at h
  split at h
  · split at h <;> simp at h
  · simp at h
  · rename_i now' draws c frame
    split at h
    · obtain ⟨source, type, body, tsca'⟩ := c
      cases body with
      | proposeToLeader p' =>
        cases type with
        | value => simp [leaderCall] at h
        | action =>
          simp only [leaderCall, Option.some_inj, GroupLead.Input.actionPropose.injEq] at h
          obtain ⟨rfl, -, rfl, rfl⟩ := h
          exact ⟨draws, source, frame, rfl⟩
      | proposeToClients p' leader => simp [leaderCall] at h
      | vote p' r => simp [leaderCall] at h
      | announce p' r => simp [leaderCall] at h
    · simp at h
  · simp at h

/-- A call of the `GroupLead` is made by a group that has one, when the message
that leads to it is safe. -/
theorem hasLeader_of_leadInput {i : GroupLead.Input} (h : leadInput g e = some i)
    (he : ∀ now draws m, e = .receive now draws m → Safe g.hasLeader m) : g.hasLeader = true := by
  rw [leadInput.eq_def] at h
  split at h
  · split at h
    · assumption
    · simp at h
  · exact he _ _ _ rfl
  · split at h
    · exact hasLeader_of_leaderId (by assumption)
    · simp at h
  · simp at h

/-- **A group that receives safe messages sends safe messages.** -/
theorem Sends.safe (h : Sends g e m)
    (he : ∀ now draws m, e = .receive now draws m → Safe g.hasLeader m) :
    Safe g.hasLeader m := by
  cases h with
  | lead hi hem =>
    cases hem with
    | election hle =>
      rw [GroupMsg.election] at hle
      split at hle
      · rename_i le' hheader
        rw [Safe, hheader]
        exact hasLeader_of_leadInput hi he
      · simp at hle
    | announcement hd =>
      rw [GroupMsg.announced] at hd
      split at hd
      · rename_i hheader
        simp [Safe, hheader]
      · simp at hd
    | value _ =>
      obtain ⟨draws, source, tsca, heq⟩ := leadInput_propose hi
      have hframe := he _ _ _ heq
      exact hframe
    | action _ => trivial
  | proposeValue _ => exact rfl
  | heartBeat | message | leaderMessage _ | messageToLeader _ | proposeAction _ | vote => trivial

/-! ### What handling a message leads to -/

/-- How many times the handling of a message can lead to another message: a vote
request to a vote and then to the heartbeat of a leader, a vote on a proposal to
an announcement, and so on. -/
def depth (m : GroupMsg) : ℕ :=
  match m.header with
  | .groupHeartBeat ⟨.ping, _⟩ => 1
  | .leaderElection ⟨_, some _, _⟩ => 2
  | .leaderElection ⟨_, none, some _⟩ => 1
  | .consensus ⟨_, _, .proposeToLeader _, _⟩ => 1
  | .consensus ⟨_, _, .vote _ _, _⟩ => 1
  | _ => 0

theorem depth_le (m : GroupMsg) : depth m ≤ 2 := by
  rw [depth]
  split <;> omega

/-- The calls that a leader makes for a consensus message send at most one
message, which leads to nothing more. -/
theorem leaderCall_sent {now : ℤ} {draws : Draws} {c : Consensus} {frame : Option Frame}
    {i : GroupLead.Input} (h : g.leaderCall now draws c frame = some i) :
    (g.groupLeader.step i).2 = [] ∨ ∃ out, (g.groupLeader.step i).2 = [out] ∧
      depth out < depth ⟨.consensus c, frame⟩ := by
  obtain ⟨source, type, body, tsca⟩ := c
  cases body with
  | proposeToLeader p =>
    cases type with
    | value =>
      obtain rfl := Option.some.inj h
      rcases GroupLead.onPropose_out g.groupLeader now g.knownNodes draws.isAction p frame with
        hout | ⟨-, hout⟩
      · exact .inl hout
      · exact .inr ⟨_, hout, Nat.zero_lt_one⟩
    | action =>
      obtain rfl := Option.some.inj h
      rcases GroupLead.onActionPropose_out g.groupLeader now g.knownNodes p tsca with
        hout | ⟨-, hout⟩
      · exact .inl hout
      · exact .inr ⟨_, hout, Nat.zero_lt_one⟩
  | vote p r =>
    obtain rfl : GroupLead.Input.vote now p r source = i := by
      cases type <;> exact Option.some.inj h
    rcases GroupLead.onVote_out g.groupLeader now p r source with hout | ⟨r', hout⟩
    · exact .inl hout
    · exact .inr ⟨_, hout, Nat.zero_lt_one⟩
  | proposeToClients p leader => cases type <;> simp [leaderCall] at h
  | announce p r => cases type <;> simp [leaderCall] at h

/-- **Handling a message sends at most one message, of a lower depth.** -/
theorem receive_sent {now : ℤ} {draws : Draws} (h : g.receive now draws m = some (g', eff)) :
    eff.sent = [] ∨ ∃ out, eff.sent = [out] ∧ depth out < depth m := by
  obtain ⟨header, frame⟩ := m
  cases header with
  | groupMessage source | leaderMessage source =>
    obtain ⟨-, rfl⟩ := Prod.mk.inj (Option.some.inj h)
    exact .inl rfl
  | groupHeartBeat hb =>
    obtain ⟨type, source⟩ := hb
    cases type with
    | ping =>
      obtain ⟨-, rfl⟩ := Prod.mk.inj (Option.some.inj h)
      exact .inr ⟨_, rfl, Nat.zero_lt_one⟩
    | pong =>
      obtain ⟨-, rfl⟩ := Prod.mk.inj (Option.some.inj h)
      exact .inl rfl
  | leaderElection le =>
    simp only [receive] at h
    split at h
    · obtain ⟨-, rfl⟩ := Prod.mk.inj (Option.some.inj h)
      rcases GroupLead.updateMessage_out g.groupLeader now draws.electionTimeo le with
        hout | ⟨req, hreq, gl, hout⟩ | ⟨rep, hreq, hrep, gl, hout⟩
      · exact .inl hout
      · refine .inr ⟨_, hout, ?_⟩
        obtain ⟨entry, req', rep⟩ := le
        obtain rfl : req' = some req := hreq
        show 1 < 2
        omega
      · refine .inr ⟨_, hout, ?_⟩
        obtain ⟨entry, req', rep'⟩ := le
        obtain rfl : req' = none := hreq
        obtain rfl : rep' = some rep := hrep
        show 0 < 1
        omega
    · simp at h
  | messageToLeader source =>
    simp only [receive] at h
    split at h
    · obtain ⟨-, rfl⟩ := Prod.mk.inj (Option.some.inj h)
      exact .inl rfl
    · obtain ⟨-, rfl⟩ := Prod.mk.inj (Option.some.inj h)
      exact .inl rfl
  | consensus c =>
    simp only [receive] at h
    by_cases hid : g.leaderId = g.parentComponentId
    · rw [if_pos hid] at h
      rcases hi : g.leaderCall now draws c frame with _ | i
      · rw [hi] at h
        obtain ⟨-, rfl⟩ := Prod.mk.inj (Option.some.inj h)
        exact .inl rfl
      · rw [hi] at h
        obtain ⟨-, rfl⟩ := Prod.mk.inj (Option.some.inj h)
        exact leaderCall_sent hi
    · rw [if_neg hid] at h
      obtain ⟨cbs, -, heq⟩ := Option.map_eq_some_iff.mp h
      obtain ⟨-, rfl⟩ := Prod.mk.inj heq
      exact .inl rfl

end Group

namespace GroupNet

open GroupLead (compA compB)

variable {members : Finset ComponentUuid} {s s' s₀ : GroupNet} {l : Label}
  {tr : List (Transition GroupNet Label)} {leads : Bool}

/-- What can happen in a group: a call at a member, the arrival of the oldest
message of a channel between members, or a loss. -/
def Possible (members : Finset ComponentUuid) (s : GroupNet) : Label → Prop
  | .act c _ => c ∈ members
  | .deliver src dst _ _ => src ∈ members ∧ dst ∈ members ∧ s.chan src dst ≠ []
  | .lose _ _ _ => True

/-- The members agree on having a leader, and only safe messages are in flight. -/
structure Safe (members : Finset ComponentUuid) (leads : Bool) (s : GroupNet) : Prop where
  hasLeader : ∀ c ∈ members, (s.node c).hasLeader = leads
  chan : ∀ a b, ∀ m ∈ s.chan a b, Group.Safe leads m

theorem Safe.step (hI : Safe members leads s) (h : step members s l = some s') :
    Safe members leads s' := by
  -- what a member handles is a call or comes out of a channel
  have hevent : ∀ c e, eventOf s l = some (c, e) →
      ∀ now draws m, e = .receive now draws m → Group.Safe leads m := by
    rintro c e he now draws m rfl
    cases l with
    | act c' call => simp [eventOf] at he
    | deliver src dst now' draws' =>
      obtain ⟨m', hm', heq⟩ := Option.map_eq_some_iff.mp he
      simp only [Prod.mk.injEq, Group.Event.receive.injEq] at heq
      obtain ⟨-, -, -, rfl⟩ := heq
      exact hI.chan src dst _ (List.mem_of_mem_head? hm')
    | lose src dst k => simp [eventOf] at he
  constructor
  · intro c hc
    rcases hv : view c s l with _ | e
    · rw [node_of_view_none h hv]
      exact hI.hasLeader c hc
    · obtain ⟨-, eff, hg, -, -⟩ := step_of_eventOf h (view_eq_some.mp hv)
      rw [Group.step_hasLeader hg]
      exact hI.hasLeader c hc
  · intro a b m hm
    rcases step_chan h hm with hold | ⟨hv, hnew⟩
    · exact hI.chan a b m hold
    · obtain ⟨e, he⟩ := Option.isSome_iff_exists.mp hv
      obtain ⟨ha, eff, hg, hout, -⟩ := step_of_eventOf h (view_eq_some.mp he)
      rw [hout] at hnew
      have hsend := Group.sends_of_mem hg hnew
      rw [← hI.hasLeader a ha]
      refine hsend.safe fun now draws m' hm' => ?_
      rw [hI.hasLeader a ha]
      exact hevent a e (view_eq_some.mp he) now draws m' hm'

theorem safe_start (h₀ : Initial s₀) (hleads : ∀ c ∈ members, (s₀.node c).hasLeader = leads) :
    Safe members leads s₀ := by
  refine ⟨hleads, fun a b m hm => ?_⟩
  rw [h₀.chan] at hm
  simp [Channels.empty] at hm

theorem Safe.run (hI : Safe members leads s₀) (h : Run (GroupNet.step members) s₀ tr s) :
    Safe members leads s :=
  (h.invariant (Safe members leads) (fun _ _ => True) hI
    (fun _ _ _ _ hI hs => hI.step hs) fun _ _ => trivial).1

/-- Whatever can happen does. -/
theorem Safe.exists_step (hI : Safe members leads s) (hl : Possible members s l) :
    ∃ s', GroupNet.step members s l = some s' := by
  cases l with
  | act c call =>
    have hc : c ∈ members := hl
    rw [GroupNet.step, if_pos hc]
    exact ⟨_, rfl⟩
  | deliver src dst now draws =>
    obtain ⟨hsrc, hdst, hne⟩ := hl
    rw [GroupNet.step, if_pos ⟨hsrc, hdst⟩]
    rcases hch : s.chan src dst with _ | ⟨m, rest⟩
    · exact absurd hch hne
    · have hm : Group.Safe (s.node dst).hasLeader m := by
        rw [hI.hasLeader dst hdst]
        exact hI.chan src dst m (by rw [hch]; exact List.mem_cons_self)
      have hsome := Group.receive_isSome now draws hm
      refine Option.isSome_iff_exists.mp ?_
      simp only [handle, Option.isSome_map]
      exact hsome
  | lose src dst k => exact ⟨_, rfl⟩

/-- **No message brings a member down.**  In a group whose members all have a
`GroupLead` or all have none, no call and no message that can arrive ends the
process of a member, whatever has happened before. -/
theorem members_survive (h₀ : Initial s₀) (hleads : ∀ c ∈ members, (s₀.node c).hasLeader = leads)
    (h : Run (step members) s₀ tr s) (hl : Possible members s l) :
    ∃ s', step members s l = some s' :=
  ((safe_start h₀ hleads).run h).exists_step hl

/-- The vote request of `a` reaches `b`. -/
theorem members_survive_request :
    ∃ tr s, Run (step trio) (startTrio peers) tr s ∧ s.chan compA compB ≠ [] ∧
      ∃ s', step trio s (deliverAt compA compB 165) = some s' := by
  obtain ⟨tr, s, hrun, hne⟩ :=
    exists_run_of_replay (step trio) (startTrio peers) (fun _ s => s.chan compA compB ≠ [])
      [pollAt compA 160] (by decide)
  have hleads : ∀ c ∈ trio, ((startTrio peers).node c).hasLeader = true := fun _ _ => rfl
  exact ⟨tr, s, hrun, hne, members_survive (initial_startTrio peers) hleads hrun
    ⟨by decide, by decide, hne⟩⟩

/-! ### No message storms -/

/-- The deliveries that a message of the given depth can cause in a group of `n`,
its own included, when every message is broadcast to `n` members. -/
def weight (n : ℕ) : ℕ → ℕ
  | 0 => 1
  | d + 1 => 1 + n * weight n d

theorem weight_mono (n : ℕ) : Monotone (weight n) := by
  refine monotone_nat_of_le_succ fun d => ?_
  induction d with
  | zero =>
    show 1 ≤ 1 + _
    omega
  | succ d ih =>
    have hmul := Nat.mul_le_mul_left n ih
    show 1 + n * weight n d ≤ 1 + n * weight n (d + 1)
    omega

/-- The deliveries that a message can cause in a group. -/
def cost (members : Finset ComponentUuid) (m : GroupMsg) : ℕ :=
  weight members.card (Group.depth m)

/-- The most that a message can cost. -/
def maxCost (members : Finset ComponentUuid) : ℕ := 1 + members.card + members.card ^ 2

theorem cost_le (members : Finset ComponentUuid) (m : GroupMsg) :
    cost members m ≤ maxCost members := by
  refine (weight_mono _ (Group.depth_le m)).trans (le_of_eq ?_)
  show 1 + members.card * (1 + members.card * 1) = 1 + members.card + members.card ^ 2
  rw [Nat.mul_one, Nat.mul_add, Nat.mul_one, sq, Nat.add_assoc]

/-- What the messages in flight between the members can still cause. -/
def outstanding (members : Finset ComponentUuid) (s : GroupNet) : ℕ :=
  s.chan.load (cost members) members

/-- The step is the arrival of a message. -/
def Label.isDelivery : Label → Bool
  | .deliver _ _ _ _ => true
  | _ => false

/-- The number of messages that the step sends, unless they are sent on the
arrival of a message. -/
def sentByCall (s : GroupNet) : Label → ℕ
  | .act c call => (outputs s (.act c call)).length
  | _ => 0

/-- The number of deliveries in a run. -/
def deliveries (tr : List (Transition GroupNet Label)) : ℕ :=
  tr.countP fun t => t.label.isDelivery

/-- The number of messages that the calls of a run have sent. -/
def sentByCalls (tr : List (Transition GroupNet Label)) : ℕ :=
  (tr.map fun t => sentByCall t.pre t.label).sum

theorem sum_cost_le (members : Finset ComponentUuid) (ms : List GroupMsg) :
    (ms.map (cost members)).sum ≤ ms.length * maxCost members := by
  have hle := List.sum_le_card_nsmul (ms.map (cost members)) (maxCost members) fun x hx => by
    obtain ⟨m, -, rfl⟩ := List.mem_map.mp hx
    exact cost_le members m
  simpa using hle

/-- **One step.**  A delivery takes away more than it causes; only calls add. -/
theorem step_outstanding (h : step members s l = some s') :
    (if l.isDelivery then 1 else 0) + outstanding members s'
      ≤ outstanding members s + members.card * maxCost members * sentByCall s l := by
  cases step_cases h with
  | @acted c call g eff hc hg =>
    have hcall : sentByCall s (.act c call) = eff.sent.length := by
      simp [sentByCall, outputs, eventOf, hg]
    have hload := Channels.load_broadcast (cost members) s.chan eff.sent hc
    have hsum := Nat.mul_le_mul_left members.card (sum_cost_le members eff.sent)
    rw [hcall, Nat.mul_assoc, Nat.mul_comm (maxCost members), outstanding, outstanding, hload]
    show 0 + _ ≤ _
    omega
  | @delivered src dst now draws m rest g eff hsrc hdst hch hg =>
    have hload := Channels.load_broadcast (cost members) (s.chan.remove src dst 0) eff.sent hdst
    have hdeliver := Channels.load_deliver (cost members) hsrc hdst hch
    -- what the message causes is less than what it was accounted for
    have hless : members.card * (eff.sent.map (cost members)).sum + 1 ≤ cost members m := by
      rcases Group.receive_sent hg with hnil | ⟨out, hout, hlt⟩
      · rw [hnil]
        exact weight_mono _ (Nat.zero_le _)
      · have hmono : weight members.card (Group.depth out + 1) ≤ cost members m :=
          weight_mono _ hlt
        rw [hout, List.map_singleton, List.sum_singleton, Nat.add_comm]
        exact hmono
    rw [outstanding, outstanding, hload]
    show 1 + _ ≤ _
    omega
  | @lost src dst k =>
    have hle : outstanding members ⟨s.node, s.chan.remove src dst k⟩ ≤ outstanding members s :=
      Channels.load_remove_le (cost members) members s.chan src dst k
    show 0 + _ ≤ _ + _ * 0
    omega

/-- **No message storms.**  In a group of `n` members, a message that a call
sends causes at most `n * (1 + n + n ^ 2)` deliveries, all answers to it and to
them included; what is still in flight is within the bound as well. -/
theorem deliveries_le (h₀ : Initial s₀) (h : Run (step members) s₀ tr s) :
    deliveries tr + outstanding members s
      ≤ members.card * maxCost members * sentByCalls tr := by
  induction h with
  | nil =>
    rw [outstanding, h₀.chan, Channels.load_empty]
    exact Nat.le_of_eq rfl
  | @snoc tr s s' l _ hs ih =>
    have hstep := step_outstanding hs
    have hcount : deliveries (tr ++ [⟨s, l, s'⟩])
        = deliveries tr + if l.isDelivery then 1 else 0 := by
      rw [deliveries, List.countP_append, List.countP_singleton, deliveries]
    have hcalls : sentByCalls (tr ++ [⟨s, l, s'⟩]) = sentByCalls tr + sentByCall s l := by
      simp [sentByCalls]
    rw [hcount, hcalls, Nat.mul_add]
    omega

/-- No message is in flight between members. -/
def Settled (members : Finset ComponentUuid) (s : GroupNet) : Prop :=
  ∀ a ∈ members, ∀ b ∈ members, s.chan a b = []

/-- **A group comes to rest.**  Delivering what is in flight leads to a state in
which nothing is, in at most as many steps as the messages in flight can cause. -/
theorem Safe.settle (hI : Safe members leads s) :
    ∃ tr s', Run (GroupNet.step members) s tr s' ∧ (∀ t ∈ tr, t.label.isDelivery) ∧
      tr.length ≤ outstanding members s ∧ Settled members s' := by
  induction hn : outstanding members s using Nat.strong_induction_on generalizing s with
  | _ n ih =>
    by_cases hsettled : Settled members s
    · exact ⟨[], s, .nil, by simp, by simp, hsettled⟩
    · simp only [Settled, not_forall] at hsettled
      obtain ⟨a, ha, b, hb, hne⟩ := hsettled
      obtain ⟨s', hs⟩ := hI.exists_step (l := deliverAt a b 0) ⟨ha, hb, hne⟩
      have hless := step_outstanding hs
      rw [if_pos (show (deliverAt a b 0).isDelivery = true from rfl)] at hless
      have hcall : sentByCall s (deliverAt a b 0) = 0 := rfl
      rw [hcall, Nat.mul_zero] at hless
      obtain ⟨tr, s'', hrun, hall, hlen, hrest⟩ := ih _ (by omega) (hI.step hs) rfl
      refine ⟨⟨s, _, s'⟩ :: tr, s'', .cons hs hrun, ?_, ?_, hrest⟩
      · intro t ht
        rcases List.mem_cons.mp ht with rfl | ht
        · rfl
        · exact hall t ht
      · rw [List.length_cons]
        omega

/-- A vote request and the vote for it. -/
theorem deliveries_le_election :
    ∃ tr s, Run (step trio) (startTrio peers) tr s ∧ deliveries tr = 2 ∧ sentByCalls tr = 1 ∧
      deliveries tr + outstanding trio s ≤ trio.card * maxCost trio * sentByCalls tr := by
  obtain ⟨tr, s, hrun, hdel, hsent⟩ :=
    exists_run_of_replay (step trio) (startTrio peers)
      (fun tr _ => deliveries tr = 2 ∧ sentByCalls tr = 1)
      [pollAt compA 160, deliverAt compA compB 165, deliverAt compB compA 170] (by decide)
  exact ⟨tr, s, hrun, hdel, hsent, deliveries_le (initial_startTrio peers) hrun⟩

end GroupNet

end Riaps
