/-
Where the callbacks of a group come from.

The handlers of a component are called with data from other components: a frame,
a proposal, a decision.  Followed back along a run, each callback ends at the
call that some member has made with the same data, and what passes through a
leader has passed through a component that was elected:

* `callback_origin` — every callback of every run has such an origin;
* `received_append` — what a component has received from another is, with what is
  still in flight, a part of what that one has sent, in the order of sending, and
  all of it when nothing was lost;
* `groupMessages_in_order` — hence the frames of group messages are handed over
  in the order in which they were sent, each at most once.
-/
import RiapsCore.GroupTraffic
import RiapsCore.Leadership
import RiapsCore.Agreement

open Runs

namespace Riaps

/-! ### Which event sends a given message -/

namespace Group

variable {g : Group} {e : Event} {m : GroupMsg}

theorem Sends.of_groupMessage {source : String} (h : Sends g e m)
    (hm : m.header = .groupMessage source) :
    ∃ f, m.frame = some f ∧ (e = .call (.message f) ∨
      e = .call (.leaderMessage f) ∧ g.leaderId = g.parentComponentId) := by
  cases h with
  | lead _ hem => exact absurd hem.kind (by simp [GroupMsg.election, GroupMsg.announced,
      GroupMsg.forwarded, hm])
  | heartBeat => simp [sendHeartBeat] at hm
  | message => exact ⟨_, rfl, .inl rfl⟩
  | leaderMessage hid => exact ⟨_, rfl, .inr ⟨rfl, hid⟩⟩
  | messageToLeader _ | proposeValue _ | proposeAction _ | vote => simp at hm

theorem Sends.of_messageToLeader {source : String} (h : Sends g e m)
    (hm : m.header = .messageToLeader source) :
    ∃ f, m.frame = some f ∧ e = .call (.messageToLeader f) ∧ g.leaderId ≠ "" := by
  cases h with
  | lead _ hem => exact absurd hem.kind (by simp [GroupMsg.election, GroupMsg.announced,
      GroupMsg.forwarded, hm])
  | heartBeat => simp [sendHeartBeat] at hm
  | messageToLeader hid => exact ⟨_, rfl, rfl, hid⟩
  | message | leaderMessage _ | proposeValue _ | proposeAction _ | vote => simp at hm

/-- A proposal to the leader is sent by a call with its id and its content. -/
theorem Sends.of_proposeToLeader {source p : String} {type : VoteType} {tsca : TimeSyncCoordA}
    (h : Sends g e m) (hm : m.header = .consensus ⟨source, type, .proposeToLeader p, tsca⟩) :
    g.leaderId ≠ "" ∧
      ((type = .value ∧ ∃ f, m.frame = some f ∧ e = .call (.proposeValue f p)) ∨
        type = .action ∧ ∃ a absTime, e = .call (.proposeAction p a absTime) ∧
          tsca = ⟨a, ⟨absTime.tvSec.toInt32, absTime.tvNsec.toInt32⟩⟩) := by
  cases h with
  | lead _ hem => exact absurd hem.kind (by simp [GroupMsg.election, GroupMsg.announced,
      GroupMsg.forwarded, hm])
  | heartBeat => simp [sendHeartBeat] at hm
  | proposeValue hid =>
    simp only [GroupInternals.consensus.injEq, Consensus.mk.injEq,
      ConsensusBody.proposeToLeader.injEq] at hm
    obtain ⟨-, rfl, rfl, -⟩ := hm
    exact ⟨hid, .inl ⟨rfl, _, rfl, rfl⟩⟩
  | proposeAction hid =>
    simp only [GroupInternals.consensus.injEq, Consensus.mk.injEq,
      ConsensusBody.proposeToLeader.injEq] at hm
    obtain ⟨-, rfl, rfl, rfl⟩ := hm
    exact ⟨hid, .inr ⟨rfl, _, _, rfl, rfl⟩⟩
  | message | leaderMessage _ | messageToLeader _ | vote => simp at hm

/-- A forwarded proposal is sent by the component that has just received it and
takes itself for the leader. -/
theorem Sends.of_proposeToClients {source p leader : String} {type : VoteType}
    {tsca : TimeSyncCoordA} (h : Sends g e m)
    (hm : m.header = .consensus ⟨source, type, .proposeToClients p leader, tsca⟩) :
    g.groupLeader.getLeaderId = g.groupLeader.componentId ∧
      ((type = .value ∧ ∃ now known isAction,
        leadInput g e = some (.propose now known isAction p m.frame)) ∨
        type = .action ∧ ∃ now known, leadInput g e = some (.actionPropose now known p tsca)) := by
  cases h with
  | lead hi hem =>
    cases hem with
    | election hle => simp [GroupMsg.election, hm] at hle
    | announcement hd => simp [GroupMsg.announced, hm] at hd
    | value hid =>
      simp only [GroupLead.proposeToClients, GroupInternals.consensus.injEq, Consensus.mk.injEq,
        ConsensusBody.proposeToClients.injEq] at hm
      obtain ⟨-, rfl, ⟨rfl, -⟩, -⟩ := hm
      exact ⟨hid, .inl ⟨rfl, _, _, _, hi⟩⟩
    | action hid =>
      simp only [GroupLead.proposeToClients, GroupInternals.consensus.injEq, Consensus.mk.injEq,
        ConsensusBody.proposeToClients.injEq] at hm
      obtain ⟨-, rfl, ⟨rfl, -⟩, rfl⟩ := hm
      exact ⟨hid, .inr ⟨rfl, _, _, hi⟩⟩
  | heartBeat => simp [sendHeartBeat] at hm
  | message | leaderMessage _ | messageToLeader _ | proposeValue _ | proposeAction _ | vote =>
    simp at hm

end Group

/-! ### The origin of a callback -/

namespace GroupNet

open GroupLead (compA compB)

variable {members : Finset ComponentUuid} {s s' s₀ : GroupNet} {l : Label} {c u w : ComponentUuid}
  {tr : List (Transition GroupNet Label)} {m : GroupMsg} {cb : Callback} {p : String}

/-- The callbacks that a step makes, at the component that handles the event. -/
def callbacks (s : GroupNet) (l : Label) : List Callback :=
  match eventOf s l with
  | none => []
  | some (c, e) => (((s.node c).step e).map fun r => r.2.callbacks).getD []

/-- The component `w` has been in state LEADER. -/
def Elected (tr : List (Transition GroupNet Label)) (w : ComponentUuid) : Prop :=
  ∃ T, WasLeader tr w T

/-- Some member has made the call, in a state in which it knew a leader. -/
def Submitted (members : Finset ComponentUuid) (tr : List (Transition GroupNet Label))
    (call : Group.Call) : Prop :=
  ∃ u ∈ members, ∃ t ∈ tr, t.label = .act u call ∧ (t.pre.node u).leaderId ≠ ""

/-- In the transition `t`, after those of `tr`, the component `w` has passed a
proposal on to the members: it was the leader for itself, and had been elected. -/
structure PassedOn (tr : List (Transition GroupNet Label)) (t : Transition GroupNet Label)
    (w : ComponentUuid) (i : GroupLead.Input) : Prop where
  input : leadView w t.pre t.label = some i
  leader : (lead w t.pre).getLeaderId = w
  elected : Elected tr w

/-- Where a callback comes from that the group `g` of a component makes after the
transitions `tr`. -/
def Origin (members : Finset ComponentUuid) (tr : List (Transition GroupNet Label)) (g : Group) :
    Callback → Prop
  | .onGroupMessage f =>
    ∃ u ∈ members, ∃ t ∈ tr, t.label = .act u (.message f) ∨
      t.label = .act u (.leaderMessage f) ∧ (t.pre.node u).leaderId = u
  | .onMessageToLeader f =>
    g.leaderId = g.parentComponentId ∧ Submitted members tr (.messageToLeader f)
  | .onPropose p f =>
    g.leaderId ≠ g.parentComponentId ∧ ∃ tr₁ t tr₂, tr = tr₁ ++ t :: tr₂ ∧
      Submitted members tr₁ (.proposeValue f p) ∧
      ∃ w ∈ members, ∃ now known isAction,
        PassedOn tr₁ t w (.propose now known isAction p (some f))
  | .onActionPropose p a time =>
    g.leaderId ≠ g.parentComponentId ∧ ∃ tr₁ t tr₂, tr = tr₁ ++ t :: tr₂ ∧
      ∃ absTime : Timespec, Submitted members tr₁ (.proposeAction p a absTime) ∧
        time = ⟨absTime.tvSec.toInt32.toInt64, absTime.tvNsec.toInt32.toInt64⟩ ∧
        ∃ w ∈ members, ∃ now known tsca, PassedOn tr₁ t w (.actionPropose now known p tsca)
  | .onAnnounce p accepted =>
    g.leaderId ≠ g.parentComponentId ∧
      ∃ w ∈ members, ∃ r, (p, r) ∈ announcements w tr ∧ accepted = decide (r = .accepted) ∧
        RegisteredAt tr w p ∧ Elected tr w ∧
        ((∃ f, Submitted members tr (.proposeValue f p)) ∨
          ∃ a absTime, Submitted members tr (.proposeAction p a absTime))

theorem Submitted.mono {call : Group.Call} (h : Submitted members tr call)
    (tr' : List (Transition GroupNet Label)) : Submitted members (tr ++ tr') call := by
  obtain ⟨u, hu, t, ht, hrest⟩ := h
  exact ⟨u, hu, t, List.mem_append_left _ ht, hrest⟩

/-- A message was sent in some transition, by one of the listed events. -/
theorem Sent.sends (h : Run (step members) s₀ tr s) (hs : Sent tr c m) :
    c ∈ members ∧ ∃ tr₁ t tr₂ e, tr = tr₁ ++ t :: tr₂ ∧ view c t.pre t.label = some e ∧
      Group.Sends (t.pre.node c) e m := by
  obtain ⟨t, ht, hv, hm⟩ := hs
  obtain ⟨e, he⟩ := Option.isSome_iff_exists.mp hv
  obtain ⟨hc, eff, hg, hout, -⟩ := step_of_eventOf (h.step_of_mem ht) (view_eq_some.mp he)
  rw [hout] at hm
  obtain ⟨tr₁, tr₂, htr⟩ := List.append_of_mem ht
  exact ⟨hc, tr₁, t, tr₂, e, htr, he, Group.sends_of_mem hg hm⟩

theorem parentComponentId_eq (h₀ : Initial s₀) (h : Run (step members) s₀ tr s)
    (c : ComponentUuid) : ((s.node c).parentComponentId : String) = c :=
  congrArg Subtype.val (lead_componentId h₀ h c)

theorem followsElected_run (h₀ : Initial s₀) (h : Run (step members) s₀ tr s)
    (c : ComponentUuid) : FollowsElected tr (lead c s) := by
  induction h with
  | nil =>
    obtain ⟨now, timeo, heq⟩ := h₀.lead c
    intro hne
    rw [heq] at hne
    exact absurd rfl hne
  | snoc hrun hs ih => exact followsElected_step h₀ hrun hs ih

/-- A component that takes itself for the leader has been elected. -/
theorem elected_of_leaderId (h₀ : Initial s₀) (h : Run (step members) s₀ tr s)
    (hid : (lead w s).getLeaderId = w) : Elected tr w := by
  obtain ⟨u, hu, T, -, hwas⟩ := followsElected_run h₀ h w (by rw [hid]; exact w.property)
  obtain rfl : w = u := Subtype.ext (hid.symm.trans hu)
  exact ⟨T, hwas⟩

/-- A proposal that reaches a component was proposed by a member. -/
theorem submitted_of_receive (h₀ : Initial s₀) (h : Run (step members) s₀ tr s) {now : ℤ}
    {draws : Draws} {source : String} {type : VoteType} {tsca : TimeSyncCoordA}
    (hv : view c s l = some (.receive now draws m))
    (hm : m.header = .consensus ⟨source, type, .proposeToLeader p, tsca⟩) :
    (type = .value ∧ ∃ f, m.frame = some f ∧ Submitted members tr (.proposeValue f p)) ∨
      type = .action ∧ ∃ a absTime, Submitted members tr (.proposeAction p a absTime) ∧
        tsca = ⟨a, ⟨absTime.tvSec.toInt32, absTime.tvNsec.toInt32⟩⟩ := by
  obtain ⟨u, hsent⟩ := sent_of_receive h₀ h hv
  obtain ⟨hu, tr₁, t, tr₂, e, rfl, he, hsend⟩ := hsent.sends h
  obtain ⟨hid, ⟨rfl, f, hf, rfl⟩ | ⟨rfl, a, absTime, rfl, rfl⟩⟩ := hsend.of_proposeToLeader hm
  · exact .inl ⟨rfl, f, hf, u, hu, t, by simp, eventOf_eq_call (view_eq_some.mp he), hid⟩
  · exact .inr ⟨rfl, a, absTime,
      ⟨u, hu, t, by simp, eventOf_eq_call (view_eq_some.mp he), hid⟩, rfl⟩

/-- A component that has registered a proposal has received it from a member. -/
theorem submitted_of_registeredAt (h₀ : Initial s₀) (h : Run (step members) s₀ tr s)
    (hreg : RegisteredAt tr w p) :
    Elected tr w ∧ ((∃ f, Submitted members tr (.proposeValue f p)) ∨
      ∃ a absTime, Submitted members tr (.proposeAction p a absTime)) := by
  obtain ⟨⟨gl, i, gl'⟩, ht', hr, hid⟩ := hreg
  obtain ⟨t, ht, hi, rfl, -⟩ := mem_project.mp ht'
  obtain ⟨tr₁, tr₂, rfl⟩ := List.append_of_mem ht
  obtain ⟨hrun, -, -⟩ := h.at_split
  have hleader : (lead w t.pre).getLeaderId = w := by
    rw [hid, lead_componentId h₀ hrun]
  constructor
  · obtain ⟨T, hwas⟩ := elected_of_leaderId h₀ hrun hleader
    exact ⟨T, hwas.mono _⟩
  · obtain ⟨⟨p', nodes⟩, hn, rfl⟩ := Option.map_eq_some_iff.mp hr
    obtain ⟨e, he, hlead⟩ := Option.bind_eq_some_iff.mp hi
    obtain ⟨now, draws, ⟨header, frame⟩, rfl, hm⟩ := Group.proposed_of_registration hlead hn
    rw [GroupMsg.proposed] at hm
    split at hm
    · rename_i source type p'' tsca hheader
      obtain rfl : p'' = p' := Option.some.inj hm
      rcases submitted_of_receive h₀ hrun he hheader with ⟨-, f, -, hsub⟩ | ⟨-, a, time, hsub, -⟩
      · exact .inl ⟨f, hsub.mono _⟩
      · exact .inr ⟨a, time, hsub.mono _⟩
    · simp at hm

theorem perform_callbacks (g : Group) (call : Group.Call) : (g.perform call).2.callbacks = [] := by
  cases call with
  | poll now =>
    rw [Group.perform, Group.poll]
    split <;> rfl
  | pingWithPeriod now =>
    rw [Group.perform, Group.sendPingWithPeriod]
    split
    · rfl
    split <;> rfl
  | connect _ _ | memberCount _ | ping _ | message _ | messageToLeader _ | leaderMessage _
  | proposeValue _ _ | proposeAction _ _ _ | vote _ _ => rfl

/-- Callbacks are made on the arrival of a message. -/
theorem makes_of_mem_callbacks (h : step members s l = some s') (hcb : cb ∈ callbacks s l) :
    ∃ c ∈ members, ∃ now draws m, view c s l = some (.receive now draws m) ∧
      Group.Makes (s.node c) m cb := by
  rcases he : eventOf s l with _ | ⟨c, e⟩
  · simp [callbacks, he] at hcb
  · obtain ⟨hc, eff, hg, -, -⟩ := step_of_eventOf h he
    have hcb' : cb ∈ eff.callbacks := by simpa [callbacks, he, hg] using hcb
    cases e with
    | call call =>
      have hnone : eff.callbacks = [] := by
        rw [← (Prod.mk.inj (Option.some.inj hg)).2]
        exact perform_callbacks (s.node c) call
      simp [hnone] at hcb'
    | receive now draws m =>
      exact ⟨c, hc, now, draws, m, view_eq_some.mpr he, Group.makes_of_mem hg hcb'⟩

/-- A forwarded proposal that reaches a component was passed on by an elected one,
to which a member had proposed it. -/
theorem passedOn_of_sent (h₀ : Initial s₀) (h : Run (step members) s₀ tr s)
    {source leader : String} {type : VoteType} {tsca : TimeSyncCoordA} (hs : Sent tr w m)
    (hm : m.header = .consensus ⟨source, type, .proposeToClients p leader, tsca⟩) :
    ∃ tr₁ t tr₂, tr = tr₁ ++ t :: tr₂ ∧ w ∈ members ∧
      ((type = .value ∧ ∃ f, m.frame = some f ∧ Submitted members tr₁ (.proposeValue f p) ∧
        ∃ now known isAction, PassedOn tr₁ t w (.propose now known isAction p (some f))) ∨
        type = .action ∧ ∃ a absTime, Submitted members tr₁ (.proposeAction p a absTime) ∧
          tsca = ⟨a, ⟨absTime.tvSec.toInt32, absTime.tvNsec.toInt32⟩⟩ ∧
          ∃ now known, PassedOn tr₁ t w (.actionPropose now known p tsca)) := by
  obtain ⟨hw, tr₁, t, tr₂, e, rfl, he, hsend⟩ := hs.sends h
  obtain ⟨hrun, -, -⟩ := h.at_split
  refine ⟨tr₁, t, tr₂, rfl, hw, ?_⟩
  obtain ⟨hid, hinput⟩ := hsend.of_proposeToClients hm
  have hleader : (lead w t.pre).getLeaderId = w := by
    rw [lead, hid]
    exact parentComponentId_eq h₀ hrun w
  have hpassed : ∀ i, Group.leadInput (t.pre.node w) e = some i → PassedOn tr₁ t w i := by
    intro i hi
    refine ⟨?_, hleader, elected_of_leaderId h₀ hrun hleader⟩
    rw [leadView, he, Option.bind_some, hi]
  rcases hinput with ⟨rfl, now, known, isAction, hi⟩ | ⟨rfl, now, known, hi⟩
  · left
    obtain ⟨draws, source', tsca', rfl⟩ := Group.leadInput_propose hi
    rcases submitted_of_receive h₀ hrun he rfl with ⟨-, f, hf, hsub⟩ | ⟨htype, -⟩
    · have hf' : m.frame = some f := hf
      have hpass := hpassed _ hi
      rw [hf'] at hpass
      exact ⟨rfl, f, hf', hsub, now, known, isAction, hpass⟩
    · simp at htype
  · right
    obtain ⟨draws, source', frame, rfl⟩ := Group.leadInput_actionPropose hi
    rcases submitted_of_receive h₀ hrun he rfl with ⟨htype, -⟩ | ⟨-, a, absTime, hsub, htsca⟩
    · simp at htype
    · exact ⟨rfl, a, absTime, hsub, htsca, now, known, hpassed _ hi⟩

/-- The origin of a callback, by the message that leads to it. -/
theorem origin_of_makes (h₀ : Initial s₀) (h : Run (step members) s₀ tr s) {now : ℤ}
    {draws : Draws} (hv : view c s l = some (.receive now draws m))
    (hmakes : Group.Makes (s.node c) m cb) : Origin members tr (s.node c) cb := by
  obtain ⟨u, hsent⟩ := sent_of_receive h₀ h hv
  cases hmakes with
  | @groupMessage source f =>
    obtain ⟨hu, tr₁, t, tr₂, e, rfl, he, hsend⟩ := hsent.sends h
    obtain ⟨f', hf, hcall⟩ := hsend.of_groupMessage rfl
    obtain rfl : f = f' := Option.some.inj hf
    refine ⟨u, hu, t, by simp, ?_⟩
    rcases hcall with rfl | ⟨rfl, hid⟩
    · exact .inl (eventOf_eq_call (view_eq_some.mp he))
    · refine .inr ⟨eventOf_eq_call (view_eq_some.mp he), ?_⟩
      rw [hid]
      exact parentComponentId_eq h₀ h.at_split.1 u
  | @messageToLeader source f hid =>
    obtain ⟨hu, tr₁, t, tr₂, e, rfl, he, hsend⟩ := hsent.sends h
    obtain ⟨f', hf, rfl, hne⟩ := hsend.of_messageToLeader rfl
    obtain rfl : f = f' := Option.some.inj hf
    exact ⟨hid, u, hu, t, by simp, eventOf_eq_call (view_eq_some.mp he), hne⟩
  | @value source p leader tsca f hid =>
    obtain ⟨tr₁, t, tr₂, htr, hu, ⟨-, f', hf, hsub, now', known, isAction, hpass⟩ | ⟨htype, -⟩⟩ :=
      passedOn_of_sent h₀ h hsent rfl
    · obtain rfl : f = f' := Option.some.inj hf
      exact ⟨hid, tr₁, t, tr₂, htr, hsub, u, hu, now', known, isAction, hpass⟩
    · simp at htype
  | @action source p leader tsca frame hid =>
    obtain ⟨tr₁, t, tr₂, htr, hu, ⟨htype, -⟩ | ⟨-, a, absTime, hsub, rfl, now', known, hpass⟩⟩ :=
      passedOn_of_sent h₀ h hsent rfl
    · simp at htype
    · exact ⟨hid, tr₁, t, tr₂, htr, absTime, hsub, rfl, u, hu, now', known, _, hpass⟩
  | @announcement source p type r tsca frame hid =>
    have hann : (p, r) ∈ announcements u tr := by
      obtain ⟨t, ht, hv', hm⟩ := hsent
      refine List.mem_flatMap.mpr ⟨t, ht, ?_⟩
      rw [if_pos hv']
      exact List.mem_filterMap.mpr ⟨_, hm, rfl⟩
    have hreg := registeredAt_of_announced h₀ h hann
    obtain ⟨helected, hsub⟩ := submitted_of_registeredAt h₀ h hreg
    exact ⟨hid, u, hsent.mem_members h, r, hann, rfl, hreg, helected, hsub⟩

/-- **Every callback has an origin.**  Whatever a run has done, the callbacks of
the next step are made at some member with data that a member has passed to the
matching call before: group messages directly, proposals by way of an elected
component that registered them, decisions by way of an elected component that
announced them. -/
theorem callback_origin (h₀ : Initial s₀) (h : Run (step members) s₀ tr s)
    (hs : step members s l = some s') (hcb : cb ∈ callbacks s l) :
    ∃ c ∈ members, (view c s l).isSome ∧ Origin members tr (s.node c) cb := by
  obtain ⟨c, hc, now, draws, m, hv, hmakes⟩ := makes_of_mem_callbacks hs hcb
  exact ⟨c, hc, by rw [hv]; rfl, origin_of_makes h₀ h hv hmakes⟩

/-- `a` is elected, `b` proposes a value to it and is asked about it. -/
theorem callback_origin_proposal :
    ∃ tr t, Run (step trio) (startTrio peers) (tr ++ [t]) t.post ∧
      Callback.onPropose "p" [1] ∈ callbacks t.pre t.label ∧
      ∃ c ∈ trio, (view c t.pre t.label).isSome ∧
        Origin trio tr (t.pre.node c) (.onPropose "p" [1]) := by
  obtain ⟨tr, t, hrun, hcb⟩ :=
    exists_run_snoc_of_replay (step trio) (startTrio peers)
      (fun _ t => Callback.onPropose "p" [1] ∈ callbacks t.pre t.label)
      [pollAt compA 160, deliverAt compA compB 165, deliverAt compB compA 170,
        deliverAt compA compB 175, .act compB (.proposeValue [1] "p"), deliverAt compB compA 180]
      (deliverAt compA compB 185) (by decide)
  obtain ⟨hbefore, hstep, -⟩ := hrun.last
  exact ⟨tr, t, hrun, hcb, callback_origin (initial_startTrio peers) hbefore hstep hcb⟩

/-! ### The order of messages -/

/-- The message that a step brings from `u` to `c`. -/
def receivedNow (u c : ComponentUuid) (s : GroupNet) : Label → List GroupMsg
  | .deliver src dst _ _ => if u = src ∧ c = dst then (s.chan u c).take 1 else []
  | _ => []

/-- The messages that `u` sends in a step. -/
def sentNow (u : ComponentUuid) (s : GroupNet) (l : Label) : List GroupMsg :=
  if (view u s l).isSome then outputs s l else []

/-- The messages that `c` has received from `u`, in order. -/
def received (u c : ComponentUuid) (tr : List (Transition GroupNet Label)) : List GroupMsg :=
  tr.flatMap fun t => receivedNow u c t.pre t.label

/-- The messages that `u` has sent, in order. -/
def sentBy (u : ComponentUuid) (tr : List (Transition GroupNet Label)) : List GroupMsg :=
  tr.flatMap fun t => sentNow u t.pre t.label

/-- No message from `u` to `c` is lost. -/
def NoLoss (u c : ComponentUuid) (tr : List (Transition GroupNet Label)) : Prop :=
  ∀ t ∈ tr, ∀ k, t.label ≠ .lose u c k

theorem sentNow_of_eventOf {e : Group.Event} {eff : Effects} {g : Group}
    (he : eventOf s l = some (w, e)) (hg : (s.node w).step e = some (g, eff)) :
    sentNow u s l = if u = w then eff.sent else [] := by
  by_cases hu : u = w
  · simp [sentNow, view, outputs, he, hg, hu]
  · simp [sentNow, view, he, hu, Ne.symm hu]

/-- **One step.**  A channel gives up its oldest message or loses one, and takes
in what its sender sends. -/
theorem step_received (h : step members s l = some s') (u c : ComponentUuid) :
    (receivedNow u c s l ++ s'.chan u c).Sublist (s.chan u c ++ sentNow u s l) ∧
      ((∀ k, l ≠ .lose u c k) →
        receivedNow u c s l ++ s'.chan u c = s.chan u c ++ sentNow u s l) := by
  cases step_cases h with
  | @acted a call g eff ha hg =>
    have hkeep : receivedNow u c s (.act a call) ++ s.chan.broadcast a eff.sent u c
        = s.chan u c ++ sentNow u s (.act a call) := by
      rw [sentNow_of_eventOf rfl hg, Channels.broadcast]
      show [] ++ _ = _
      split <;> simp
    exact ⟨by rw [← hkeep], fun _ => hkeep⟩
  | @delivered src dst now draws m rest g eff hsrc hdst hch hg =>
    have hev : eventOf s (.deliver src dst now draws) = some (dst, .receive now draws m) := by
      simp [eventOf, hch]
    -- the oldest message and the rest of the channel make up the channel
    have hsplit : receivedNow u c s (.deliver src dst now draws) ++ s.chan.remove src dst 0 u c
        = s.chan u c := by
      rw [receivedNow, Channels.remove]
      by_cases huc : u = src ∧ c = dst
      · obtain ⟨rfl, rfl⟩ := huc
        simp [hch]
      · rw [if_neg huc, if_neg huc, List.nil_append]
    have hkeep : receivedNow u c s (.deliver src dst now draws)
          ++ (s.chan.remove src dst 0).broadcast dst eff.sent u c
        = s.chan u c ++ sentNow u s (.deliver src dst now draws) := by
      rw [sentNow_of_eventOf hev hg, Channels.broadcast]
      split
      · rw [← List.append_assoc, hsplit]
      · rw [hsplit, List.append_nil]
    exact ⟨by rw [← hkeep], fun _ => hkeep⟩
  | @lost src dst k =>
    have hnone : sentNow u s (.lose src dst k) = [] := rfl
    rw [hnone, List.append_nil]
    show (s.chan.remove src dst k u c).Sublist _ ∧ (_ → s.chan.remove src dst k u c = _)
    rw [Channels.remove]
    by_cases huc : u = src ∧ c = dst
    · rw [if_pos huc]
      obtain ⟨rfl, rfl⟩ := huc
      exact ⟨List.eraseIdx_sublist _ _, fun hno => absurd rfl (hno k)⟩
    · rw [if_neg huc]
      exact ⟨List.Sublist.refl _, fun _ => rfl⟩

/-- **A whole run.**  What `c` has received from `u` and what is on its way are,
in this order, a part of what was on its way and what `u` has sent since, and all
of it when nothing between them was lost. -/
theorem received_append (h : Run (step members) s₀ tr s) (u c : ComponentUuid) :
    (received u c tr ++ s.chan u c).Sublist (s₀.chan u c ++ sentBy u tr) ∧
      (NoLoss u c tr → received u c tr ++ s.chan u c = s₀.chan u c ++ sentBy u tr) := by
  induction h with
  | nil =>
    have hnone : received u c [] ++ s₀.chan u c = s₀.chan u c ++ sentBy u [] :=
      (List.append_nil _).symm
    exact ⟨by rw [hnone], fun _ => hnone⟩
  | @snoc tr s s' l _ hs ih =>
    obtain ⟨hpart, hall⟩ := step_received hs u c
    have hrec : received u c (tr ++ [⟨s, l, s'⟩]) = received u c tr ++ receivedNow u c s l := by
      simp [received]
    have hsent : sentBy u (tr ++ [⟨s, l, s'⟩]) = sentBy u tr ++ sentNow u s l := by
      simp [sentBy]
    rw [hrec, hsent, List.append_assoc]
    constructor
    · refine ((List.Sublist.refl (received u c tr)).append hpart).trans ?_
      rw [← List.append_assoc, ← List.append_assoc]
      exact ih.1.append (List.Sublist.refl _)
    · intro hno
      rw [hall (hno ⟨s, l, s'⟩ (by simp)), ← List.append_assoc,
        ih.2 fun t ht => hno t (List.mem_append_left _ ht), List.append_assoc]

theorem received_append_chan (h₀ : Initial s₀) (h : Run (step members) s₀ tr s)
    (u c : ComponentUuid) :
    (received u c tr ++ s.chan u c).Sublist (sentBy u tr) ∧
      (NoLoss u c tr → received u c tr ++ s.chan u c = sentBy u tr) := by
  have hempty : s₀.chan u c = [] := by
    rw [h₀.chan]
    rfl
  have hrun := received_append h u c
  rwa [hempty, List.nil_append] at hrun

/-! ### Group messages -/

/-- The frame of a group message. -/
def groupFrame (m : GroupMsg) : Option Frame :=
  match m.header with
  | .groupMessage _ => m.frame
  | _ => none

/-- The frame that a call of `OnGroupMessage` hands over. -/
def handedFrame : Callback → Option Frame
  | .onGroupMessage f => some f
  | _ => none

/-- The frames that `OnGroupMessage` is called with at `c`, on messages of `u`. -/
def handed (u c : ComponentUuid) (tr : List (Transition GroupNet Label)) : List Frame :=
  tr.flatMap fun t => match t.label with
    | .deliver src dst _ _ =>
      if u = src ∧ c = dst then (callbacks t.pre t.label).filterMap handedFrame else []
    | _ => []

/-- The frame that a call publishes as a group message; `SendLeaderMessage` does
so only at the leader. -/
def publishedNow (u : ComponentUuid) (s : GroupNet) : Label → List Frame
  | .act a (.message f) => if u = a then [f] else []
  | .act a (.leaderMessage f) =>
    if u = a ∧ (s.node u).leaderId = (s.node u).parentComponentId then [f] else []
  | _ => []

/-- The frames that `u` has published as group messages, in order. -/
def published (u : ComponentUuid) (tr : List (Transition GroupNet Label)) : List Frame :=
  tr.flatMap fun t => publishedNow u t.pre t.label

/-- A message is handed to `OnGroupMessage` iff it is a group message, with its
frame. -/
theorem handed_of_receive {g g' : Group} {now : ℤ} {draws : Draws} {eff : Effects}
    (h : g.receive now draws m = some (g', eff)) :
    eff.callbacks.filterMap handedFrame = (groupFrame m).toList := by
  obtain ⟨header, frame⟩ := m
  have hnone : (∀ source, header ≠ .groupMessage source) →
      eff.callbacks.filterMap handedFrame = [] := by
    intro hne
    refine List.filterMap_eq_nil_iff.mpr fun cb hcb => ?_
    cases Group.makes_of_mem h hcb with
    | groupMessage => exact absurd rfl (hne _)
    | messageToLeader _ | value _ | action _ | announcement _ => rfl
  cases header with
  | groupMessage source =>
    obtain ⟨-, rfl⟩ := Prod.mk.inj (Option.some.inj h)
    rcases frame with _ | f <;> rfl
  | groupHeartBeat _ | leaderElection _ | messageToLeader _ | consensus _ | leaderMessage _ =>
    exact hnone (by simp)

/-- The group messages among what an event sends. -/
theorem groupFrames_of_sends {g : Group} {e : Group.Event} {out : List GroupMsg}
    (h : ∀ m ∈ out, Group.Sends g e m) (he : ∀ f, e ≠ .call (.message f))
    (he' : ∀ f, e ≠ .call (.leaderMessage f)) : out.filterMap groupFrame = [] := by
  refine List.filterMap_eq_nil_iff.mpr fun m hm => ?_
  rw [groupFrame]
  split
  · rename_i source hheader
    obtain ⟨f, -, rfl | ⟨rfl, -⟩⟩ := (h m hm).of_groupMessage hheader
    · exact absurd rfl (he f)
    · exact absurd rfl (he' f)
  · rfl

theorem publishedNow_eq (h : step members s l = some s') (u : ComponentUuid) :
    (sentNow u s l).filterMap groupFrame = publishedNow u s l := by
  rcases he : eventOf s l with _ | ⟨w, e⟩
  · have hnone : sentNow u s l = [] := by simp [sentNow, view, he]
    rw [hnone]
    cases l with
    | act a call => simp [eventOf] at he
    | deliver src dst now draws => rfl
    | lose src dst k => rfl
  obtain ⟨-, eff, hg, -, -⟩ := step_of_eventOf h he
  rw [sentNow_of_eventOf he hg]
  have hsends : ∀ m ∈ eff.sent, Group.Sends (s.node w) e m := fun m hm => Group.sends_of_mem hg hm
  -- only two calls publish group messages
  have hother : (∀ f, e ≠ .call (.message f)) → (∀ f, e ≠ .call (.leaderMessage f)) →
      (if u = w then eff.sent else []).filterMap groupFrame = [] := by
    intro hm hl
    split
    · exact groupFrames_of_sends hsends hm hl
    · rfl
  cases l with
  | act a call =>
    obtain ⟨rfl, rfl⟩ := Prod.mk.inj (Option.some.inj he)
    cases call with
    | message f =>
      obtain ⟨-, rfl⟩ := Prod.mk.inj (Option.some.inj hg)
      by_cases hu : u = a
      · simp [publishedNow, hu, Group.sendMessage, groupFrame]
      · simp [publishedNow, hu]
    | leaderMessage f =>
      obtain ⟨-, rfl⟩ := Prod.mk.inj (Option.some.inj hg)
      by_cases hu : u = a
      · subst hu
        by_cases hid : (s.node u).leaderId = (s.node u).parentComponentId
        · simp [publishedNow, hid, Group.sendLeaderMessage, groupFrame]
        · simp [publishedNow, hid, Group.sendLeaderMessage]
      · simp [publishedNow, hu]
    | poll _ | connect _ _ | memberCount _ | ping _ | pingWithPeriod _ | messageToLeader _
    | proposeValue _ _ | proposeAction _ _ _ | vote _ _ => exact hother (by simp) (by simp)
  | deliver src dst now draws =>
    obtain ⟨m, -, heq⟩ := Option.map_eq_some_iff.mp he
    obtain ⟨rfl, rfl⟩ := Prod.mk.inj heq
    exact hother (by simp) (by simp)
  | lose src dst k => simp [eventOf] at he

theorem handed_eq (h : Run (step members) s₀ tr s) (u c : ComponentUuid) :
    handed u c tr = (received u c tr).filterMap groupFrame := by
  induction h with
  | nil => rfl
  | @snoc tr s s' l _ hs ih =>
    have hrec : received u c (tr ++ [⟨s, l, s'⟩]) = received u c tr ++ receivedNow u c s l := by
      simp [received]
    rw [hrec, List.filterMap_append, ← ih, handed, List.flatMap_append, List.flatMap_singleton]
    congr 1
    cases step_cases hs with
    | acted _ _ | lost => rfl
    | @delivered src dst now draws m rest g eff hsrc hdst hch hg =>
      by_cases huc : u = src ∧ c = dst
      · obtain ⟨rfl, rfl⟩ := huc
        have hcb : callbacks s (.deliver u c now draws) = eff.callbacks := by
          simp [callbacks, eventOf, hch, hg]
        rcases hf : groupFrame m with _ | f
        · simp [hcb, receivedNow, hch, handed_of_receive hg, hf]
        · simp [hcb, receivedNow, hch, handed_of_receive hg, hf]
      · simp [receivedNow, huc]

/-- **Group messages are handed over in order and at most once.**  The frames
that `OnGroupMessage` gets at `c` from `u`, followed by those on their way, are a
part of the frames that `u` has published, in the order of publishing, and all of
them when nothing between the two was lost. -/
theorem groupMessages_in_order (h₀ : Initial s₀) (h : Run (step members) s₀ tr s)
    (u c : ComponentUuid) :
    (handed u c tr ++ (s.chan u c).filterMap groupFrame).Sublist (published u tr) ∧
      (NoLoss u c tr → handed u c tr ++ (s.chan u c).filterMap groupFrame = published u tr) := by
  have hpublished : published u tr = (sentBy u tr).filterMap groupFrame := by
    rw [published, sentBy, List.filterMap_flatMap]
    refine List.flatMap_congr fun t ht => ?_
    exact (publishedNow_eq (h.step_of_mem ht) u).symm
  obtain ⟨hpart, hall⟩ := received_append_chan h₀ h u c
  rw [handed_eq h, ← List.filterMap_append, hpublished]
  exact ⟨hpart.filterMap _, fun hno => by rw [hall hno]⟩

/-- `a` publishes two frames, of which `b` has got the first. -/
theorem groupMessages_in_order_two :
    ∃ tr s, Run (step trio) (startTrio peers) tr s ∧ published compA tr = [[1], [2]] ∧
      handed compA compB tr = [[1]] ∧
      (handed compA compB tr ++ (s.chan compA compB).filterMap groupFrame).Sublist
        (published compA tr) ∧
      (NoLoss compA compB tr →
        handed compA compB tr ++ (s.chan compA compB).filterMap groupFrame
          = published compA tr) := by
  obtain ⟨tr, s, hrun, hpub, hhanded⟩ :=
    exists_run_of_replay (step trio) (startTrio peers)
      (fun tr _ => published compA tr = [[1], [2]] ∧ handed compA compB tr = [[1]])
      [.act compA (.message [1]), .act compA (.message [2]), deliverAt compA compB 10] (by decide)
  exact ⟨tr, s, hrun, hpub, hhanded,
    groupMessages_in_order (initial_startTrio peers) hrun compA compB⟩

end GroupNet

end Riaps
