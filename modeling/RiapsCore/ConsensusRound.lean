/-
A round of consensus in a group.

A member proposes a value to the leader, the leader puts it to the vote of the
components it knows, counts what comes back and announces the result.  When the
messages of the majority get through, this ends as it should:

* `handled_of_sentBy` — a message that is no longer on its way was handled, when
  nothing was lost;
* `proposal_reaches_members` — a value that a member proposes is put to the vote,
  and every other component is asked about it;
* `nodup_heardVotes` — where nobody votes twice, the leader hears nobody twice;
* `vote_decided` — a result for which a majority votes in time is announced, and
  the announcement reaches everybody;
* `vote_settled` — in any case the leader has announced one decision when it looks
  after its proposals after the deadline.
-/
import RiapsCore.GroupCallbacks
import RiapsCore.VoteStanding

open Runs

namespace Riaps

/-! ### Votes as messages -/

/-- The result that `SendVote` and `OnAnnounce` call by a boolean. -/
def VoteResults.ofAccept (accept : Bool) : VoteResults :=
  if accept then .accepted else .rejected

/-- The vote on `p` that a message carries: whose it is and its result. -/
def GroupMsg.votedOn (p : String) (m : GroupMsg) : Option (String × VoteResults) :=
  match m.header with
  | .consensus ⟨source, _, .vote p' r, _⟩ => if p' = p then some (source, r) else none
  | _ => none

theorem GroupMsg.votedOn_eq_some {m : GroupMsg} {p source : String} {r : VoteResults}
    (h : m.votedOn p = some (source, r)) :
    ∃ type tsca, m.header = .consensus ⟨source, type, .vote p r, tsca⟩ := by
  rw [GroupMsg.votedOn] at h
  split at h
  · rename_i source' type p' r' tsca hheader
    split at h
    · rename_i hp
      obtain ⟨rfl, rfl⟩ := Prod.mk.inj (Option.some.inj h)
      exact ⟨type, tsca, by rw [hheader, hp]⟩
    · simp at h
  · simp at h

namespace Group

variable {g : Group} {e : Event} {m : GroupMsg} {p source : String} {r : VoteResults} {now : ℤ}

/-- A vote on a proposal is sent by a call with its result, under the sender's own
id. -/
theorem Sends.of_vote {type : VoteType} {tsca : TimeSyncCoordA} (h : Sends g e m)
    (hm : m.header = .consensus ⟨source, type, .vote p r, tsca⟩) :
    source = g.parentComponentId ∧ ∃ accept, e = .call (.vote p accept) ∧
      r = VoteResults.ofAccept accept := by
  cases h with
  | lead _ hem => exact absurd hem.kind (by simp [GroupMsg.election, GroupMsg.announced,
      GroupMsg.forwarded, hm])
  | heartBeat => simp [sendHeartBeat] at hm
  | @vote p' accept =>
    simp only [GroupInternals.consensus.injEq, Consensus.mk.injEq, ConsensusBody.vote.injEq] at hm
    obtain ⟨rfl, -, ⟨rfl, rfl⟩, -⟩ := hm
    exact ⟨rfl, accept, rfl, rfl⟩
  | message | leaderMessage _ | messageToLeader _ | proposeValue _ | proposeAction _ => simp at hm

/-- Only a vote leads to `OnVote`. -/
theorem leadInput_vote (h : leadInput g e = some (.vote now p r source)) :
    ∃ draws m, e = .receive now draws m ∧ m.votedOn p = some (source, r) := by
  rw [leadInput.eq_def] at h
  split at h
  · split at h <;> simp at h
  · simp at h
  · rename_i now' draws c frame
    split at h
    · obtain ⟨source', type, body, tsca⟩ := c
      cases body with
      | vote p' r' =>
        simp only [leaderCall, Option.some_inj, GroupLead.Input.vote.injEq] at h
        obtain ⟨rfl, rfl, rfl, rfl⟩ := h
        exact ⟨draws, _, rfl, by simp [GroupMsg.votedOn]⟩
      | proposeToLeader p' => cases type <;> simp [leaderCall] at h
      | proposeToClients p' leader => simp [leaderCall] at h
      | announce p' r' => simp [leaderCall] at h
    · simp at h
  · simp at h

/-- A group that registers a proposal has a `GroupLead`. -/
theorem hasLeader_of_registration {i : GroupLead.Input} {K : Finset String}
    (h : leadInput g e = some i) (hreg : GroupLead.registration g.groupLeader i = some (p, K)) :
    g.hasLeader = true := by
  obtain ⟨-, ⟨now, known, tsca, rfl⟩ | ⟨now, known, isAction, frame, rfl⟩⟩ :=
    GroupLead.registration_eq_some hreg
  · obtain ⟨draws, source, frame, rfl⟩ := leadInput_actionPropose h
    rw [leadInput] at h
    split at h
    · exact hasLeader_of_leaderId ‹_›
    · simp at h
  · obtain ⟨draws, source, tsca, rfl⟩ := leadInput_propose h
    rw [leadInput] at h
    split at h
    · exact hasLeader_of_leaderId ‹_›
    · simp at h

/-- At a component that takes itself for the leader a vote leads to `OnVote`. -/
theorem leadInput_of_votedOn {draws : Draws} (hm : m.votedOn p = some (source, r))
    (hid : g.leaderId = g.parentComponentId) :
    leadInput g (.receive now draws m) = some (.vote now p r source) := by
  obtain ⟨header, frame⟩ := m
  obtain ⟨type, tsca, rfl⟩ := GroupMsg.votedOn_eq_some hm
  simp [leadInput, hid, leaderCall]

end Group

/-! ### Messages that get through -/

namespace GroupNet

open GroupLead (heardVote heardVotes heardVote_eq_some compA compB compC)

variable {members : Finset ComponentUuid} {s s' s₀ : GroupNet} {l : Label} {c u v ℓ : ComponentUuid}
  {tr tr' : List (Transition GroupNet Label)} {t : Transition GroupNet Label} {m : GroupMsg}
  {p : String} {K : Finset String}

/-- The component `c` makes the callback `cb` in the transition. -/
def Calls (c : ComponentUuid) (t : Transition GroupNet Label) (cb : Callback) : Prop :=
  (view c t.pre t.label).isSome ∧ cb ∈ callbacks t.pre t.label

/-- The step loses a message from `u` to `c`. -/
def Label.loses (u c : ComponentUuid) : Label → Bool
  | .lose src dst _ => decide (src = u ∧ dst = c)
  | _ => false

instance (u c : ComponentUuid) (tr : List (Transition GroupNet Label)) :
    Decidable (NoLoss u c tr) :=
  decidable_of_iff (∀ t ∈ tr, t.label.loses u c = false) <| by
    refine forall₂_congr fun t _ => ⟨fun h k hl => ?_, fun h => ?_⟩
    · rw [hl] at h
      simp [Label.loses] at h
    · rw [Label.loses.eq_def]
      split
      · rename_i src dst k hl
        refine decide_eq_false fun hsd => h k ?_
        rw [hl, hsd.1, hsd.2]
      · rfl

/-- What a step brings from `u` to `c` is handled there. -/
theorem view_of_mem_receivedNow (hm : m ∈ receivedNow u c s l) :
    ∃ now draws, l = .deliver u c now draws ∧ view c s l = some (.receive now draws m) := by
  cases l with
  | act a call => simp [receivedNow] at hm
  | deliver src dst now draws =>
    rw [receivedNow] at hm
    split at hm
    · rename_i huc
      obtain ⟨rfl, rfl⟩ := huc
      refine ⟨now, draws, rfl, view_eq_some.mpr ?_⟩
      rcases hch : s.chan u c with _ | ⟨m', rest⟩
      · simp [hch] at hm
      · rw [hch, List.take_one, List.head?_cons] at hm
        rw [eventOf, hch, List.mem_singleton.mp hm]
        rfl
    · simp at hm
  | lose src dst k => simp [receivedNow] at hm

/-- **A message gets through.**  When nothing from `u` to `c` is lost, a message that
`u` has sent and that is no longer on its way has been handled by `c`. -/
theorem handled_of_sentBy (h : Run (step members) s₀ tr s) (hno : NoLoss u c tr)
    (hm : m ∈ sentBy u tr) (hgone : m ∉ s.chan u c) :
    ∃ t ∈ tr, ∃ now draws, view c t.pre t.label = some (.receive now draws m) := by
  have hall := (received_append h u c).2 hno
  have hmem : m ∈ received u c tr ++ s.chan u c := by
    rw [hall]
    exact List.mem_append_right _ hm
  rcases List.mem_append.mp hmem with hrec | hch
  · obtain ⟨t, ht, hnow⟩ := List.mem_flatMap.mp hrec
    obtain ⟨now, draws, -, hview⟩ := view_of_mem_receivedNow hnow
    exact ⟨t, ht, now, draws, hview⟩
  · exact absurd hch hgone

/-- A component keeps its id. -/
theorem parentComponentId_of_mem {s₁ : GroupNet} (h₀ : Initial s₀)
    (h₁ : Run (step members) s₀ tr s₁) (h : Run (step members) s₁ tr' s) (ht : t ∈ tr')
    (c : ComponentUuid) : ((t.pre.node c).parentComponentId : String) = c := by
  obtain ⟨tr₁, tr₂, rfl⟩ := List.append_of_mem ht
  exact parentComponentId_eq h₀ (h₁.append h.at_split.1) c

theorem mem_sentBy (ht : t ∈ tr) (hv : (view u t.pre t.label).isSome)
    (hm : m ∈ outputs t.pre t.label) : m ∈ sentBy u tr := by
  refine List.mem_flatMap.mpr ⟨t, ht, ?_⟩
  rw [sentNow, if_pos hv]
  exact hm

/-- The callbacks of a step that handles a message. -/
theorem callbacks_of_receive {now : ℤ} {draws : Draws} (h : step members s l = some s')
    (hv : view c s l = some (.receive now draws m)) :
    ∃ g eff, (s.node c).receive now draws m = some (g, eff) ∧ callbacks s l = eff.callbacks := by
  have he := view_eq_some.mp hv
  obtain ⟨-, eff, hg, -, -⟩ := step_of_eventOf h he
  refine ⟨_, eff, hg, ?_⟩
  simp [callbacks, he, hg]

/-- A decision that arrives at a component other than the leader is reported
there. -/
theorem calls_onAnnounce {now : ℤ} {draws : Draws} {r : VoteResults}
    (h : step members t.pre t.label = some s')
    (hv : view c t.pre t.label = some (.receive now draws m)) (hm : m.announced = some (p, r))
    (hid : (t.pre.node c).leaderId ≠ (t.pre.node c).parentComponentId) :
    Calls c t (.onAnnounce p (decide (r = .accepted))) := by
  obtain ⟨g, eff, hg, hcb⟩ := callbacks_of_receive h hv
  refine ⟨by rw [hv]; rfl, ?_⟩
  rw [hcb]
  obtain ⟨header, frame⟩ := m
  rw [GroupMsg.announced] at hm
  split at hm
  · rename_i source type p' r' tsca hheader
    obtain ⟨rfl, rfl⟩ := Prod.mk.inj (Option.some.inj hm)
    rw [Group.receive, hheader] at hg
    simp only [hid, if_false, Group.memberCallbacks, Option.map_some, Option.some_inj] at hg
    obtain ⟨-, rfl⟩ := Prod.mk.inj hg
    simp
  · simp at hm

/-- A forwarded value is reported at a component other than the leader. -/
theorem calls_onPropose {now : ℤ} {draws : Draws} {f : Frame} {source leader : String}
    {tsca : TimeSyncCoordA} (h : step members t.pre t.label = some s')
    (hv : view c t.pre t.label = some (.receive now draws
      ⟨.consensus ⟨source, .value, .proposeToClients p leader, tsca⟩, some f⟩))
    (hid : (t.pre.node c).leaderId ≠ (t.pre.node c).parentComponentId) :
    Calls c t (.onPropose p f) := by
  obtain ⟨g, eff, hg, hcb⟩ := callbacks_of_receive h hv
  refine ⟨by rw [hv]; rfl, ?_⟩
  rw [hcb]
  simp only [Group.receive, hid, if_false, Group.memberCallbacks, Option.map_some,
    Option.some_inj] at hg
  obtain ⟨-, rfl⟩ := Prod.mk.inj hg
  simp

/-! ### The proposal -/

/-- In the transition `ℓ` registers the proposal `p`, at `start`, for the vote of
`K`. -/
def PutToVote (ℓ : ComponentUuid) (p : String) (K : Finset String) (start : ℤ)
    (t : Transition GroupNet Label) : Prop :=
  ∃ i ∈ leadView ℓ t.pre t.label, i.now = start ∧
    GroupLead.registration (lead ℓ t.pre) i = some (p, K)

instance (ℓ : ComponentUuid) (p : String) (K : Finset String) (start : ℤ)
    (t : Transition GroupNet Label) : Decidable (PutToVote ℓ p K start t) :=
  inferInstanceAs (Decidable (∃ i ∈ leadView ℓ t.pre t.label, _ ∧ _))

/-- A value that reaches a component which takes itself for the leader is
registered there and passed on. -/
theorem putToVote_of_receive {now : ℤ} {draws : Draws} {source : String} {tsca : TimeSyncCoordA}
    {f : Frame} (h : step members t.pre t.label = some s')
    (hview : view ℓ t.pre t.label = some (.receive now draws
      ⟨.consensus ⟨source, .value, .proposeToLeader p, tsca⟩, some f⟩))
    (hid : (t.pre.node ℓ).leaderId = (t.pre.node ℓ).parentComponentId) :
    PutToVote ℓ p ((t.pre.node ℓ).knownNodes.getKnownComponents now) now t ∧
      outputs t.pre t.label = [(lead ℓ t.pre).proposeToClients .value p {} (some f)] := by
  have hlead : (lead ℓ t.pre).getLeaderId = (lead ℓ t.pre).componentId := by
    have hhas := Group.hasLeader_of_leaderId hid
    rw [Group.leaderId, if_pos hhas] at hid
    exact hid
  have hi : leadView ℓ t.pre t.label
      = some (.propose now (t.pre.node ℓ).knownNodes draws.isAction p (some f)) := by
    rw [leadView, hview, Option.bind_some]
    simp [Group.leadInput, hid, Group.leaderCall]
  constructor
  · refine ⟨_, hi, rfl, ?_⟩
    rw [GroupLead.registration, if_neg (by simpa using hlead)]
  · rw [(lead_of_leadView h hi).2]
    show ((lead ℓ t.pre).onProposeFromClient _ _ _ _ _).2 = _
    rw [GroupLead.onProposeFromClient, if_neg (by simpa using hlead)]
    rfl

/-- **A proposal is put to the vote of everybody.**  A value that a member proposes,
knowing a leader, and that gets through to a component `ℓ` which takes itself for
the leader, is put to the vote of the components that `ℓ` knows; and a component
that does not take itself for the leader is asked about it, as soon as the question
is no longer on its way and was not lost. -/
theorem proposal_reaches_members {w : ComponentUuid} {f : Frame} (h₀ : Initial s₀)
    (h : Run (step members) s₀ (tr ++ t :: tr') s) (hl : t.label = .act w (.proposeValue f p))
    (hknows : (t.pre.node w).leaderId ≠ "")
    (hleader : ∀ u ∈ tr', (u.pre.node ℓ).leaderId = ℓ) (hno : NoLoss w ℓ tr')
    (hgone : ∀ m ∈ s.chan w ℓ, m.proposed ≠ some p) :
    (∃ u ∈ tr', ∃ start,
      PutToVote ℓ p ((u.pre.node ℓ).knownNodes.getKnownComponents start) start u) ∧
      ∀ c, NoLoss ℓ c tr' → (∀ u ∈ tr', (u.pre.node c).leaderId ≠ c) →
        (∀ m ∈ s.chan ℓ c, m.forwarded ≠ some p) → ∃ u ∈ tr', Calls c u (.onPropose p f) := by
  obtain ⟨hrun, hstep, hrest⟩ := h.at_split
  have hreach : Run (step members) s₀ (tr ++ [t]) t.post := .snoc hrun hstep
  have hid : ∀ u ∈ tr', ∀ c, ((u.pre.node c).parentComponentId : String) = c :=
    fun u hu c => parentComponentId_of_mem h₀ hreach hrest hu c
  -- the proposal gets to the leader
  set m : GroupMsg := ⟨.consensus ⟨(t.pre.node w).parentComponentId, .value,
    .proposeToLeader p, {}⟩, some f⟩ with hm
  have hsent : m ∈ sentBy w (t :: tr') := by
    refine mem_sentBy (List.mem_cons_self ..) ?_ ?_
    · rw [hl]
      simp [view, eventOf]
    · rw [hl]
      simp [outputs, eventOf, Group.step, Group.perform, Group.proposeValueToLeader, hknows, hm]
  have hno' : NoLoss w ℓ (t :: tr') := by
    intro u hu k
    rcases List.mem_cons.mp hu with rfl | hu
    · simp [hl]
    · exact hno u hu k
  obtain ⟨u, hu, now, draws, hview⟩ :=
    handled_of_sentBy (.cons hstep hrest) hno' hsent fun hmem => hgone m hmem rfl
  have hu' : u ∈ tr' := by
    rcases List.mem_cons.mp hu with rfl | hu
    · rw [hl] at hview
      simp [view, eventOf] at hview
    · exact hu
  have hleads : (u.pre.node ℓ).leaderId = (u.pre.node ℓ).parentComponentId := by
    rw [hleader u hu', hid u hu' ℓ]
  obtain ⟨hput, hout⟩ := putToVote_of_receive (hrest.step_of_mem hu') hview hleads
  refine ⟨⟨u, hu', now, hput⟩, fun c hnoc hidc hgonec => ?_⟩
  -- the question gets to the others
  have hasked : (lead ℓ u.pre).proposeToClients .value p {} (some f) ∈ sentBy ℓ tr' := by
    refine mem_sentBy hu' ?_ ?_
    · rw [hview]
      rfl
    · rw [hout]
      exact List.mem_singleton_self _
  obtain ⟨u', hu'', now', draws', hview'⟩ :=
    handled_of_sentBy hrest hnoc hasked fun hmem => hgonec _ hmem rfl
  refine ⟨u', hu'', calls_onPropose (hrest.step_of_mem hu'') hview' ?_⟩
  rw [hid u' hu'' c]
  exact hidc u' hu''

/-- `b` proposes a value, and `c` is asked about it. -/
theorem proposal_reaches_members_third :
    ∃ tr t tr' s, Run (step trio) (startTrio peers) (tr ++ t :: tr') s ∧
      t.label = .act compB (.proposeValue [1] "p") ∧
      ((∃ u ∈ tr', ∃ start,
        PutToVote compA "p" ((u.pre.node compA).knownNodes.getKnownComponents start) start u) ∧
        ∀ c, NoLoss compA c tr' → (∀ u ∈ tr', (u.pre.node c).leaderId ≠ c) →
          (∀ m ∈ s.chan compA c, m.forwarded ≠ some "p") →
          ∃ u ∈ tr', Calls c u (.onPropose "p" [1])) := by
  obtain ⟨tr, t, tr', s, hrun, hl, hknows, hleader, hno, w, hlast, hgone⟩ :=
    exists_run_split_of_replay (step trio) (startTrio peers)
      (fun _ t tr' => (t.pre.node compB).leaderId ≠ "" ∧
        (∀ u ∈ tr', (u.pre.node compA).leaderId = compA) ∧ NoLoss compB compA tr' ∧
        ∃ w ∈ tr'.getLast?, ∀ m ∈ w.post.chan compB compA, m.proposed ≠ some "p")
      [pollAt compA 160, deliverAt compA compB 165, deliverAt compB compA 170,
        deliverAt compA compB 175]
      (.act compB (.proposeValue [1] "p"))
      [deliverAt compB compA 180, deliverAt compA compC 185, deliverAt compA compC 190,
        deliverAt compA compC 195] (by decide)
  have hs : w.post = s := hrun.at_split.2.2.post_of_getLast hlast
  rw [hs] at hgone
  exact ⟨tr, t, tr', s, hrun, hl,
    proposal_reaches_members (initial_startTrio peers) hrun hl hknows hleader hno hgone⟩

/-! ### Each component votes once -/

/-- The call of `SendVote` that a step is: whose, and with what arguments. -/
def Label.voteCast : Label → Option (ComponentUuid × String × Bool)
  | .act u (.vote p accept) => some (u, p, accept)
  | _ => none

/-- The step is a vote of `u` on `p`. -/
def Label.votesOn (u : ComponentUuid) (p : String) (l : Label) : Bool :=
  l.voteCast.any fun v => v.1 = u ∧ v.2.1 = p

/-- How often `u` has voted on `p`. -/
def votesBy (u : ComponentUuid) (p : String) (tr : List (Transition GroupNet Label)) : ℕ :=
  tr.countP fun t => t.label.votesOn u p

theorem Label.voteCast_eq_some {accept : Bool} (h : l.voteCast = some (u, p, accept)) :
    l = .act u (.vote p accept) := by
  rw [Label.voteCast.eq_def] at h
  split at h
  · simp only [Option.some_inj, Prod.mk.injEq] at h
    obtain ⟨rfl, rfl, rfl⟩ := h
    rfl
  · simp at h

/-- The messages of a list that are votes on `p`. -/
def voteCount (p : String) (ms : List GroupMsg) : ℕ :=
  ms.countP fun m => (m.votedOn p).isSome

theorem voteCount_sentNow (h : step members s l = some s') (u : ComponentUuid) (p : String) :
    voteCount p (sentNow u s l) ≤ if l.votesOn u p then 1 else 0 := by
  by_cases hl : l.votesOn u p
  · rw [if_pos hl]
    obtain ⟨⟨a, p', accept⟩, hcast, -⟩ := (Option.any_eq_true _ _).mp hl
    obtain rfl := Label.voteCast_eq_some hcast
    have hlen : (sentNow u s (.act a (.vote p' accept))).length ≤ 1 := by
      rw [sentNow]
      split
      · simp [outputs, eventOf, Group.step, Group.perform, Group.sendVote]
      · simp
    exact List.countP_le_length.trans hlen
  · rw [if_neg hl, voteCount, Nat.le_zero, List.countP_eq_zero]
    intro m hm hvote
    -- a vote that is sent is the message of a call that votes
    obtain ⟨⟨source, r⟩, hv⟩ := Option.isSome_iff_exists.mp hvote
    obtain ⟨type, tsca, hheader⟩ := GroupMsg.votedOn_eq_some hv
    rw [sentNow] at hm
    split at hm
    · rename_i hview
      obtain ⟨e, he⟩ := Option.isSome_iff_exists.mp hview
      obtain ⟨-, eff, hg, hout, -⟩ := step_of_eventOf h (view_eq_some.mp he)
      rw [hout] at hm
      obtain ⟨-, accept, rfl, -⟩ := (Group.sends_of_mem hg hm).of_vote hheader
      rw [eventOf_eq_call (view_eq_some.mp he)] at hl
      simp [Label.votesOn, Label.voteCast] at hl
    · simp at hm

theorem voteCount_sentBy (h : Run (step members) s₀ tr s) (u : ComponentUuid) (p : String) :
    voteCount p (sentBy u tr) ≤ votesBy u p tr := by
  induction h with
  | nil => rfl
  | @snoc tr s s' l _ hs ih =>
    have hsent : sentBy u (tr ++ [⟨s, l, s'⟩]) = sentBy u tr ++ sentNow u s l := by
      simp [sentBy]
    have hnow := voteCount_sentNow hs u p
    rw [hsent, voteCount, List.countP_append, votesBy, List.countP_append, List.countP_singleton]
    rw [voteCount] at ih hnow
    rw [votesBy] at ih
    exact Nat.add_le_add ih hnow

theorem view_isSome_of_leadView {i : GroupLead.Input} (hi : leadView c s l = some i) :
    (view c s l).isSome := by
  obtain ⟨e, he, -⟩ := Option.bind_eq_some_iff.mp hi
  rw [he]
  rfl

theorem leadTrace_append (c : ComponentUuid) (tr tr' : List (Transition GroupNet Label)) :
    leadTrace c (tr ++ tr') = leadTrace c tr ++ leadTrace c tr' :=
  project_append (lead c) (leadView c)

theorem leadTrace_cons {i : GroupLead.Input} (hi : leadView c t.pre t.label = some i) :
    leadTrace c (t :: tr) = ⟨lead c t.pre, i, lead c t.post⟩ :: leadTrace c tr := by
  simp [leadTrace, project, hi]

/-- A vote that `ℓ` hears has come from the component that is its source. -/
theorem received_of_heardVote (h₀ : Initial s₀) (h : Run (step members) s₀ tr s)
    {i : GroupLead.Input} {x : String} {r : VoteResults} (hi : leadView ℓ s l = some i)
    (hx : heardVote p K i = some (x, r)) :
    ∃ u ∈ members, x = u ∧ ∀ v : ComponentUuid, x = v →
      voteCount p (receivedNow v ℓ s l) = 1 := by
  obtain ⟨-, now, rfl⟩ := heardVote_eq_some hx
  obtain ⟨e, he, hlead⟩ := Option.bind_eq_some_iff.mp hi
  obtain ⟨draws, m, rfl, hm⟩ := Group.leadInput_vote hlead
  cases l with
  | act a call => simp [view, eventOf] at he
  | deliver src dst now' draws' =>
    have he' := view_eq_some.mp he
    obtain ⟨m', hhead, heq⟩ := Option.map_eq_some_iff.mp he'
    simp only [Prod.mk.injEq, Group.Event.receive.injEq] at heq
    obtain ⟨rfl, -, -, rfl⟩ := heq
    -- the message was sent by the owner of the channel, under its own id
    obtain ⟨type, tsca, hheader⟩ := GroupMsg.votedOn_eq_some hm
    obtain ⟨hsrc, tr₁, t, tr₂, e, rfl, -, hsend⟩ :=
      (sent_of_mem_chan h₀ h (List.mem_of_mem_head? hhead)).sends h
    have hx' : x = src := (hsend.of_vote hheader).1.trans (parentComponentId_eq h₀ h.at_split.1 src)
    refine ⟨src, hsrc, hx', fun v hv => ?_⟩
    obtain rfl : v = src := Subtype.ext (hv.symm.trans hx')
    rw [receivedNow, if_pos ⟨rfl, rfl⟩, List.take_one, hhead]
    simp [voteCount, hm]
  | lose src dst k => simp [view, eventOf] at he

/-- The votes of one component that `ℓ` hears are votes that it has received from
that component. -/
theorem count_heardVotes_le (h₀ : Initial s₀) (h : Run (step members) s₀ tr s)
    (ℓ : ComponentUuid) (p : String) (K : Finset String) (u : ComponentUuid) :
    ((heardVotes p K (leadTrace ℓ tr)).map Prod.fst).count (u : String)
      ≤ voteCount p (received u ℓ tr) := by
  induction h with
  | nil => rfl
  | @snoc tr s s' l hrun hs ih =>
    have hrec : received u ℓ (tr ++ [⟨s, l, s'⟩]) = received u ℓ tr ++ receivedNow u ℓ s l := by
      simp [received]
    rw [hrec, voteCount, List.countP_append, leadTrace_append, heardVotes, List.filterMap_append,
      List.map_append, List.count_append]
    refine Nat.add_le_add ih ?_
    rcases hi : leadView ℓ s l with _ | i
    · simp [leadTrace, project, hi]
    rw [leadTrace_cons hi]
    rcases hx : heardVote p K i with _ | ⟨x, r⟩
    · simp [hx, leadTrace, project]
    · obtain ⟨-, -, -, hone⟩ := received_of_heardVote h₀ hrun hi hx
      by_cases hu : x = u
      · have hcount := hone u hu
        rw [voteCount] at hcount
        rw [hcount]
        simp [hx, hu, leadTrace, project]
      · simp [hx, hu, leadTrace, project]

/-- The votes on `p` that `ℓ` hears have different sources, when nobody votes
twice. -/
theorem nodup_heardVotes (h₀ : Initial s₀) (h : Run (step members) s₀ tr s)
    (honce : ∀ u ∈ members, votesBy u p tr ≤ 1) :
    ((heardVotes p K (leadTrace ℓ tr)).map Prod.fst).Nodup := by
  rw [List.nodup_iff_count_le_one]
  intro x
  by_cases hx : x ∈ (heardVotes p K (leadTrace ℓ tr)).map Prod.fst
  · obtain ⟨⟨x', r⟩, hmem, rfl⟩ := List.mem_map.mp hx
    obtain ⟨t', ht', hvote⟩ := List.mem_filterMap.mp hmem
    obtain ⟨t, ht, hi, -, -⟩ := mem_project.mp ht'
    obtain ⟨tr₁, tr₂, rfl⟩ := List.append_of_mem ht
    obtain ⟨u, hu, rfl, -⟩ := received_of_heardVote h₀ h.at_split.1 hi hvote
    have hheard := count_heardVotes_le h₀ h ℓ p K u
    have hsub := (received_append_chan h₀ h u ℓ).1
    have hrec : voteCount p (received u ℓ (tr₁ ++ t :: tr₂))
        ≤ voteCount p (sentBy u (tr₁ ++ t :: tr₂)) :=
      ((List.sublist_append_left _ _).trans hsub).countP_le
    have hsent := voteCount_sentBy h u p
    have hvotes := honce u hu
    show ((heardVotes p K (leadTrace ℓ (tr₁ ++ t :: tr₂))).map Prod.fst).count (u : String) ≤ 1
    omega
  · rw [List.count_eq_zero_of_not_mem hx]
    exact Nat.zero_le 1

/-! ### The vote -/

/-- A list of votes in which a majority of `K` is for `r`, and nobody votes twice. -/
theorem card_le_of_votes {votes : List (String × VoteResults)} {V : Finset String}
    {r : VoteResults} (hnodup : (votes.map Prod.fst).Nodup) (hK : ∀ x ∈ votes, x.1 ∈ K)
    (hV : ∀ v ∈ V, (v, r) ∈ votes) :
    V.card ≤ votes.countP (fun x => x.2 = r) ∧
      ∀ d, d ≠ r → votes.countP (fun x => x.2 = d) ≤ K.card - V.card := by
  -- the voters for one result, as a set of the same size
  have hcard : ∀ d, votes.countP (fun x => x.2 = d)
      = (((votes.filter fun x => x.2 = d).map Prod.fst).toFinset).card := by
    intro d
    have hsub : ((votes.filter fun x => x.2 = d).map Prod.fst).Sublist (votes.map Prod.fst) :=
      List.filter_sublist.map _
    rw [List.toFinset_card_of_nodup (hnodup.sublist hsub), List.length_map,
      List.countP_eq_length_filter]
  have hVK : V ⊆ K := fun v hv => hK _ (hV v hv)
  constructor
  · rw [hcard]
    refine Finset.card_le_card fun v hv => ?_
    simpa using hV v hv
  · intro d hd
    rw [hcard, ← Finset.card_sdiff_of_subset hVK]
    refine Finset.card_le_card fun x hx => ?_
    have hxd : (x, d) ∈ votes := by simpa using hx
    refine Finset.mem_sdiff.mpr ⟨hK _ hxd, fun hxV => hd ?_⟩
    -- one component has not voted both ways
    have heq := List.inj_on_of_nodup_map hnodup hxd (hV x hxV) rfl
    exact congrArg Prod.snd heq

/-- The component `v` votes on `p`, and its vote gets through to `ℓ`. -/
structure VoteArrives (ℓ : ComponentUuid) (p : String) (accept : Bool)
    (tr : List (Transition GroupNet Label)) (s : GroupNet) (v : ComponentUuid) : Prop where
  cast : ∃ t ∈ tr, t.label.voteCast = some (v, p, accept)
  noLoss : NoLoss v ℓ tr
  arrived : ∀ m ∈ s.chan v ℓ, m.votedOn p = none

instance (ℓ : ComponentUuid) (p : String) (accept : Bool)
    (tr : List (Transition GroupNet Label)) (s : GroupNet) (v : ComponentUuid) :
    Decidable (VoteArrives ℓ p accept tr s v) :=
  decidable_of_iff ((∃ t ∈ tr, t.label.voteCast = some (v, p, accept)) ∧ NoLoss v ℓ tr ∧
      ∀ m ∈ s.chan v ℓ, m.votedOn p = none)
    ⟨fun h => ⟨h.1, h.2.1, h.2.2⟩, fun h => ⟨h.cast, h.noLoss, h.arrived⟩⟩

/-- `ℓ` takes itself for the leader, and does not get beyond the deadline of a vote
that began at `start`. -/
structure Presides (ℓ : ComponentUuid) (start : ℤ) (tr : List (Transition GroupNet Label)) :
    Prop where
  leader : ∀ t ∈ tr, (t.pre.node ℓ).leaderId = ℓ
  inTime : ∀ t ∈ tr, ∀ i ∈ leadView ℓ t.pre t.label, i.now ≤ start + 1000 * milliseconds

instance (ℓ : ComponentUuid) (start : ℤ) (tr : List (Transition GroupNet Label)) :
    Decidable (Presides ℓ start tr) :=
  decidable_of_iff ((∀ t ∈ tr, (t.pre.node ℓ).leaderId = ℓ) ∧
      ∀ t ∈ tr, ∀ i ∈ leadView ℓ t.pre t.label, i.now ≤ start + 1000 * milliseconds)
    ⟨fun h => ⟨h.1, h.2⟩, fun h => ⟨h.leader, h.inTime⟩⟩

/-- A vote that gets through is heard. -/
theorem mem_heardVotes {s₁ : GroupNet} {start : ℤ} {accept : Bool} (h₀ : Initial s₀)
    (h₁ : Run (step members) s₀ tr s₁) (h : Run (step members) s₁ tr' s)
    (hℓ : Presides ℓ start tr') (hv : VoteArrives ℓ p accept tr' s v) (hK : (v : String) ∈ K) :
    ((v : String), VoteResults.ofAccept accept) ∈ heardVotes p K (leadTrace ℓ tr') := by
  obtain ⟨t, ht, hcast⟩ := hv.cast
  have hl := Label.voteCast_eq_some hcast
  have hvid : (t.pre.node v).parentComponentId = v :=
    Subtype.ext (parentComponentId_of_mem h₀ h₁ h ht v)
  -- the message that the call sends
  set m : GroupMsg :=
    { header := .consensus { sourceComponentId := v
                             body := .vote p (VoteResults.ofAccept accept) } } with hm
  have hvoted : m.votedOn p = some ((v : String), VoteResults.ofAccept accept) := by
    simp [hm, GroupMsg.votedOn]
  have hsent : m ∈ sentBy v tr' := by
    refine mem_sentBy ht ?_ ?_
    · rw [hl]
      simp [view, eventOf]
    · rw [hl]
      simp [outputs, eventOf, Group.step, Group.perform, Group.sendVote, hvid, hm,
        VoteResults.ofAccept]
  have hgone : m ∉ s.chan v ℓ := by
    intro hmem
    have hnone := hv.arrived m hmem
    rw [hvoted] at hnone
    simp at hnone
  obtain ⟨u, hu, now, draws, hview⟩ := handled_of_sentBy h hv.noLoss hsent hgone
  have hid : (u.pre.node ℓ).leaderId = (u.pre.node ℓ).parentComponentId := by
    rw [hℓ.leader u hu, parentComponentId_of_mem h₀ h₁ h hu]
  have hlead : leadView ℓ u.pre u.label
      = some (.vote now p (VoteResults.ofAccept accept) v) := by
    rw [leadView, hview, Option.bind_some]
    exact Group.leadInput_of_votedOn hvoted hid
  refine List.mem_filterMap.mpr ⟨⟨lead ℓ u.pre, _, lead ℓ u.post⟩,
    mem_project.mpr ⟨u, hu, hlead, rfl, rfl⟩, ?_⟩
  simp [heardVote, hK]

/-- A proposal that is sent once is not registered again. -/
theorem not_registers_again {start : ℤ} (h₀ : Initial s₀)
    (h : Run (step members) s₀ (tr ++ t :: tr') s) (hopen : PutToVote ℓ p K start t)
    (hids : (proposals (tr ++ t :: tr')).count p ≤ 1) {t' : Transition GroupLead GroupLead.Input}
    (ht' : t' ∈ leadTrace ℓ tr') : ¬ GroupLead.Registers p t' := by
  intro hreg
  obtain ⟨i, hi, -, hr⟩ := hopen
  have hle := registered_le_proposals h₀ h ℓ p
  have hfirst : GroupLead.Registers p ⟨lead ℓ t.pre, i, lead ℓ t.post⟩ :=
    (GroupLead.registers_iff hr).mpr rfl
  have hmore : 0 < GroupLead.registeredCount p (leadTrace ℓ tr') :=
    List.countP_pos_iff.mpr ⟨t', ht', decide_eq_true hreg⟩
  rw [GroupLead.registeredCount] at hmore
  rw [leadTrace_append, leadTrace_cons hi, GroupLead.registeredCount, List.countP_append,
    List.countP_cons, if_pos (decide_eq_true hfirst)] at hle
  omega

/-- A decision that a call of the `GroupLead` announces is one of the
component's announcements. -/
theorem mem_announcements {r : VoteResults} {t' : Transition GroupLead GroupLead.Input}
    (h : Run (step members) s₀ tr s) (ht' : t' ∈ leadTrace c tr)
    (hann : (p, r) ∈ GroupLead.announces t'.pre t'.label) :
    (p, r) ∈ announcements c tr ∧ ∃ m ∈ sentBy c tr, m.announced = some (p, r) := by
  obtain ⟨t, ht, hi, hpre, -⟩ := mem_project.mp ht'
  rw [← hpre] at hann
  obtain ⟨m, hm, hd⟩ := List.mem_filterMap.mp hann
  have hout := (lead_of_leadView (h.step_of_mem ht) hi).2
  have hview := view_isSome_of_leadView hi
  rw [← hout] at hm
  refine ⟨List.mem_flatMap.mpr ⟨t, ht, ?_⟩, m, mem_sentBy ht hview hm, hd⟩
  rw [if_pos hview]
  exact List.mem_filterMap.mpr ⟨m, hm, hd⟩

/-- The majority that gets through is noticed by the `GroupLead` of `ℓ`. -/
theorem announces_of_votes {start : ℤ} {accept : Bool} {V : Finset ComponentUuid} (h₀ : Initial s₀)
    (h : Run (step members) s₀ (tr ++ t :: tr') s) (hopen : PutToVote ℓ p K start t)
    (hids : (proposals (tr ++ t :: tr')).count p ≤ 1) (hℓ : Presides ℓ start tr')
    (honce : ∀ u ∈ members, votesBy u p (tr ++ t :: tr') ≤ 1)
    (hV : ∀ v ∈ V, (v : String) ∈ K ∧ VoteArrives ℓ p accept tr' s v)
    (hmaj : K.card / 2 + 1 ≤ V.card) (hsize : K.card / 2 < 65535) :
    ∃ t' ∈ leadTrace ℓ tr', (p, VoteResults.ofAccept accept) ∈
      GroupLead.announces t'.pre t'.label := by
  obtain ⟨hrun, hstep, hrest⟩ := h.at_split
  have hreach : Run (step members) s₀ (tr ++ [t]) t.post := .snoc hrun hstep
  have hagain : ∀ t' ∈ leadTrace ℓ tr', ¬ GroupLead.Registers p t' :=
    fun t' ht' => not_registers_again h₀ h hopen hids ht'
  obtain ⟨i, hi, hnow, hreg⟩ := hopen
  -- the vote begins without votes and ends after the votes of the majority
  obtain ⟨pd, hlook, hfresh⟩ := GroupLead.fresh_of_registration hreg
  rw [← (lead_of_leadView hstep hi).1] at hlook
  rw [hnow] at hfresh
  have hstand : GroupLead.Standing p K (start + 1000 * milliseconds) (leadTrace ℓ tr')
      (lead ℓ s) := by
    refine GroupLead.standing_run (run_lead hrest ℓ) hlook hfresh (fun t' ht' => ?_) hsize
    obtain ⟨u, hu, hui, -, -⟩ := mem_project.mp ht'
    exact ⟨hagain t' ht', hℓ.inTime u hu _ hui⟩
  have hnodup : ((heardVotes p K (leadTrace ℓ tr')).map Prod.fst).Nodup := by
    have hall : ((heardVotes p K (leadTrace ℓ (tr ++ t :: tr'))).map Prod.fst).Nodup :=
      nodup_heardVotes h₀ h honce
    rw [leadTrace_append, leadTrace_cons hi, heardVotes, List.filterMap_append,
      List.map_append] at hall
    refine (List.Nodup.of_append_right hall).sublist (List.Sublist.map _ ?_)
    exact (List.sublist_cons_self _ _).filterMap _
  have hmem : ∀ x ∈ heardVotes p K (leadTrace ℓ tr'), x.1 ∈ K := by
    intro x hx
    obtain ⟨t', -, ht'⟩ := List.mem_filterMap.mp hx
    exact (heardVote_eq_some ht').1
  have hheard : ∀ v ∈ V.map (.subtype _),
      (v, VoteResults.ofAccept accept) ∈ heardVotes p K (leadTrace ℓ tr') := by
    intro x hx
    obtain ⟨v, hv, rfl⟩ := Finset.mem_map.mp hx
    exact mem_heardVotes h₀ hreach hrest hℓ (hV v hv).2 (hV v hv).1
  obtain ⟨hfor, hagainst⟩ := card_le_of_votes hnodup hmem hheard
  rw [Finset.card_map] at hfor hagainst
  exact GroupLead.announced_of_majority hstand (hmaj.trans hfor) fun d hd =>
    (hagainst d hd).trans (by omega)

/-- **A vote comes to its end.**  The leader `ℓ` has put the proposal `p` to the vote
of `K`.  When a majority of `K` votes the same way, nobody votes twice, and these
votes get through to `ℓ` within a second, then `ℓ` announces this result; and a
component that does not take itself for the leader is told it, as soon as the
announcement is no longer on its way and was not lost. -/
theorem vote_decided {start : ℤ} {accept : Bool} {V : Finset ComponentUuid} (h₀ : Initial s₀)
    (h : Run (step members) s₀ (tr ++ t :: tr') s) (hopen : PutToVote ℓ p K start t)
    (hids : (proposals (tr ++ t :: tr')).count p ≤ 1) (hℓ : Presides ℓ start tr')
    (honce : ∀ u ∈ members, votesBy u p (tr ++ t :: tr') ≤ 1)
    (hV : ∀ v ∈ V, (v : String) ∈ K ∧ VoteArrives ℓ p accept tr' s v)
    (hmaj : K.card / 2 + 1 ≤ V.card) (hsize : K.card / 2 < 65535) :
    (p, VoteResults.ofAccept accept) ∈ announcements ℓ tr' ∧
      ∀ tr'' s'', Run (step members) s tr'' s'' → ∀ c, NoLoss ℓ c (tr' ++ tr'') →
        (∀ u ∈ tr' ++ tr'', (u.pre.node c).leaderId ≠ c) →
        (∀ m ∈ s''.chan ℓ c, m.announced ≠ some (p, VoteResults.ofAccept accept)) →
        ∃ u ∈ tr' ++ tr'', Calls c u (.onAnnounce p accept) := by
  obtain ⟨hrun, hstep, hrest⟩ := h.at_split
  have hreach : Run (step members) s₀ (tr ++ [t]) t.post := .snoc hrun hstep
  obtain ⟨t', ht', hann⟩ := announces_of_votes h₀ h hopen hids hℓ honce hV hmaj hsize
  obtain ⟨hannounced, m, hm, hmp⟩ := mem_announcements hrest ht' hann
  refine ⟨hannounced, fun tr'' s'' hlater c hno hid hgone => ?_⟩
  -- the announcement reaches the others
  have hm' : m ∈ sentBy ℓ (tr' ++ tr'') := by
    rw [sentBy, List.flatMap_append]
    exact List.mem_append_left _ hm
  have hlong := hrest.append hlater
  obtain ⟨u, hu, now, draws, hview⟩ :=
    handled_of_sentBy hlong hno hm' fun hmem => hgone m hmem hmp
  have hother : (u.pre.node c).leaderId ≠ (u.pre.node c).parentComponentId := by
    rw [parentComponentId_of_mem h₀ hreach hlong hu c]
    exact hid u hu
  have hcall := calls_onAnnounce (hlong.step_of_mem hu) hview hmp hother
  have hacc : decide (VoteResults.ofAccept accept = .accepted) = accept := by
    cases accept <;> rfl
  rw [hacc] at hcall
  exact ⟨u, hu, hcall⟩

/-- `b` and `c` vote for the proposal of `b`, and `a` announces its acceptance. -/
theorem vote_decided_two_votes :
    ∃ tr t tr' s, Run (step trio) (startTrio peers) (tr ++ t :: tr') s ∧
      PutToVote compA "p" {"b", "c"} (180 * milliseconds) t ∧
      (("p", VoteResults.ofAccept true) ∈ announcements compA tr' ∧
        ∀ tr'' s'', Run (step trio) s tr'' s'' → ∀ c, NoLoss compA c (tr' ++ tr'') →
          (∀ u ∈ tr' ++ tr'', (u.pre.node c).leaderId ≠ c) →
          (∀ m ∈ s''.chan compA c, m.announced ≠ some ("p", VoteResults.ofAccept true)) →
          ∃ u ∈ tr' ++ tr'', Calls c u (.onAnnounce "p" true)) := by
  obtain ⟨tr, t, tr', s, hrun, -, hopen, hids, hℓ, honce, w, hlast, hV⟩ :=
    exists_run_split_of_replay (step trio) (startTrio peers)
      (fun tr t tr' => PutToVote compA "p" {"b", "c"} (180 * milliseconds) t ∧
        (proposals (tr ++ t :: tr')).count "p" ≤ 1 ∧ Presides compA (180 * milliseconds) tr' ∧
        (∀ u ∈ trio, votesBy u "p" (tr ++ t :: tr') ≤ 1) ∧
        ∃ w ∈ tr'.getLast?, ∀ v ∈ ({compB, compC} : Finset ComponentUuid),
          (v : String) ∈ ({"b", "c"} : Finset String) ∧
            VoteArrives compA "p" true tr' w.post v)
      [pollAt compA 160, deliverAt compA compB 165, deliverAt compB compA 170,
        deliverAt compA compB 175, .act compB (.proposeValue [1] "p")]
      (deliverAt compB compA 180)
      [.act compB (.vote "p" true), deliverAt compB compA 190, .act compC (.vote "p" true),
        deliverAt compC compA 195] (by decide)
  have hs : w.post = s := hrun.at_split.2.2.post_of_getLast hlast
  rw [hs] at hV
  exact ⟨tr, t, tr', s, hrun, hopen,
    vote_decided (initial_startTrio peers) hrun hopen hids hℓ honce hV (by decide) (by decide)⟩

/-! ### Every vote ends -/

theorem hasLeader_run (h : Run (step members) s₀ tr s) (c : ComponentUuid) :
    (s.node c).hasLeader = (s₀.node c).hasLeader := by
  induction h with
  | nil => rfl
  | @snoc tr s s' l _ hs ih =>
    rw [← ih]
    rcases hv : view c s l with _ | e
    · rw [node_of_view_none hs hv]
    · obtain ⟨-, eff, hg, -, -⟩ := step_of_eventOf hs (view_eq_some.mp hv)
      exact Group.step_hasLeader hg

/-- What a component announces, its `GroupLead` announces. -/
theorem announcements_eq (h : Run (step members) s₀ tr s) (c : ComponentUuid) :
    announcements c tr
      = (leadTrace c tr).flatMap fun t => GroupLead.announces t.pre t.label := by
  induction h with
  | nil => rfl
  | @snoc tr s s' l _ hs ih =>
    have hsplit : announcements c (tr ++ [⟨s, l, s'⟩]) = announcements c tr ++
        if (view c s l).isSome then (outputs s l).filterMap GroupMsg.announced else [] := by
      simp [announcements]
    rw [hsplit, ih, leadTrace_append, List.flatMap_append]
    congr 1
    rcases hi : leadView c s l with _ | i
    · -- without a call of the `GroupLead` nothing is announced
      have hnil : leadTrace c [⟨s, l, s'⟩] = [] := by simp [leadTrace, project, hi]
      rw [hnil, List.flatMap_nil]
      split
      · rename_i hv
        obtain ⟨e, he⟩ := Option.isSome_iff_exists.mp hv
        obtain ⟨-, eff, hg, hout, -⟩ := step_of_eventOf hs (view_eq_some.mp he)
        rw [leadView, he, Option.bind_some] at hi
        rcases Group.step_lead hg with ⟨i, hi', -, -⟩ | ⟨-, haside⟩
        · rw [hi] at hi'
          simp at hi'
        · rw [hout, List.filterMap_eq_nil_iff]
          intro m hm
          by_contra hne
          obtain ⟨d, hd⟩ := Option.ne_none_iff_exists'.mp hne
          exact (haside.sent m hm).not_leadMessage (Group.leadMessage_of_announced hd)
      · rfl
    · rw [leadTrace_cons hi, if_pos (view_isSome_of_leadView hi), (lead_of_leadView hs hi).2]
      simp [leadTrace, project, GroupLead.announces]

/-- **Every vote ends.**  After a proposal, sent once, was put to the vote, the first
call of `Update()` that finds the component in state LEADER, with no heartbeat due,
after the deadline leaves the proposal closed, and exactly one decision on it has
been announced, whatever was voted and whatever happened to the messages. -/
theorem vote_settled {u : Transition GroupNet Label} {start now : ℤ} (h₀ : Initial s₀)
    (h : Run (step members) s₀ (tr ++ t :: (tr' ++ [u])) s) (hopen : PutToVote ℓ p K start t)
    (hids : (proposals (tr ++ t :: (tr' ++ [u]))).count p ≤ 1)
    (hpoll : u.label = .act ℓ (.poll now)) (hrole : (lead ℓ u.pre).currentState = .leader)
    (hidle : ¬ (lead ℓ u.pre).appEntryTimeout.isTimeout now)
    (hlate : start + 1000 * milliseconds < now) :
    p ∉ (lead ℓ s).proposeData ∧
      (announcements ℓ (tr ++ t :: (tr' ++ [u]))).countP (fun d => d.1 = p) = 1 := by
  obtain ⟨hrun, hstep, hrest⟩ := h.at_split
  obtain ⟨hmid, hlast, hpost⟩ := hrest.last
  have hagain : ∀ t' ∈ leadTrace ℓ (tr' ++ [u]), ¬ GroupLead.Registers p t' :=
    fun t' ht' => not_registers_again h₀ h hopen hids ht'
  obtain ⟨i, hi, hnow, hreg⟩ := hopen
  -- the group has a leader, so that the poll is a call of `Update()`
  have hhas : (u.pre.node ℓ).hasLeader = true := by
    obtain ⟨e, -, hlead⟩ := Option.bind_eq_some_iff.mp hi
    rw [hasLeader_run (.cons hstep hmid) ℓ]
    exact Group.hasLeader_of_registration hlead hreg
  have hupdate : leadView ℓ u.pre u.label = some (.update now (u.pre.node ℓ).knownNodes) := by
    rw [hpoll]
    simp [leadView, view, eventOf, Group.leadInput, hhas]
  obtain ⟨pd₀, hlook₀, hfresh⟩ := GroupLead.fresh_of_registration hreg
  rw [← (lead_of_leadView hstep hi).1] at hlook₀
  have hclosed : p ∉ (lead ℓ s).proposeData := by
    rw [← hpost, (lead_of_leadView hlast hupdate).1]
    refine GroupLead.update_closes hrole hidle fun pd hlook => ?_
    have hend : pd.proposeDeadline.endPoint = start + 1000 * milliseconds := by
      refine GroupLead.deadline_of_run (run_lead hmid ℓ) (fun t' ht' => hagain t' ?_) ?_ hlook
      · rw [leadTrace_append]
        exact List.mem_append_left _ ht'
      · intro pd' hlook'
        rw [hlook₀, Option.some_inj] at hlook'
        rw [← hlook', hfresh.endPoint, hnow]
    rw [hend]
    exact hlate
  refine ⟨hclosed, ?_⟩
  -- it was registered once, and is not open any more
  obtain ⟨now₀, timeo, hinit⟩ := h₀.lead ℓ
  have hle := registered_le_proposals h₀ h ℓ p
  have hcount := GroupLead.announced_eq_registered (by rw [hinit]; rfl) (run_lead h ℓ)
    (p := p) (by omega)
  have hfirst : GroupLead.Registers p ⟨lead ℓ t.pre, i, lead ℓ t.post⟩ :=
    (GroupLead.registers_iff hreg).mpr rfl
  have hpos : 0 < GroupLead.registeredCount p (leadTrace ℓ (tr ++ t :: (tr' ++ [u]))) := by
    refine List.countP_pos_iff.mpr ⟨_, ?_, decide_eq_true hfirst⟩
    rw [leadTrace_append, leadTrace_cons hi]
    simp
  rw [GroupLead.openCount, if_neg hclosed] at hcount
  rw [announcements_eq h ℓ]
  show GroupLead.announcedCount p _ = 1
  omega

/-- Nobody votes, and `a` settles the proposal of `b` after a second. -/
theorem vote_settled_unanswered :
    ∃ tr t tr' u s, Run (step trio) (startTrio peers) (tr ++ t :: (tr' ++ [u])) s ∧
      PutToVote compA "p" {"b", "c"} (180 * milliseconds) t ∧
      ("p" ∉ (lead compA s).proposeData ∧
        (announcements compA (tr ++ t :: (tr' ++ [u]))).countP (fun d => d.1 = "p") = 1) := by
  obtain ⟨tr₁, u, tr₂, s, hrun, hl, hnil, hids, hrole, hidle, t, ht, hopen⟩ :=
    exists_run_split_of_replay (step trio) (startTrio peers)
      (fun tr₁ u tr₂ => tr₂.length = 0 ∧ (proposals (tr₁ ++ [u])).count "p" ≤ 1 ∧
        (lead compA u.pre).currentState = .leader ∧
        ¬ (lead compA u.pre).appEntryTimeout.isTimeout (1190 * milliseconds) ∧
        ∃ t ∈ (tr₁.drop 5).head?, PutToVote compA "p" {"b", "c"} (180 * milliseconds) t)
      [pollAt compA 160, deliverAt compA compB 165, deliverAt compB compA 170,
        deliverAt compA compB 175, .act compB (.proposeValue [1] "p"), deliverAt compB compA 180,
        pollAt compA 1185]
      (pollAt compA 1190) [] (by decide)
  obtain rfl := List.length_eq_zero_iff.mp hnil
  obtain ⟨tr', hdrop⟩ := List.head?_eq_some_iff.mp ht
  have hsplit := List.take_append_drop 5 tr₁
  rw [hdrop] at hsplit
  rw [← hsplit, List.append_assoc, List.cons_append] at hrun hids
  exact ⟨tr₁.take 5, t, tr', u, s, hrun, hopen,
    vote_settled (initial_startTrio peers) hrun hopen hids hl hrole hidle (by decide)⟩

end GroupNet

end Riaps
