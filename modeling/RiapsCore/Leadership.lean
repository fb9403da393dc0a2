/-
How a component becomes leader, and whom the others follow.

Election messages carry who sent them and in which term, and a `GroupLead`
sends each kind in one situation only.  Read backwards along a run, this turns
what a component has recorded locally into facts about the others:

* `leader_has_majority` — a component that enters LEADER has, in its term, the
  votes of a majority of the `m_numberOfNodesInVote` nodes it counted when it
  became CANDIDATE: its own and those of components that sent one;
* `followed_was_leader` — the leader id of a component is the id of one that
  was in state LEADER, in a term that is not above the component's own.

Neither needs the terms to grow, and both hold for any membership tables.
-/
import RiapsCore.GroupNet
import RiapsCore.OneVote

open Runs

namespace Riaps

/-! ### What a sent election message tells -/

namespace GroupLead

variable {gl : GroupLead} {i : Input} {m : GroupMsg}

/-- A vote is sent under the sender's own id, and is one of its votes. -/
theorem voteRep_of_step {rep : RequestForVoteRep} (hm : m ∈ (gl.step i).2)
    (hrep : m.voteRep = some rep) :
    rep.sourceComponentId = gl.componentId ∧
      (rep.electionTerm, rep.voteForId) ∈ castVotes gl i := by
  constructor
  · have hstep := step_election gl i
    generalize (gl.step i).1 = gl', (gl.step i).2 = out at hstep hm
    cases hstep with
    | same _ hout => simp [GroupMsg.voteRep, (hout m hm).1] at hrep
    | candidacy _ _ =>
      rw [List.mem_singleton.mp hm] at hrep
      simp [sendRequestForVote, GroupMsg.voteRep, GroupMsg.election] at hrep
    | voteTimeout _ _ => simp at hm
    | heartBeat _ _ =>
      rw [List.mem_singleton.mp hm] at hrep
      simp [sendAppendEntry, GroupMsg.voteRep, GroupMsg.election] at hrep
    | grant _ =>
      rw [List.mem_singleton.mp hm] at hrep
      rw [← Option.some.inj hrep]
      rfl
    | counted _ _ _ => simp at hm
    | elected _ _ _ _ =>
      rw [List.mem_singleton.mp hm] at hrep
      simp [sendAppendEntry, GroupMsg.voteRep, GroupMsg.election] at hrep
    | followed _ => simp at hm
  · rw [castVotes]
    refine List.mem_append_right _ (List.mem_map.mpr ⟨rep, ?_, rfl⟩)
    exact List.mem_filterMap.mpr ⟨m, hm, hrep⟩

/-- A heartbeat is sent under the sender's own id and term, by a leader. -/
theorem entry_of_step {entry : AppendEntry} (hm : m ∈ (gl.step i).2)
    (hentry : m.entry = some entry) :
    entry.sourceComponentId = gl.componentId ∧ (gl.step i).1.currentState = .leader ∧
      (gl.step i).1.electionTerm = entry.electionTerm := by
  have hstep := step_election gl i
  generalize (gl.step i).1 = gl', (gl.step i).2 = out at hstep hm ⊢
  cases hstep with
  | same _ hout => simp [GroupMsg.entry, (hout m hm).1] at hentry
  | candidacy _ _ =>
    rw [List.mem_singleton.mp hm] at hentry
    simp [sendRequestForVote, GroupMsg.entry, GroupMsg.election] at hentry
  | voteTimeout _ _ => simp at hm
  | heartBeat hs _ =>
    rw [List.mem_singleton.mp hm] at hentry
    rw [← Option.some.inj hentry]
    exact ⟨rfl, hs, rfl⟩
  | grant _ =>
    rw [List.mem_singleton.mp hm] at hentry
    simp [sendVote, GroupMsg.entry, GroupMsg.election] at hentry
  | counted _ _ _ => simp at hm
  | elected _ _ _ _ =>
    rw [List.mem_singleton.mp hm] at hentry
    rw [← Option.some.inj hentry]
    exact ⟨rfl, rfl, rfl⟩
  | followed _ => simp at hm

/-- The majority test asks for more than half of the counted nodes. -/
theorem quorum_of_hasMajority (h : gl.hasMajority = true) :
    gl.numberOfNodesInVote.toNat / 2 + 1 ≤ Table.size gl.votes := by
  have hsize : gl.getNumberOfVotes.toNat ≤ Table.size gl.votes := by
    rw [getNumberOfVotes, UInt32.toNat_ofNat']
    exact Nat.mod_le _ _
  have hle : gl.numberOfNodesInVote / 2 + 1 ≤ gl.getNumberOfVotes := by
    rw [hasMajority] at h
    split at h
    · exact of_decide_eq_true h
    · -- of an odd number the code takes the ceiling of its half
      split at h
      · rename_i hodd
        rw [hodd] at h
        exact of_decide_eq_true h
      · simp at h
  rw [UInt32.le_iff_toNat_le, UInt32.toNat_add, UInt32.toNat_div] at hle
  have htwo : (2 : UInt32).toNat = 2 := rfl
  have hone : (1 : UInt32).toNat = 1 := rfl
  have hlt := gl.numberOfNodesInVote.toNat_lt
  rw [htwo, hone] at hle
  omega

end GroupLead

namespace GroupNet

open GroupLead (compA compB step_election)

variable {members : Finset ComponentUuid} {s s' s₀ : GroupNet} {l : Label} {c u : ComponentUuid}
  {tr : List (Transition GroupNet Label)} {t : Transition GroupNet Label} {m : GroupMsg}
  {T : UInt32}

/-- The component `v` has sent a vote for `c` in the term `T`. -/
def VotedFor (tr : List (Transition GroupNet Label)) (v c : ComponentUuid) (T : UInt32) : Prop :=
  ∃ m rep, Sent tr v m ∧ m.voteRep = some rep ∧ rep.electionTerm = T ∧ rep.voteForId = c

/-- The component `c` has been in state LEADER in the term `T`. -/
def WasLeader (tr : List (Transition GroupNet Label)) (c : ComponentUuid) (T : UInt32) : Prop :=
  ∃ t ∈ tr, (lead c t.post).currentState = .leader ∧ (lead c t.post).electionTerm = T

theorem WasLeader.mono (h : WasLeader tr c T) (tr' : List (Transition GroupNet Label)) :
    WasLeader (tr ++ tr') c T := by
  obtain ⟨t, ht, hs⟩ := h
  exact ⟨t, List.mem_append_left _ ht, hs⟩

/-- An election message that a `GroupLead` handles was sent by someone. -/
theorem sent_of_leadView (h₀ : Initial s₀) (h : Run (step members) s₀ tr s) {now : ℤ}
    {timeo : ElectionTimeo} {le : LeaderElection}
    (hv : leadView c s l = some (.message now timeo le)) :
    ∃ src m, Sent tr src m ∧ m.election = some le := by
  obtain ⟨e, he, hi⟩ := Option.bind_eq_some_iff.mp hv
  obtain ⟨draws, m, rfl, hm⟩ := Group.leadInput_message hi
  obtain ⟨src, hsent⟩ := sent_of_receive h₀ h he
  exact ⟨src, m, hsent, hm⟩

theorem voteRep_of_sent (h₀ : Initial s₀) (h : Run (step members) s₀ tr s) {rep : RequestForVoteRep}
    (hs : Sent tr u m) (hrep : m.voteRep = some rep) : rep.sourceComponentId = u := by
  obtain ⟨le, hle, -⟩ := Option.bind_eq_some_iff.mp hrep
  obtain ⟨t, ht, i, -, hm⟩ := hs.lead h (Group.leadMessage_of_election hle)
  obtain ⟨tr₁, tr₂, rfl⟩ := List.append_of_mem ht
  rw [(GroupLead.voteRep_of_step hm hrep).1, lead_componentId h₀ h.at_split.1]

/-- The sender of a heartbeat is the one it names, and was leader in its term. -/
theorem entry_of_sent (h₀ : Initial s₀) (h : Run (step members) s₀ tr s) {entry : AppendEntry}
    (hs : Sent tr u m) (hentry : m.entry = some entry) :
    entry.sourceComponentId = u ∧ WasLeader tr u entry.electionTerm := by
  obtain ⟨le, hle, -⟩ := Option.bind_eq_some_iff.mp hentry
  obtain ⟨t, ht, i, hi, hm⟩ := hs.lead h (Group.leadMessage_of_election hle)
  obtain ⟨hid, hstate, hterm⟩ := GroupLead.entry_of_step hm hentry
  have hpost := (lead_of_leadView (h.step_of_mem ht) hi).1
  constructor
  · obtain ⟨tr₁, tr₂, rfl⟩ := List.append_of_mem ht
    rw [hid, lead_componentId h₀ h.at_split.1]
  · exact ⟨t, ht, by rw [hpost, hstate], by rw [hpost, hterm]⟩

/-! ### A candidacy -/

/-- What a candidate that has become one in the state `start` has recorded: the
term and the number of nodes of that moment, and votes that were really cast. -/
structure Campaign (tr : List (Transition GroupNet Label)) (c : ComponentUuid)
    (start gl : GroupLead) : Prop where
  componentId : gl.componentId = c
  term : gl.electionTerm = start.electionTerm
  number : gl.numberOfNodesInVote = start.numberOfNodesInVote
  votes : ∀ v ∈ gl.votes, ∃ u : ComponentUuid, (u : String) = v ∧
    (u = c ∨ VotedFor tr u c start.electionTerm)

/-- The votes of a candidate begin with its own. -/
theorem campaign_start {gl : GroupLead} (hid : gl.componentId = c) (now : ℤ) (count : UInt16) :
    Campaign tr c (gl.becomeCandidate now count) (gl.becomeCandidate now count) := by
  refine ⟨?_, rfl, rfl, fun v hv => ⟨c, ?_, .inl rfl⟩⟩
  · rw [GroupLead.becomeCandidate, GroupLead.changeLeader_eq]
    exact hid
  · rw [GroupLead.becomeCandidate, GroupLead.changeLeader_eq] at hv
    simp only [AList.mem_insert, AList.notMem_empty, or_false] at hv
    rw [hv, hid]

/-- A counted vote was cast for this candidate in this term. -/
theorem Campaign.recordVote {start gl : GroupLead} (h : Campaign tr c start gl) (now : ℤ)
    {rep : RequestForVoteRep} (hc : gl.CountsVote rep) (hid : rep.sourceComponentId = u)
    (hs : Sent tr u m) (hrep : m.voteRep = some rep) :
    Campaign tr c start (gl.recordVote now rep) := by
  refine ⟨h.componentId, h.term, h.number, fun v hv => ?_⟩
  rcases (AList.mem_insert _).mp hv with hnew | hold
  · refine ⟨u, by rw [hnew, hid], .inr ⟨m, rep, hs, hrep, ?_, ?_⟩⟩
    · rw [hc.term, h.term]
    · rw [hc.forSelf, h.componentId]
  · exact h.votes v hold

/-- The vote that a step brings to `c` was sent, by the component it names. -/
def Genuine (tr : List (Transition GroupNet Label)) (c : ComponentUuid) (s : GroupNet) (l : Label) :
    Prop :=
  ∀ now timeo le rep, leadView c s l = some (.message now timeo le) →
    le.requestForVoteRep = some rep →
      ∃ u m, Sent tr u m ∧ m.voteRep = some rep ∧ rep.sourceComponentId = u

/-- A step that leaves `c` a candidate continues its campaign. -/
theorem Campaign.step {start : GroupLead} (h : Campaign tr c start (lead c s))
    (hstep : GroupNet.step members s l = some s') (hsrc : Genuine tr c s l)
    (hpre : (lead c s).currentState = .candidate) (hpost : (lead c s').currentState = .candidate) :
    Campaign tr c start (lead c s') := by
  rcases lead_election hstep c with hsame | ⟨i, hv, hel⟩
  · rwa [hsame]
  generalize lead c s' = gl', outputs s l = out at hel hpost ⊢
  cases hel with
  | same hsame _ =>
    refine ⟨hsame.componentId.trans h.componentId, hsame.electionTerm.trans h.term,
      hsame.numberOfNodesInVote.trans h.number, ?_⟩
    rw [hsame.votes]
    exact h.votes
  | candidacy hs _ => simp [hs] at hpre
  | voteTimeout _ _ => simp [GroupLead.voteTimeout] at hpost
  | heartBeat hs _ => simp [hs] at hpre
  | grant _ => simp [GroupLead.grantVote] at hpost
  | counted hrep _ hc =>
    obtain ⟨u, m, hsent, hm, hid⟩ := hsrc _ _ _ _ hv hrep
    exact h.recordVote _ hc hid hsent hm
  | elected _ _ _ _ => simp [GroupLead.becomeLeader] at hpost
  | followed _ => simp [GroupLead.follow] at hpost

/-- A component that enters CANDIDATE does so by starting a campaign. -/
theorem campaign_of_enters (hid : (lead c s).componentId = c)
    (hstep : GroupNet.step members s l = some s')
    (hpre : (lead c s).currentState ≠ .candidate) (hpost : (lead c s').currentState = .candidate) :
    Campaign tr c (lead c s') (lead c s') := by
  rcases lead_election hstep c with hsame | ⟨i, -, hel⟩
  · rw [hsame] at hpost
    exact absurd hpost hpre
  · obtain ⟨now, known, -, -, -, hlead⟩ := hel.enters_candidate hpre hpost
    rw [hlead]
    exact campaign_start hid now _

/-- A component becomes CANDIDATE when it polls: it drops the expired entries
of its table and counts, in 16 bits, those that are left, and itself. -/
theorem candidacy_counts (hstep : GroupNet.step members s l = some s')
    (hpre : (lead c s).currentState ≠ .candidate)
    (hpost : (lead c s').currentState = .candidate) :
    ∃ now, l = .act c (.poll now) ∧ (s'.node c).knownNodes = (s.node c).knownNodes.live now ∧
      ((Table.keySet (s'.node c).knownNodes).card < 65536 →
        (lead c s').numberOfNodesInVote.toNat
          = (Table.keySet (s'.node c).knownNodes).card + 1) := by
  rcases lead_election hstep c with hsame | ⟨i, hv, hel⟩
  · rw [hsame] at hpost
    exact absurd hpost hpre
  obtain ⟨now, known, rfl, hs, ht, hlead⟩ := hel.enters_candidate hpre hpost
  obtain ⟨e, he, hi⟩ := Option.bind_eq_some_iff.mp hv
  obtain ⟨-, eff, hg, -, -⟩ := step_of_eventOf hstep (view_eq_some.mp he)
  obtain ⟨rfl, hl, rfl⟩ := Group.leadInput_update hi
  have hlive : (s'.node c).knownNodes = (s.node c).knownNodes.live now :=
    Group.knownNodes_of_tableCall hg (if_pos ⟨hl, hs, ht⟩)
  refine ⟨now, eventOf_eq_call (view_eq_some.mp he), hlive, fun hcard => ?_⟩
  rw [hlive] at hcard ⊢
  rw [hlead]
  show ((KnownNodes.getMemberCount _ now).1.toUInt32 + 1).toNat = _
  -- fewer than 2 ^ 16 entries: neither the count nor the sum wraps around
  rw [KnownNodes.getMemberCount_fst, KnownNodes.getKnownComponents, UInt32.toNat_add,
    UInt16.toNat_toUInt32, UInt16.toNat_ofNat']
  have hone : (1 : UInt32).toNat = 1 := rfl
  rw [hone]
  omega

/-- In a run, the votes that reach a component are genuine. -/
theorem genuine_of_run (h₀ : Initial s₀) (h : Run (step members) s₀ tr s) : Genuine tr c s l := by
  intro now timeo le rep hv hrep
  obtain ⟨u, m, hsent, hm⟩ := sent_of_leadView h₀ h hv
  have hvote : m.voteRep = some rep := by
    rw [GroupMsg.voteRep, hm, Option.bind_some, hrep]
  exact ⟨u, m, hsent, hvote, voteRep_of_sent h₀ h hsent hvote⟩

theorem Genuine.mono (h : Genuine tr c s l) (tr' : List (Transition GroupNet Label)) :
    Genuine (tr ++ tr') c s l := by
  intro now timeo le rep hv hrep
  obtain ⟨u, m, hsent, hvote, hid⟩ := h now timeo le rep hv hrep
  exact ⟨u, m, hsent.mono _, hvote, hid⟩

/-- A candidate in a run: the transition in which it became one, after which it
has stayed one, and what it has recorded since. -/
theorem campaign_of_candidate (h₀ : Initial s₀) (h : Run (step members) s₀ tr s)
    (hs : (lead c s).currentState = .candidate) :
    ∃ tr₁ u tr₂, tr = tr₁ ++ u :: tr₂ ∧ (lead c u.pre).currentState ≠ .candidate ∧
      (lead c u.post).currentState = .candidate ∧
      (∀ w ∈ tr₂, (lead c w.post).currentState = .candidate) ∧
      Campaign tr c (lead c u.post) (lead c s) := by
  have hinit : ¬ (lead c s₀).currentState = .candidate := by
    obtain ⟨now, timeo, heq⟩ := h₀.lead c
    rw [heq]
    simp [GroupLead.init]
  obtain ⟨tr₁, u, tr₂, rfl, hpre, hpost, hall⟩ :=
    h.since (fun s => (lead c s).currentState = .candidate) hinit hs
  obtain ⟨h₁, hu, h₂⟩ := h.at_split
  refine ⟨tr₁, u, tr₂, rfl, hpre, hpost, fun w hw => (hall w hw).2, ?_⟩
  have hstart : Campaign (tr₁ ++ u :: tr₂) c (lead c u.post) (lead c u.post) :=
    campaign_of_enters (lead_componentId h₀ h₁ c) hu hpre hpost
  -- the campaign goes on through the transitions after `u`, in all of which `c` is a candidate
  refine (h₂.invariant (fun s => Campaign (tr₁ ++ u :: tr₂) c (lead c u.post) (lead c s))
    (fun s l => (lead c s).currentState = .candidate ∧ Genuine (tr₁ ++ u :: tr₂) c s l ∧
      ∀ s', step members s l = some s' → (lead c s').currentState = .candidate)
    hstart (fun s l s' hC hI hs => hI.step hs hC.2.1 hC.1 (hC.2.2 s' hs)) fun w hw => ?_).1
  refine ⟨(hall w hw).1, ?_, fun s' hs' => ?_⟩
  · obtain ⟨trw, trw', htr⟩ := List.append_of_mem hw
    have hsplit : tr₁ ++ u :: tr₂ = (tr₁ ++ u :: trw) ++ w :: trw' := by simp [htr]
    rw [hsplit] at h ⊢
    exact (genuine_of_run h₀ h.at_split.1).mono _
  · have heq := h₂.step_of_mem hw
    rw [hs', Option.some_inj] at heq
    rw [heq]
    exact (hall w hw).2

/-- The distinct voters behind a majority. -/
theorem Campaign.quorum {start gl : GroupLead} (h : Campaign tr c start gl)
    (hmaj : gl.hasMajority = true) :
    ∃ V : Finset ComponentUuid, start.numberOfNodesInVote.toNat / 2 + 1 ≤ V.card ∧
      ∀ v ∈ V, v = c ∨ VotedFor tr v c start.electionTerm := by
  refine ⟨(Table.keySet gl.votes).subtype (· ≠ ""), ?_, fun v hv => ?_⟩
  · -- every key is the id of a component, so none is lost
    have hall : ∀ v ∈ Table.keySet gl.votes, v ≠ "" := by
      intro v hv
      obtain ⟨u, rfl, -⟩ := h.votes v (Table.mem_keySet.mp hv)
      exact u.property
    rw [Finset.card_subtype, Finset.filter_true_of_mem hall, Table.card_keySet, ← h.number]
    exact GroupLead.quorum_of_hasMajority hmaj
  · obtain ⟨u, hu, hvote⟩ := h.votes v (Table.mem_keySet.mp (Finset.mem_subtype.mp hv))
    rwa [Subtype.ext hu] at hvote

/-- A component that enters LEADER has a majority in a campaign: the transition
`u` in which it became CANDIDATE, and the state `gl` with the votes of the
majority. -/
theorem elected_of_enters (h₀ : Initial s₀) (h : Run (step members) s₀ (tr ++ [t]) s)
    (hpre : (lead c t.pre).currentState ≠ .leader)
    (hpost : (lead c t.post).currentState = .leader) :
    ∃ tr₁ u tr₂ gl, tr = tr₁ ++ u :: tr₂ ∧ (lead c u.pre).currentState ≠ .candidate ∧
      (lead c u.post).currentState = .candidate ∧
      (∀ w ∈ tr₂, (lead c w.post).currentState = .candidate) ∧
      (lead c t.post).electionTerm = (lead c u.post).electionTerm ∧
      Campaign tr c (lead c u.post) gl ∧ gl.hasMajority = true := by
  obtain ⟨hrun, hstep, -⟩ := h.last
  rcases lead_election hstep c with hsame | ⟨i, hv, hel⟩
  · rw [hsame] at hpost
    exact absurd hpost hpre
  obtain ⟨now, timeo, le, rep, rfl, hrep, hs, hc, hmaj, hlead⟩ := hel.enters_leader hpre hpost
  obtain ⟨tr₁, u, tr₂, htr, hupre, hupost, hall, hcamp⟩ := campaign_of_candidate h₀ hrun hs
  -- the vote that completes the majority belongs to the campaign as well
  obtain ⟨w, m, hsent, hm, hid⟩ := genuine_of_run h₀ hrun _ _ _ _ hv hrep
  have hrec := hcamp.recordVote now hc hid hsent hm
  refine ⟨tr₁, u, tr₂, _, htr, hupre, hupost, hall, ?_, hrec, hmaj⟩
  rw [hlead]
  exact hrec.term

/-- **No leadership without a majority.**  A component that enters LEADER
became CANDIDATE, in the same term, in a transition `u` after which it stayed
one; and with the number `N` of nodes it counted then, at least `N / 2 + 1`
distinct components are itself or have sent a vote for it in that term. -/
theorem leader_has_majority (h₀ : Initial s₀) (h : Run (step members) s₀ (tr ++ [t]) s)
    (hpre : (lead c t.pre).currentState ≠ .leader)
    (hpost : (lead c t.post).currentState = .leader) :
    ∃ tr₁ u tr₂, tr = tr₁ ++ u :: tr₂ ∧ (lead c u.pre).currentState ≠ .candidate ∧
      (lead c u.post).currentState = .candidate ∧
      (∀ w ∈ tr₂, (lead c w.post).currentState = .candidate) ∧
      (lead c t.post).electionTerm = (lead c u.post).electionTerm ∧
      ∃ V : Finset ComponentUuid,
        (lead c u.post).numberOfNodesInVote.toNat / 2 + 1 ≤ V.card ∧
        ∀ v ∈ V, v = c ∨ VotedFor tr v c (lead c t.post).electionTerm := by
  obtain ⟨tr₁, u, tr₂, gl, htr, hupre, hupost, hall, hterm, hcamp, hmaj⟩ :=
    elected_of_enters h₀ h hpre hpost
  refine ⟨tr₁, u, tr₂, htr, hupre, hupost, hall, hterm, ?_⟩
  rw [hterm]
  exact hcamp.quorum hmaj

/-- `a` is elected by `b` in a group of three. -/
theorem leader_has_majority_trio :
    ∃ tr t, Run (step trio) (startTrio peers) (tr ++ [t]) t.post ∧
      (lead compA t.pre).currentState ≠ .leader ∧ (lead compA t.post).currentState = .leader ∧
      ∃ tr₁ u tr₂, tr = tr₁ ++ u :: tr₂ ∧ (lead compA u.pre).currentState ≠ .candidate ∧
        (lead compA u.post).currentState = .candidate ∧
        (∀ w ∈ tr₂, (lead compA w.post).currentState = .candidate) ∧
        (lead compA t.post).electionTerm = (lead compA u.post).electionTerm ∧
        ∃ V : Finset ComponentUuid,
          (lead compA u.post).numberOfNodesInVote.toNat / 2 + 1 ≤ V.card ∧
          ∀ v ∈ V, v = compA ∨ VotedFor tr v compA (lead compA t.post).electionTerm := by
  obtain ⟨tr, t, hrun, hpre, hpost⟩ :=
    exists_run_snoc_of_replay (step trio) (startTrio peers)
      (fun _ t =>
        (lead compA t.pre).currentState ≠ .leader ∧ (lead compA t.post).currentState = .leader)
      [pollAt compA 160, deliverAt compA compB 165] (deliverAt compB compA 170) (by decide)
  exact ⟨tr, t, hrun, hpre, hpost, leader_has_majority (initial_startTrio peers) hrun hpre hpost⟩

/-! ### Whom a component follows -/

/-- The leader id is empty, or that of a component that was in state LEADER in
a term not above the own one. -/
def FollowsElected (tr : List (Transition GroupNet Label)) (gl : GroupLead) : Prop :=
  gl.getLeaderId ≠ "" → ∃ u : ComponentUuid, gl.getLeaderId = u ∧
    ∃ T₀, T₀ ≤ gl.electionTerm ∧ WasLeader tr u T₀

/-- The leader id stays that of an elected component while it is kept and the
term does not decrease. -/
theorem FollowsElected.keep {gl gl' : GroupLead} (h : FollowsElected tr gl)
    (hid : gl'.leaderId = gl.leaderId) (hle : gl.electionTerm ≤ gl'.electionTerm)
    (tr' : List (Transition GroupNet Label)) : FollowsElected (tr ++ tr') gl' := by
  intro hne
  rw [GroupLead.getLeaderId, hid] at hne ⊢
  obtain ⟨u, hu, T₀, hT₀, hwas⟩ := h hne
  exact ⟨u, hu, T₀, UInt32.le_trans hT₀ hle, hwas.mono tr'⟩

/-- A leader follows itself, and has been leader in its term. -/
theorem followsElected_self (hmem : t ∈ tr) (hlead : (lead c t.post).currentState = .leader)
    (hid : (lead c t.post).leaderId = c) : FollowsElected tr (lead c t.post) := by
  intro _
  exact ⟨c, hid, (lead c t.post).electionTerm, UInt32.le_refl _, t, hmem, hlead, rfl⟩

theorem followsElected_step (h₀ : Initial s₀) (h : Run (step members) s₀ tr s)
    (hs : step members s l = some s') (hI : FollowsElected tr (lead c s)) :
    FollowsElected (tr ++ [⟨s, l, s'⟩]) (lead c s') := by
  have hcid := congrArg Subtype.val (lead_componentId h₀ h c)
  have hself : (lead c s').currentState = .leader → (lead c s').leaderId = c →
      FollowsElected (tr ++ [⟨s, l, s'⟩]) (lead c s') := by
    intro hlead hid
    exact followsElected_self (t := ⟨s, l, s'⟩) (by simp) hlead hid
  rcases lead_election hs c with hsame | ⟨i, hv, hel⟩
  · rw [hsame]
    exact hI.keep rfl (UInt32.le_refl _) _
  generalize lead c s' = gl', outputs s l = out at hel hself ⊢
  cases hel with
  | same hsame _ => exact hI.keep hsame.leaderId (UInt32.le_of_eq hsame.electionTerm.symm) _
  | candidacy _ _ =>
    intro hne
    rw [GroupLead.becomeCandidate, GroupLead.changeLeader_eq] at hne
    exact absurd rfl hne
  | voteTimeout _ _ => exact hI.keep rfl (UInt32.le_refl _) _
  | heartBeat hlead _ => exact hself hlead hcid
  | @grant _ timeo _ req hg =>
    have hid : ((lead c s).grantVote timeo req).leaderId = (lead c s).leaderId := rfl
    exact hI.keep hid (UInt32.le_of_lt hg.2.1) _
  | counted _ _ _ => exact hI.keep rfl (UInt32.le_refl _) _
  | elected _ _ _ _ => exact hself rfl hcid
  | @followed _ _ m entry hf =>
    -- the heartbeat names its sender, which was leader in the term that is taken over
    intro _
    obtain ⟨u, m', hsent, hm⟩ := sent_of_leadView h₀ h hv
    have hentry : m'.entry = some entry := by
      rw [GroupMsg.entry, hm, Option.bind_some, hf.2.1]
    obtain ⟨hid, hwas⟩ := entry_of_sent h₀ h hsent hentry
    exact ⟨u, hid, entry.electionTerm, UInt32.le_refl _, hwas.mono _⟩

/-- **Only elected components are followed.**  A leader id that is not empty is
that of a component that was in state LEADER, in a term not above the one of
the component that has the id. -/
theorem followed_was_leader (h₀ : Initial s₀) (h : Run (step members) s₀ tr s)
    (hL : (lead c s).getLeaderId ≠ "") :
    ∃ u : ComponentUuid, (lead c s).getLeaderId = u ∧
      ∃ T₀, T₀ ≤ (lead c s).electionTerm ∧ WasLeader tr u T₀ := by
  have hrun : FollowsElected tr (lead c s) := by
    induction h with
    | nil =>
      obtain ⟨now, timeo, heq⟩ := h₀.lead c
      intro hne
      rw [heq] at hne
      exact absurd rfl hne
    | snoc hrun hs ih =>
      -- the induction hypothesis asks for a leader id before the step as well
      refine followsElected_step h₀ hrun hs fun hne => ?_
      exact ih hne hne
  exact hrun hL

/-- `b` follows the elected `a`. -/
theorem followed_was_leader_trio :
    ∃ tr s, Run (step trio) (startTrio peers) tr s ∧ (lead compB s).getLeaderId ≠ "" ∧
      ∃ u : ComponentUuid, (lead compB s).getLeaderId = u ∧
        ∃ T₀, T₀ ≤ (lead compB s).electionTerm ∧ WasLeader tr u T₀ := by
  obtain ⟨tr, s, hrun, hL⟩ :=
    exists_run_of_replay (step trio) (startTrio peers)
      (fun _ s => (lead compB s).getLeaderId ≠ "")
      [pollAt compA 160, deliverAt compA compB 165, deliverAt compB compA 170,
        deliverAt compA compB 175] (by decide)
  exact ⟨tr, s, hrun, hL, followed_was_leader (initial_startTrio peers) hrun hL⟩

end GroupNet

end Riaps
