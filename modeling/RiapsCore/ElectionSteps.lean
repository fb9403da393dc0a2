/-
What one call of a `GroupLead` can do to its election state.

`ElectionStep gl i gl' out` lists the eight effects a call has on role, term,
votes, leader id and election timeout, each with the guard under which the
source takes that branch; `step_election` shows that there are no others.  The
invariants of the later files are case analyses on it and never unfold the
handlers again.
-/
import RiapsCore.GroupLead

namespace Riaps

namespace GroupLead

variable {gl gl' : GroupLead} {i : Input} {out : List GroupMsg}

theorem changeLeader_eq (gl : GroupLead) (newLeader : String) :
    gl.changeLeader newLeader = { gl with leaderId := newLeader } := by
  rw [changeLeader]
  by_cases h : gl.leaderId = newLeader
  · rw [if_neg (by simpa using h), ← h]
  · rw [if_pos h]

/-- The election fields have the same values. -/
structure SameElection (gl gl' : GroupLead) : Prop where
  componentId : gl'.componentId = gl.componentId
  currentState : gl'.currentState = gl.currentState
  electionTimeout : gl'.electionTimeout = gl.electionTimeout
  electionTerm : gl'.electionTerm = gl.electionTerm
  numberOfNodesInVote : gl'.numberOfNodesInVote = gl.numberOfNodesInVote
  votes : gl'.votes = gl.votes
  leaderId : gl'.leaderId = gl.leaderId

theorem SameElection.refl (gl : GroupLead) : SameElection gl gl :=
  ⟨rfl, rfl, rfl, rfl, rfl, rfl, rfl⟩

/-! ### The states after a branch -/

/-- A vote has been granted to a requester of a higher term. -/
def grantVote (gl : GroupLead) (timeo : ElectionTimeo) (req : RequestForVoteReq) : GroupLead :=
  { gl with
    currentState := .follower
    electionTerm := req.electionTerm
    electionTimeout := gl.electionTimeout.resetCount timeo }

/-- A candidate has counted a vote. -/
def recordVote (gl : GroupLead) (now : ℤ) (rep : RequestForVoteRep) : GroupLead :=
  { gl with votes := gl.votes.insert rep.sourceComponentId now }

/-- A candidate has won. -/
def becomeLeader (gl : GroupLead) : GroupLead :=
  { gl with currentState := .leader, leaderId := gl.componentId }

/-- The sender of a heartbeat is taken as leader. -/
def follow (gl : GroupLead) (timeo : ElectionTimeo) (entry : AppendEntry) : GroupLead :=
  { gl with
    currentState := .follower
    electionTerm := entry.electionTerm
    leaderId := entry.sourceComponentId
    electionTimeout := gl.electionTimeout.resetCount timeo }

/-- The votes that a candidate counts: for itself, in its term, from another. -/
structure CountsVote (gl : GroupLead) (rep : RequestForVoteRep) : Prop where
  other : (gl.componentId : String) ≠ rep.sourceComponentId
  term : rep.electionTerm = gl.electionTerm
  forSelf : rep.voteForId = gl.componentId

/-- The heartbeats whose sender is taken as leader: any at a follower, those of
a higher term at a leader. -/
def FollowsEntry (gl : GroupLead) (m : LeaderElection) (entry : AppendEntry) : Prop :=
  m.requestForVoteReq = none ∧ m.appendEntry = some entry ∧
    (gl.currentState = .follower ∨
      gl.currentState = .leader ∧ gl.electionTerm < entry.electionTerm)

instance (gl : GroupLead) (m : LeaderElection) (entry : AppendEntry) :
    Decidable (FollowsEntry gl m entry) :=
  inferInstanceAs (Decidable (_ ∧ _))

/-- The vote requests that are granted. -/
def GrantsRequest (gl : GroupLead) (m : LeaderElection) (req : RequestForVoteReq) : Prop :=
  m.requestForVoteReq = some req ∧ gl.electionTerm < req.electionTerm ∧
    (gl.currentState = .follower → req.sourceComponentId ≠ gl.componentId)

/-- Everything a call can do to the election state, with the messages it sends. -/
inductive ElectionStep (gl : GroupLead) : Input → GroupLead → List GroupMsg → Prop
  | same {i : Input} {gl' : GroupLead} {out : List GroupMsg} :
      SameElection gl gl' → (∀ m ∈ out, m.election = none ∧ m.heartBeat = none) →
      ElectionStep gl i gl' out
  | candidacy {now : ℤ} {known : KnownNodes} :
      gl.currentState = .follower → gl.electionTimeout.isTimeout now →
      ElectionStep gl (.update now known)
        (gl.becomeCandidate now (known.getMemberCount now).1)
        [(gl.becomeCandidate now (known.getMemberCount now).1).sendRequestForVote]
  | voteTimeout {now : ℤ} {known : KnownNodes} :
      gl.currentState = .candidate → gl.electionTimeout.isTimeout now →
      ElectionStep gl (.update now known) (gl.voteTimeout now) []
  | heartBeat {now : ℤ} {known : KnownNodes} :
      gl.currentState = .leader → gl.appEntryTimeout.isTimeout now →
      ElectionStep gl (.update now known) (gl.afterAppendEntry now) [gl.sendAppendEntry]
  | grant {now : ℤ} {timeo : ElectionTimeo} {m : LeaderElection}
      {req : RequestForVoteReq} :
      GrantsRequest gl m req →
      ElectionStep gl (.message now timeo m) (gl.grantVote timeo req)
        [(gl.grantVote timeo req).sendVote req.sourceComponentId]
  | counted {now : ℤ} {timeo : ElectionTimeo} {m : LeaderElection}
      {rep : RequestForVoteRep} :
      m.requestForVoteRep = some rep → gl.currentState = .candidate → CountsVote gl rep →
      ElectionStep gl (.message now timeo m) (gl.recordVote now rep) []
  | elected {now : ℤ} {timeo : ElectionTimeo} {m : LeaderElection}
      {rep : RequestForVoteRep} :
      m.requestForVoteRep = some rep → gl.currentState = .candidate → CountsVote gl rep →
      (gl.recordVote now rep).hasMajority = true →
      ElectionStep gl (.message now timeo m) (gl.recordVote now rep).becomeLeader
        [(gl.recordVote now rep).becomeLeader.sendAppendEntry]
  | followed {now : ℤ} {timeo : ElectionTimeo} {m : LeaderElection}
      {entry : AppendEntry} :
      FollowsEntry gl m entry →
      ElectionStep gl (.message now timeo m) (gl.follow timeo entry) []

/-! ### The branches of `Update()` -/

theorem ElectionStep.idle (gl : GroupLead) (i : Input) : ElectionStep gl i gl [] :=
  .same (.refl gl) (by simp)

theorem maintain_election (gl : GroupLead) (now : ℤ) (i : Input) :
    ElectionStep gl i (gl.maintain now).1 (gl.maintain now).2 := by
  refine .same ⟨rfl, rfl, rfl, rfl, rfl, rfl, rfl⟩ fun m hm => ?_
  obtain ⟨proposeId, -, rfl⟩ := List.mem_map.mp hm
  exact ⟨rfl, rfl⟩

theorem update_election (gl : GroupLead) (now : ℤ) (known : KnownNodes) :
    ElectionStep gl (.update now known) (gl.update now known).1 (gl.update now known).2.2 := by
  rw [update]
  rcases hs : gl.currentState with _ | _ | _
  · by_cases ht : gl.electionTimeout.isTimeout now
    · simp only [ht, if_true]
      exact .candidacy hs ht
    · simp only [ht, if_false]
      exact .idle gl _
  · by_cases ht : gl.electionTimeout.isTimeout now
    · simp only [ht, if_true]
      exact .voteTimeout hs ht
    · simp only [ht, if_false]
      exact .idle gl _
  · by_cases ht : gl.appEntryTimeout.isTimeout now
    · simp only [ht, if_true]
      exact .heartBeat hs ht
    · simp only [ht, if_false]
      exact maintain_election gl now _

/-! ### The branches of `Update(internalMessage)` -/

variable {now : ℤ} {timeo : ElectionTimeo} {m : LeaderElection}

theorem onVoteReqFollower_eq {req : RequestForVoteReq} (hs : gl.currentState = .follower)
    (hg : gl.electionTerm < req.electionTerm ∧ req.sourceComponentId ≠ gl.componentId) :
    gl.onVoteReqFollower timeo req
      = (gl.grantVote timeo req, [(gl.grantVote timeo req).sendVote req.sourceComponentId]) := by
  rw [onVoteReqFollower, if_pos hg, grantVote, ← hs]

theorem onVoteReqOther_eq {req : RequestForVoteReq}
    (hg : gl.electionTerm < req.electionTerm) :
    gl.onVoteReqOther timeo req
      = (gl.grantVote timeo req, [(gl.grantVote timeo req).sendVote req.sourceComponentId]) := by
  rw [onVoteReqOther, if_pos hg]
  -- the role was overwritten before the test for `LEADER`
  simp [grantVote]

theorem onVoteReqFollower_election {req : RequestForVoteReq} (hs : gl.currentState = .follower)
    (hm : m.requestForVoteReq = some req) :
    ElectionStep gl (.message now timeo m) (gl.onVoteReqFollower timeo req).1
      (gl.onVoteReqFollower timeo req).2 := by
  by_cases hg : gl.electionTerm < req.electionTerm ∧ req.sourceComponentId ≠ gl.componentId
  · rw [onVoteReqFollower_eq hs hg]
    exact .grant ⟨hm, hg.1, fun _ => hg.2⟩
  · rw [onVoteReqFollower, if_neg hg]
    exact .idle gl _

theorem onVoteReqOther_election {req : RequestForVoteReq} (hs : gl.currentState ≠ .follower)
    (hm : m.requestForVoteReq = some req) :
    ElectionStep gl (.message now timeo m) (gl.onVoteReqOther timeo req).1
      (gl.onVoteReqOther timeo req).2 := by
  by_cases hg : gl.electionTerm < req.electionTerm
  · rw [onVoteReqOther_eq hg]
    exact .grant ⟨hm, hg, fun h => absurd h hs⟩
  · rw [onVoteReqOther, if_neg hg]
    exact .idle gl _

theorem onVoteRep_election {rep : RequestForVoteRep} (hs : gl.currentState = .candidate)
    (hm : m.requestForVoteRep = some rep) :
    ElectionStep gl (.message now timeo m) (gl.onVoteRep now rep).1 (gl.onVoteRep now rep).2 := by
  by_cases hg : (gl.componentId : String) ≠ rep.sourceComponentId ∧
      rep.electionTerm = gl.electionTerm ∧ rep.voteForId = gl.componentId
  · have hc : CountsVote gl rep := ⟨hg.1, hg.2.1, hg.2.2⟩
    rw [onVoteRep, if_pos hg]
    by_cases hmaj : (gl.recordVote now rep).hasMajority = true
    · have hmaj' := hmaj
      rw [recordVote] at hmaj'
      simp only [hmaj', if_true, changeLeader_eq]
      exact .elected hm hs hc hmaj
    · have hmaj' := hmaj
      rw [recordVote] at hmaj'
      simp only [hmaj', Bool.false_eq_true, if_false]
      exact .counted hm hs hc
  · rw [onVoteRep, if_neg hg]
    exact .idle gl _

theorem onAppendEntryFollower_eq (entry : AppendEntry) (hs : gl.currentState = .follower) :
    gl.onAppendEntryFollower timeo entry = gl.follow timeo entry := by
  rw [onAppendEntryFollower, changeLeader_eq, follow, ← hs]

theorem onAppendEntryLeader_eq {entry : AppendEntry}
    (hg : gl.electionTerm < entry.electionTerm) :
    gl.onAppendEntryLeader timeo entry = gl.follow timeo entry := by
  rw [onAppendEntryLeader, if_pos hg]
  simp only [changeLeader_eq]
  rfl

theorem updateMessage_election (gl : GroupLead) (now : ℤ) (timeo : ElectionTimeo)
    (m : LeaderElection) :
    ElectionStep gl (.message now timeo m) (gl.updateMessage now timeo m).1
      (gl.updateMessage now timeo m).2 := by
  rw [updateMessage]
  -- a vote request decides the branch; without one, role and content do
  rcases hreq : m.requestForVoteReq with _ | req
  · rcases hs : gl.currentState with _ | _ | _
    · rcases hm : m.appendEntry with _ | entry
      · exact .idle gl _
      · simp only [onAppendEntryFollower_eq entry hs]
        exact .followed ⟨hreq, hm, .inl hs⟩
    · rcases hm : m.requestForVoteRep with _ | rep
      · exact .idle gl _
      · exact onVoteRep_election hs hm
    · rcases hm : m.appendEntry with _ | entry
      · exact .idle gl _
      · by_cases hg : gl.electionTerm < entry.electionTerm
        · simp only [onAppendEntryLeader_eq hg]
          exact .followed ⟨hreq, hm, .inr ⟨hs, hg⟩⟩
        · simp only [onAppendEntryLeader, gt_iff_lt, hg, if_false]
          exact .idle gl _
  · rcases hs : gl.currentState with _ | _ | _
    · exact onVoteReqFollower_election hs hreq
    · exact onVoteReqOther_election (by simp [hs]) hreq
    · exact onVoteReqOther_election (by simp [hs]) hreq

/-! ### The consensus calls -/

theorem onActionProposeFromClient_election (gl : GroupLead) (now : ℤ)
    (known : KnownNodes) (proposeId : String) (tsca : TimeSyncCoordA) (i : Input) :
    ElectionStep gl i (gl.onActionProposeFromClient now known proposeId tsca).1
      (gl.onActionProposeFromClient now known proposeId tsca).2 := by
  rw [onActionProposeFromClient]
  split
  · exact .idle gl i
  split
  · exact .idle gl i
  · refine .same ⟨rfl, rfl, rfl, rfl, rfl, rfl, rfl⟩ fun m hm => ?_
    rw [List.mem_singleton.mp hm]
    exact ⟨rfl, rfl⟩

theorem onProposeFromClient_election (gl : GroupLead) (now : ℤ) (known : KnownNodes)
    (isAction : Bool) (proposeId : String) (frame : Option Frame) (i : Input) :
    ElectionStep gl i (gl.onProposeFromClient now known isAction proposeId frame).1
      (gl.onProposeFromClient now known isAction proposeId frame).2 := by
  rw [onProposeFromClient]
  split
  · exact .idle gl i
  · refine .same ⟨rfl, rfl, rfl, rfl, rfl, rfl, rfl⟩ fun m hm => ?_
    rw [List.mem_singleton.mp hm]
    exact ⟨rfl, rfl⟩

theorem onVote_election (gl : GroupLead) (now : ℤ) (proposeId : String)
    (result : VoteResults) (source : String) (i : Input) :
    ElectionStep gl i (gl.onVote now proposeId result source).1
      (gl.onVote now proposeId result source).2 := by
  have hann : ∀ r : VoteResults, ∀ m ∈ [announce proposeId r],
      m.election = none ∧ m.heartBeat = none := by
    intro r m hm
    rw [List.mem_singleton.mp hm]
    exact ⟨rfl, rfl⟩
  rw [onVote]
  rcases gl.proposeData.lookup proposeId with _ | pd
  · exact .idle gl i
  -- late, not eligible, accepted, rejected, or only counted
  by_cases hd : pd.proposeDeadline.isTimeout now
  · simp only [hd, if_true]
    exact .same ⟨rfl, rfl, rfl, rfl, rfl, rfl, rfl⟩ (hann _)
  by_cases hv : source ∉ pd.nodesInVote
  · simp only [hd, hv, if_false, if_true, not_false_eq_true]
    exact .idle gl i
  by_cases ha : (pd.count source result).majority ≤ (pd.count source result).accepted.toNat
  · simp only [hd, hv, ha, if_false, if_true]
    exact .same ⟨rfl, rfl, rfl, rfl, rfl, rfl, rfl⟩ (hann _)
  by_cases hr : (pd.count source result).majority ≤ (pd.count source result).rejected.toNat
  · simp only [hd, hv, ha, hr, if_false, if_true]
    exact .same ⟨rfl, rfl, rfl, rfl, rfl, rfl, rfl⟩ (hann _)
  · simp only [hd, hv, ha, hr, if_false]
    exact .same ⟨rfl, rfl, rfl, rfl, rfl, rfl, rfl⟩ (by simp)

/-- **Every call is one of the listed steps.** -/
theorem step_election (gl : GroupLead) (i : Input) :
    ElectionStep gl i (gl.step i).1 (gl.step i).2 := by
  cases i with
  | update now known => exact update_election gl now known
  | message now timeo m => exact updateMessage_election gl now timeo m
  | actionPropose now known proposeId tsca =>
    exact onActionProposeFromClient_election gl now known proposeId tsca _
  | propose now known isAction proposeId frame =>
    exact onProposeFromClient_election gl now known isAction proposeId frame _
  | vote now proposeId result source => exact onVote_election gl now proposeId result source _

/-- A `GroupLead` sends no group heartbeats. -/
theorem step_heartBeat (gl : GroupLead) (i : Input) : ∀ m ∈ (gl.step i).2, m.heartBeat = none := by
  intro m hm
  have hstep := step_election gl i
  generalize (gl.step i).1 = gl', (gl.step i).2 = out at hstep hm
  cases hstep with
  | same _ hout => exact (hout m hm).2
  | candidacy _ _ | heartBeat _ _ | grant _ | elected _ _ _ _ =>
    rw [List.mem_singleton.mp hm]
    rfl
  | voteTimeout _ _ | counted _ _ _ | followed _ => simp at hm

theorem step_componentId (gl : GroupLead) (i : Input) :
    (gl.step i).1.componentId = gl.componentId := by
  have hstep := step_election gl i
  generalize (gl.step i).1 = gl', (gl.step i).2 = out at hstep
  cases hstep with
  | same hsame _ => exact hsame.componentId
  | candidacy _ _ =>
    rw [becomeCandidate, changeLeader_eq]
  | voteTimeout _ _ | heartBeat _ _ | grant _ | counted _ _ _ | elected _ _ _ _ | followed _ => rfl

/-! ### Entering a role -/

/-- A component enters CANDIDATE only as a follower whose timeout has passed. -/
theorem ElectionStep.enters_candidate (h : ElectionStep gl i gl' out)
    (hpre : gl.currentState ≠ .candidate) (hpost : gl'.currentState = .candidate) :
    ∃ now known, i = .update now known ∧ gl.currentState = .follower ∧
      gl.electionTimeout.isTimeout now ∧
      gl' = gl.becomeCandidate now (known.getMemberCount now).1 := by
  cases h with
  | same hsame _ => exact absurd (hsame.currentState.symm.trans hpost) hpre
  | candidacy hs ht => exact ⟨_, _, rfl, hs, ht, rfl⟩
  | voteTimeout _ _ => simp [GroupLead.voteTimeout] at hpost
  | heartBeat hs _ => simp [afterAppendEntry, hs] at hpost
  | grant _ => simp [grantVote] at hpost
  | counted _ hs _ => exact absurd hs hpre
  | elected _ _ _ _ => simp [becomeLeader] at hpost
  | followed _ => simp [follow] at hpost

/-- A component enters LEADER only as a candidate that a vote gives the
majority. -/
theorem ElectionStep.enters_leader (h : ElectionStep gl i gl' out)
    (hpre : gl.currentState ≠ .leader) (hpost : gl'.currentState = .leader) :
    ∃ now timeo m rep, i = .message now timeo m ∧ m.requestForVoteRep = some rep ∧
      gl.currentState = .candidate ∧ CountsVote gl rep ∧
      (gl.recordVote now rep).hasMajority = true ∧ gl' = (gl.recordVote now rep).becomeLeader := by
  cases h with
  | same hsame _ => exact absurd (hsame.currentState.symm.trans hpost) hpre
  | candidacy _ _ => simp [becomeCandidate] at hpost
  | voteTimeout _ _ => simp [GroupLead.voteTimeout] at hpost
  | heartBeat hs _ => exact absurd hs hpre
  | grant _ => simp [grantVote] at hpost
  | counted _ _ _ => exact absurd hpost hpre
  | elected hrep hs hc hmaj => exact ⟨_, _, _, _, rfl, hrep, hs, hc, hmaj, rfl⟩
  | followed _ => simp [follow] at hpost

/-! ### Two branches, read forwards -/

theorem step_of_grants {req : RequestForVoteReq} (h : GrantsRequest gl m req) :
    gl.step (.message now timeo m)
      = (gl.grantVote timeo req, [(gl.grantVote timeo req).sendVote req.sourceComponentId]) := by
  obtain ⟨hm, hterm, hsrc⟩ := h
  show gl.updateMessage now timeo m = _
  rw [updateMessage, hm]
  rcases hs : gl.currentState with _ | _ | _
  · exact onVoteReqFollower_eq hs ⟨hterm, hsrc hs⟩
  · exact onVoteReqOther_eq hterm
  · exact onVoteReqOther_eq hterm

theorem step_of_follows {entry : AppendEntry} (h : FollowsEntry gl m entry) :
    gl.step (.message now timeo m) = (gl.follow timeo entry, []) := by
  obtain ⟨hreq, hm, hs⟩ := h
  show gl.updateMessage now timeo m = _
  rw [updateMessage, hreq]
  rcases hs with hs | ⟨hs, hterm⟩
  · simp only [hs, hm, onAppendEntryFollower_eq entry hs]
  · simp only [hs, hm, onAppendEntryLeader_eq hterm]

end GroupLead

end Riaps
