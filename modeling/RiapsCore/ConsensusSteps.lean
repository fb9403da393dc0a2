/-
What one call of a `GroupLead` can do to its open proposals.

`ConsensusStep gl i gl' out` is the counterpart of `ElectionStep` for the table
`m_proposeData` and the `Announce` messages: a call leaves them alone, opens a
proposal, counts a vote, decides a proposal by a vote, rejects one on a late
vote, or sweeps out all that have expired.  `step_consensus` shows that there
is nothing else.
-/
import RiapsCore.ElectionSteps

namespace Riaps

/-- The number of counted votes with the given result. -/
def ProposeData.tally (pd : ProposeData) : VoteResults → ℕ
  | .accepted => pd.accepted.toNat
  | .rejected => pd.rejected.toNat

namespace GroupLead

variable {gl gl' : GroupLead} {i : Input} {out : List GroupMsg}

/-- The proposal a call registers, with the set of components that may vote on
it. -/
def registration (gl : GroupLead) : Input → Option (String × Finset String)
  | .actionPropose now known proposeId tsca =>
    if gl.getLeaderId ≠ gl.componentId then none
    else if (gl.actionData.lookup tsca.actionId).any
        (fun pd => ¬ pd.proposeDeadline.isTimeout now) then none
    else some (proposeId, known.getKnownComponents now)
  | .propose now known _ proposeId _ =>
    if gl.getLeaderId ≠ gl.componentId then none
    else some (proposeId, known.getKnownComponents now)
  | _ => none

/-- The decisions a call announces. -/
def announces (gl : GroupLead) (i : Input) : List (String × VoteResults) :=
  (gl.step i).2.filterMap GroupMsg.announced

/-- `OnVote` counts a vote of `source`: the proposal is open, its deadline has
not passed and `source` may vote on it. -/
structure CountsFor (gl : GroupLead) (now : ℤ) (proposeId source : String) (pd : ProposeData) :
    Prop where
  lookup : gl.proposeData.lookup proposeId = some pd
  inTime : now ≤ pd.proposeDeadline.endPoint
  member : source ∈ pd.nodesInVote

/-- A freshly registered proposal. -/
structure Fresh (pd : ProposeData) (nodes : Finset String) (now : ℤ) : Prop where
  nodesInVote : pd.nodesInVote = nodes
  endPoint : pd.proposeDeadline.endPoint = now + 1000 * milliseconds
  accepted : pd.accepted = 0
  rejected : pd.rejected = 0

/-- Everything a call can do to the open proposals, with the messages it sends. -/
inductive ConsensusStep (gl : GroupLead) : Input → GroupLead → List GroupMsg → Prop
  | same {i : Input} {gl' : GroupLead} {out : List GroupMsg} :
      gl'.proposeData = gl.proposeData → registration gl i = none →
      (∀ m ∈ out, m.announced = none) →
      (∀ now proposeId result source, i = .vote now proposeId result source →
        ∀ pd, gl.proposeData.lookup proposeId = some pd →
          now ≤ pd.proposeDeadline.endPoint ∧ source ∉ pd.nodesInVote) →
      ConsensusStep gl i gl' out
  | registered {i : Input} {gl' : GroupLead} {out : List GroupMsg} {proposeId : String}
      {nodes : Finset String} {pd : ProposeData} :
      registration gl i = some (proposeId, nodes) → Fresh pd nodes i.now →
      gl'.proposeData = gl.proposeData.insert proposeId pd →
      (∀ m ∈ out, m.announced = none) → ConsensusStep gl i gl' out
  | counted {now : ℤ} {proposeId : String} {result : VoteResults} {source : String}
      {gl' : GroupLead} {pd : ProposeData} :
      CountsFor gl now proposeId source pd →
      gl'.proposeData = gl.proposeData.insert proposeId (pd.count source result) →
      ConsensusStep gl (.vote now proposeId result source) gl' []
  | decided {now : ℤ} {proposeId : String} {result decision : VoteResults} {source : String}
      {gl' : GroupLead} {pd : ProposeData} :
      CountsFor gl now proposeId source pd →
      (pd.count source result).majority ≤ (pd.count source result).tally decision →
      gl'.proposeData = gl.proposeData.erase proposeId →
      ConsensusStep gl (.vote now proposeId result source) gl' [announce proposeId decision]
  | late {now : ℤ} {proposeId : String} {result : VoteResults} {source : String}
      {gl' : GroupLead} {pd : ProposeData} :
      gl.proposeData.lookup proposeId = some pd → pd.proposeDeadline.isTimeout now →
      gl'.proposeData = gl.proposeData.erase proposeId →
      ConsensusStep gl (.vote now proposeId result source) gl' [announce proposeId .rejected]
  | swept {now : ℤ} {known : KnownNodes} :
      ConsensusStep gl (.update now known) (gl.maintain now).1 (gl.maintain now).2

/-! ### The calls one by one -/

theorem update_consensus (gl : GroupLead) (now : ℤ) (known : KnownNodes) :
    ConsensusStep gl (.update now known) (gl.update now known).1 (gl.update now known).2.2 := by
  have hnone : registration gl (.update now known) = none := rfl
  rw [update]
  rcases hs : gl.currentState with _ | _ | _
  · by_cases ht : gl.electionTimeout.isTimeout now
    · simp only [ht, if_true]
      refine .same ?_ hnone ?_ (by simp)
      · rw [becomeCandidate, changeLeader]
        split <;> rfl
      · intro m hm
        rw [List.mem_singleton.mp hm]
        rfl
    · simp only [ht, if_false]
      exact .same rfl hnone (by simp) (by simp)
  · by_cases ht : gl.electionTimeout.isTimeout now
    · simp only [ht, if_true]
      exact .same rfl hnone (by simp) (by simp)
    · simp only [ht, if_false]
      exact .same rfl hnone (by simp) (by simp)
  · by_cases ht : gl.appEntryTimeout.isTimeout now
    · simp only [ht, if_true]
      refine .same rfl hnone ?_ (by simp)
      intro m hm
      rw [List.mem_singleton.mp hm]
      rfl
    · simp only [ht, if_false]
      exact .swept

/-- An election message changes no proposal and announces nothing. -/
theorem updateMessage_frame (gl : GroupLead) (now : ℤ) (timeo : ElectionTimeo)
    (m : LeaderElection) :
    (gl.updateMessage now timeo m).1.proposeData = gl.proposeData ∧
      (gl.updateMessage now timeo m).1.actionData = gl.actionData ∧
      ∀ x ∈ (gl.updateMessage now timeo m).2, x.announced = none := by
  rw [updateMessage]
  split
  · rw [onVoteReqFollower]
    split <;> simp [sendVote, GroupMsg.announced]
  · rw [onVoteReqOther]
    split <;> simp [sendVote, GroupMsg.announced]
  · rw [onVoteReqOther]
    split <;> simp [sendVote, GroupMsg.announced]
  · split
    · rw [onVoteRep]
      split
      · simp only [changeLeader_eq]
        split <;> simp [sendAppendEntry, GroupMsg.announced]
      · simp
    · simp
  · split
    · simp [onAppendEntryFollower, changeLeader_eq]
    · simp
  · split
    · rw [onAppendEntryLeader]
      split <;> simp [changeLeader_eq]
    · simp

theorem updateMessage_consensus (gl : GroupLead) (now : ℤ) (timeo : ElectionTimeo)
    (m : LeaderElection) :
    ConsensusStep gl (.message now timeo m) (gl.updateMessage now timeo m).1
      (gl.updateMessage now timeo m).2 := by
  obtain ⟨hdata, -, hout⟩ := updateMessage_frame gl now timeo m
  exact .same hdata rfl hout (by simp)

theorem onActionProposeFromClient_consensus (gl : GroupLead) (now : ℤ) (known : KnownNodes)
    (proposeId : String) (tsca : TimeSyncCoordA) :
    ConsensusStep gl (.actionPropose now known proposeId tsca)
      (gl.onActionProposeFromClient now known proposeId tsca).1
      (gl.onActionProposeFromClient now known proposeId tsca).2 := by
  rw [onActionProposeFromClient]
  by_cases hl : gl.getLeaderId ≠ gl.componentId
  · rw [if_pos hl]
    exact .same rfl (by rw [registration, if_pos hl]) (by simp) (by simp)
  by_cases ha : (gl.actionData.lookup tsca.actionId).any
      (fun pd => ¬ pd.proposeDeadline.isTimeout now)
  · rw [if_neg hl, if_pos ha]
    exact .same rfl (by rw [registration, if_neg hl, if_pos ha]) (by simp) (by simp)
  · rw [if_neg hl, if_neg ha]
    refine .registered (by rw [registration, if_neg hl, if_neg ha]) ?_ rfl ?_
    · exact ⟨rfl, rfl, rfl, rfl⟩
    · intro m hm
      rw [List.mem_singleton.mp hm]
      rfl

theorem onProposeFromClient_consensus (gl : GroupLead) (now : ℤ) (known : KnownNodes)
    (isAction : Bool) (proposeId : String) (frame : Option Frame) :
    ConsensusStep gl (.propose now known isAction proposeId frame)
      (gl.onProposeFromClient now known isAction proposeId frame).1
      (gl.onProposeFromClient now known isAction proposeId frame).2 := by
  rw [onProposeFromClient]
  by_cases hl : gl.getLeaderId ≠ gl.componentId
  · rw [if_pos hl]
    exact .same rfl (by rw [registration, if_pos hl]) (by simp) (by simp)
  · rw [if_neg hl]
    refine .registered (by rw [registration, if_neg hl]) ?_ rfl ?_
    · exact ⟨rfl, rfl, rfl, rfl⟩
    · intro m hm
      rw [List.mem_singleton.mp hm]
      rfl

theorem onVote_consensus (gl : GroupLead) (now : ℤ) (proposeId : String) (result : VoteResults)
    (source : String) :
    ConsensusStep gl (.vote now proposeId result source)
      (gl.onVote now proposeId result source).1 (gl.onVote now proposeId result source).2 := by
  rw [onVote]
  rcases hpd : gl.proposeData.lookup proposeId with _ | pd
  · refine .same rfl rfl (by simp) fun now' p' r' v' hi pd' hpd' => ?_
    rw [Input.vote.injEq] at hi
    obtain ⟨rfl, rfl, rfl, rfl⟩ := hi
    simp [hpd] at hpd'
  -- late, not eligible, accepted, rejected, or only counted
  by_cases hd : pd.proposeDeadline.isTimeout now
  · simp only [hd, if_true]
    exact .late hpd hd rfl
  by_cases hv : source ∉ pd.nodesInVote
  · simp only [hd, hv, if_false, if_true, not_false_eq_true]
    refine .same rfl rfl (by simp) fun now' p' r' v' hi pd' hpd' => ?_
    rw [Input.vote.injEq] at hi
    obtain ⟨rfl, rfl, rfl, rfl⟩ := hi
    rw [hpd, Option.some_inj] at hpd'
    rw [← hpd']
    exact ⟨not_lt.mp hd, hv⟩
  have hcounts : CountsFor gl now proposeId source pd :=
    ⟨hpd, not_lt.mp hd, not_not.mp hv⟩
  by_cases ha : (pd.count source result).majority ≤ (pd.count source result).accepted.toNat
  · simp only [hd, hv, ha, if_false, if_true]
    exact .decided hcounts ha rfl
  by_cases hr : (pd.count source result).majority ≤ (pd.count source result).rejected.toNat
  · simp only [hd, hv, ha, hr, if_false, if_true]
    exact .decided hcounts hr rfl
  · simp only [hd, hv, ha, hr, if_false]
    exact .counted hcounts rfl

/-- **Every call is one of the listed steps.** -/
theorem step_consensus (gl : GroupLead) (i : Input) :
    ConsensusStep gl i (gl.step i).1 (gl.step i).2 := by
  cases i with
  | update now known => exact update_consensus gl now known
  | message now timeo m => exact updateMessage_consensus gl now timeo m
  | actionPropose now known proposeId tsca =>
    exact onActionProposeFromClient_consensus gl now known proposeId tsca
  | propose now known isAction proposeId frame =>
    exact onProposeFromClient_consensus gl now known isAction proposeId frame
  | vote now proposeId result source => exact onVote_consensus gl now proposeId result source

theorem mem_expired {now : ℤ} {proposeId : String} :
    proposeId ∈ gl.expired now ↔
      ∃ pd, gl.proposeData.lookup proposeId = some pd ∧ pd.proposeDeadline.isTimeout now := by
  rw [expired, ← AList.mem_keys, Table.mem_retain]
  simp

/-- A sweep announces exactly the expired proposals, each as rejected. -/
theorem maintain_announces (gl : GroupLead) (now : ℤ) :
    (gl.maintain now).2.filterMap GroupMsg.announced
      = (gl.expired now).map fun proposeId => (proposeId, VoteResults.rejected) := by
  rw [maintain, List.filterMap_map, ← List.filterMap_eq_map]
  rfl

/-- An announced decision is that of a counted vote which completes a majority,
or the rejection of a proposal whose deadline has passed. -/
theorem announces_cases {p : String} {r : VoteResults} (h : (p, r) ∈ announces gl i) :
    (∃ now r' source pd, i = .vote now p r' source ∧ CountsFor gl now p source pd ∧
      (pd.count source r').majority ≤ (pd.count source r').tally r) ∨
    r = .rejected ∧ ∃ pd, gl.proposeData.lookup p = some pd ∧
      pd.proposeDeadline.isTimeout i.now := by
  have hstep := step_consensus gl i
  rw [announces] at h
  generalize (gl.step i).1 = gl', (gl.step i).2 = out at hstep h
  -- the steps that announce nothing are out
  have hnone : ¬ ∀ m ∈ out, m.announced = none := by
    intro hout
    obtain ⟨m, hm, hp⟩ := List.mem_filterMap.mp h
    simp [hout m hm] at hp
  have hone : ∀ p' r', (p, r) ∈ [announce p' r'].filterMap GroupMsg.announced →
      p = p' ∧ r = r' := by
    intro p' r' hmem
    simpa [announce, GroupMsg.announced] using hmem
  cases hstep with
  | same _ _ hout _ => exact absurd hout hnone
  | registered _ _ _ hout => exact absurd hout hnone
  | counted _ _ => exact absurd (by simp) hnone
  | decided hc hmaj _ =>
    obtain ⟨rfl, rfl⟩ := hone _ _ h
    exact .inl ⟨_, _, _, _, rfl, hc, hmaj⟩
  | late hlook htime _ =>
    obtain ⟨rfl, rfl⟩ := hone _ _ h
    exact .inr ⟨rfl, _, hlook, htime⟩
  | swept =>
    rw [maintain_announces] at h
    obtain ⟨p', hp', heq⟩ := List.mem_map.mp h
    obtain ⟨rfl, rfl⟩ := Prod.mk.inj heq
    exact .inr ⟨rfl, mem_expired.mp hp'⟩

end GroupLead

end Riaps
