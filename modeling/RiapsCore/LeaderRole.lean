/-
Role and leader id of one component.

`Group::FetchNextMessage()` and the consensus handlers ask "is the leader id my
own?" where they mean "am I in state LEADER?".  The two questions have the same
answer until one of two things happens (`BreaksRole`): a leader grants a vote
of a higher term, whose code clears the leader id only after it has overwritten
the role that the test looks at, or the component takes a heartbeat that names
itself for that of a leader.

* `roleAgrees_step_iff` — from a state in agreement, exactly these calls leave
  it;
* `roleAgrees_iff` — a run stays in agreement iff none of its calls is one of
  them.
-/
import RiapsCore.Runs
import RiapsCore.ElectionSteps

open Runs

namespace Riaps

namespace GroupLead

variable {gl : GroupLead} {i : Input}

/-- `GetLeaderId()` is the component's own id exactly in state LEADER. -/
def RoleAgrees (gl : GroupLead) : Prop :=
  gl.getLeaderId = gl.componentId ↔ gl.currentState = .leader

instance (gl : GroupLead) : Decidable gl.RoleAgrees :=
  inferInstanceAs (Decidable (_ ↔ _))

/-- The calls that separate role and leader id. -/
def BreaksRole (gl : GroupLead) : Input → Prop
  | .message _ _ m =>
    (∃ req, gl.currentState = .leader ∧ GrantsRequest gl m req) ∨
      ∃ entry, FollowsEntry gl m entry ∧ entry.sourceComponentId = gl.componentId
  | _ => False

theorem roleAgrees_init (id : ComponentUuid) (now : ℤ) (timeo : ElectionTimeo) :
    (init id now timeo).RoleAgrees := by
  have hid : "" ≠ (id : String) := fun h => id.property h.symm
  simp [RoleAgrees, getLeaderId, init, hid]

/-- A component that is not leader agrees when its leader id is not its own. -/
theorem roleAgrees_of_ne (hs : gl.currentState ≠ .leader)
    (hid : gl.leaderId ≠ gl.componentId) : gl.RoleAgrees :=
  ⟨fun h => absurd h hid, fun h => absurd h hs⟩

theorem RoleAgrees.ne_of_not_leader (h : gl.RoleAgrees) (hs : gl.currentState ≠ .leader) :
    gl.leaderId ≠ gl.componentId :=
  fun hid => hs (h.mp hid)

theorem roleAgrees_of_not_breaks (h : gl.RoleAgrees) (hb : ¬ BreaksRole gl i) :
    (gl.step i).1.RoleAgrees := by
  have hstep := step_election gl i
  generalize (gl.step i).1 = gl', (gl.step i).2 = out at hstep
  cases hstep with
  | same hsame _ =>
    rw [RoleAgrees, getLeaderId, hsame.leaderId, hsame.componentId, hsame.currentState]
    exact h
  | candidacy hs _ =>
    refine roleAgrees_of_ne (by simp [becomeCandidate]) ?_
    rw [becomeCandidate, changeLeader_eq]
    exact fun hid => gl.componentId.property hid.symm
  | voteTimeout hs _ =>
    exact roleAgrees_of_ne (by simp [voteTimeout]) (h.ne_of_not_leader (by simp [hs]))
  | heartBeat hs _ => exact ⟨fun _ => hs, fun _ => rfl⟩
  | grant hg =>
    -- a leader is excluded, so the leader id was not the own one before
    have hs : gl.currentState ≠ .leader := fun hs => hb (.inl ⟨_, hs, hg⟩)
    exact roleAgrees_of_ne (by simp [grantVote]) (h.ne_of_not_leader hs)
  | counted _ hs _ =>
    refine roleAgrees_of_ne ?_ (h.ne_of_not_leader (by simp [hs]))
    show gl.currentState ≠ .leader
    simp [hs]
  | elected _ _ _ _ => exact ⟨fun _ => rfl, fun _ => rfl⟩
  | @followed _ _ _ entry hf =>
    exact roleAgrees_of_ne (by simp [follow]) fun hid => hb (.inr ⟨entry, hf, hid⟩)

theorem not_roleAgrees_of_breaks (h : gl.RoleAgrees) (hb : BreaksRole gl i) :
    ¬ (gl.step i).1.RoleAgrees := by
  rcases i with _ | ⟨now, timeo, m⟩ | _ | _ | _
  case message =>
    rcases hb with ⟨req, hs, hg⟩ | ⟨entry, hf, hid⟩
    · -- FOLLOWER now, but the leader id is still the own one
      rw [step_of_grants hg]
      have hlead : gl.leaderId = gl.componentId := h.mpr hs
      intro hagree
      have := hagree.mp hlead
      simp [grantVote] at this
    · rw [step_of_follows hf]
      intro hagree
      have := hagree.mp hid
      simp [follow] at this
  all_goals exact hb.elim

/-- From a state in agreement, exactly the calls `BreaksRole` leave it. -/
theorem roleAgrees_step_iff (h : gl.RoleAgrees) :
    (gl.step i).1.RoleAgrees ↔ ¬ BreaksRole gl i :=
  ⟨fun hagree hb => not_roleAgrees_of_breaks h hb hagree, roleAgrees_of_not_breaks h⟩

/-- **Role and leader id agree throughout a run iff no call separates them.** -/
theorem roleAgrees_iff {id : ComponentUuid} {now : ℤ} {timeo : ElectionTimeo}
    {tr : List (Transition GroupLead Input)} {s : GroupLead}
    (h : Run next (init id now timeo) tr s) :
    (∀ t ∈ tr, t.post.RoleAgrees) ↔ ∀ t ∈ tr, ¬ BreaksRole t.pre t.label := by
  refine h.invariant_iff RoleAgrees (fun gl i => ¬ BreaksRole gl i)
    (roleAgrees_init id now timeo) fun s l s' hI hs => ?_
  rw [next_eq_some.mp hs]
  exact roleAgrees_step_iff hI

/-! ### Concrete runs -/

theorem roleAgrees_iff_elected :
    ∃ tr s, Run next (init compA 0 shortTimeo) tr s ∧ s.currentState = .leader ∧
      ((∀ t ∈ tr, t.post.RoleAgrees) ↔ ∀ t ∈ tr, ¬ BreaksRole t.pre t.label) := by
  obtain ⟨tr, s, hrun, hs⟩ :=
    exists_run_of_replay next (init compA 0 shortTimeo)
      (fun _ s => s.currentState = .leader) electedInputs
      (by decide)
  exact ⟨tr, s, hrun, hs, roleAgrees_iff hrun⟩

/-- The elected `a` then hears the vote request of `b` for term 2: it is a
follower that still gives its own id as the leader's. -/
theorem leader_grants_vote_keeps_leaderId :
    ∃ tr s, Run next (init compA 0 shortTimeo) tr s ∧ ¬ s.RoleAgrees :=
  exists_run_of_replay next (init compA 0 shortTimeo)
    (fun _ s => ¬ s.RoleAgrees)
    (electedInputs ++
      [.message (220 * milliseconds) shortTimeo { requestForVoteReq := some ⟨"b", 2⟩ }])
    (by decide)

end GroupLead

end Riaps
