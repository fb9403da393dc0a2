/-
One vote per term.

A component votes for itself when it becomes CANDIDATE and for a requester when
it sends a `RequestForVoteRep`.  Both raise `m_electionTerm` to the term of the
vote, and nothing else guards against voting twice: a second vote in a term
needs the term to come back.  The heartbeat branch of a follower is the one
place where it can, because it stores the term of the heartbeat without
comparing it (`StaleEntry`), while the same branch of a leader compares first.

* `castVotes_cases` — a call casts at most one vote, in its new term, which is
  above the old one;
* `le_electionTerm_iff` — the term of a call goes down exactly on a stale entry;
* `votesOnce_iff` — along a run the term never decreases and no term sees two
  votes iff no call handles a stale entry.
-/
import RiapsCore.Runs
import RiapsCore.ElectionSteps

open Runs

namespace Riaps

namespace GroupLead

variable {gl gl' : GroupLead} {i : Input}

/-- The largest `uint32_t`: terms are assumed to stay below it. -/
abbrev maxTerm : UInt32 := 4294967295

/-- The votes a call casts, as term and candidate: one for the component itself
when it becomes CANDIDATE, one for each `RequestForVoteRep` sent. -/
def castVotes (gl : GroupLead) (i : Input) : List (UInt32 × String) :=
  (if gl.currentState ≠ .candidate ∧ (gl.step i).1.currentState = .candidate then
    [((gl.step i).1.electionTerm, (gl.componentId : String))] else []) ++
  ((gl.step i).2.filterMap GroupMsg.voteRep).map fun rep => (rep.electionTerm, rep.voteForId)

/-- All votes cast along a run, in order. -/
def ballots (tr : List (Transition GroupLead Input)) : List (UInt32 × String) :=
  tr.flatMap fun t => castVotes t.pre t.label

/-- The term never decreases across a step, and each term sees at most one vote. -/
def VotesOnce (tr : List (Transition GroupLead Input)) : Prop :=
  (∀ t ∈ tr, t.pre.electionTerm ≤ t.post.electionTerm) ∧
    ∀ T : UInt32, ((ballots tr).map Prod.fst).count T ≤ 1

/-- The call handles a heartbeat of a lower term as that of the leader. -/
def StaleEntry (gl : GroupLead) : Input → Prop
  | .message _ _ m => ∃ entry, FollowsEntry gl m entry ∧ entry.electionTerm < gl.electionTerm
  | _ => False

instance (gl : GroupLead) : ∀ i, Decidable (StaleEntry gl i)
  | .message _ _ m =>
    decidable_of_iff
      (∃ entry ∈ m.appendEntry, FollowsEntry gl m entry ∧ entry.electionTerm < gl.electionTerm)
      ⟨fun ⟨entry, _, h⟩ => ⟨entry, h⟩, fun ⟨entry, h⟩ => ⟨entry, h.1.2.1, h⟩⟩
  | .update _ _ => .isFalse id
  | .actionPropose _ _ _ _ => .isFalse id
  | .propose _ _ _ _ _ => .isFalse id
  | .vote _ _ _ _ => .isFalse id

/-! ### One call -/

theorem lt_succ_term {T : UInt32} (h : T < maxTerm) : T < T + 1 := by
  rw [UInt32.lt_iff_toNat_lt] at h ⊢
  have hmax : maxTerm.toNat = 4294967295 := rfl
  have hsucc : (T + 1).toNat = (T.toNat + 1) % 4294967296 := UInt32.toNat_add T 1
  omega

theorem castVotes_cases (gl : GroupLead) (i : Input) (hterm : gl.electionTerm < maxTerm) :
    castVotes gl i = [] ∨
      ∃ c, castVotes gl i = [((gl.step i).1.electionTerm, c)] ∧
        gl.electionTerm < (gl.step i).1.electionTerm := by
  have hstep := step_election gl i
  rw [castVotes]
  generalize (gl.step i).1 = gl', (gl.step i).2 = out at hstep ⊢
  cases hstep with
  | same hsame hout =>
    have hrep : out.filterMap GroupMsg.voteRep = [] := by
      rw [List.filterMap_eq_nil_iff]
      intro m hm
      simp [GroupMsg.voteRep, (hout m hm).1]
    left
    simp [hrep, hsame.currentState]
  | candidacy hs _ =>
    right
    refine ⟨gl.componentId, ?_, ?_⟩
    · simp [becomeCandidate, hs, sendRequestForVote, GroupMsg.voteRep, GroupMsg.election]
    · rw [becomeCandidate, changeLeader_eq]
      exact lt_succ_term hterm
  | voteTimeout hs _ => simp [hs]
  | heartBeat hs _ =>
    left
    simp [afterAppendEntry, hs, sendAppendEntry, GroupMsg.voteRep, GroupMsg.election]
  | @grant _ _ _ req hg =>
    right
    refine ⟨req.sourceComponentId, ?_, hg.2.1⟩
    simp [grantVote, sendVote, GroupMsg.voteRep, GroupMsg.election]
  | counted _ hs _ => simp [hs]
  | elected _ hs _ _ =>
    left
    simp [hs, sendAppendEntry, GroupMsg.voteRep, GroupMsg.election]
  | followed _ => simp [follow]

/-- The term goes down exactly when a stale entry is handled. -/
theorem le_electionTerm_iff (hterm : gl.electionTerm < maxTerm) :
    gl.electionTerm ≤ (gl.step i).1.electionTerm ↔ ¬ StaleEntry gl i := by
  constructor
  · intro hle hstale
    rcases i with _ | ⟨now, timeo, m⟩ | _ | _ | _
    case message =>
      obtain ⟨entry, hf, hlt⟩ := hstale
      rw [step_of_follows hf] at hle
      exact UInt32.not_lt.mpr hle hlt
    all_goals exact hstale.elim
  · intro hns
    have hstep := step_election gl i
    generalize (gl.step i).1 = gl', (gl.step i).2 = out at hstep
    cases hstep with
    | same hsame _ => exact UInt32.le_of_eq hsame.electionTerm.symm
    | candidacy _ _ =>
      rw [becomeCandidate, changeLeader_eq]
      exact UInt32.le_of_lt (lt_succ_term hterm)
    | voteTimeout _ _ => exact UInt32.le_refl _
    | heartBeat _ _ => exact UInt32.le_refl _
    | grant hg => exact UInt32.le_of_lt hg.2.1
    | counted _ _ _ => exact UInt32.le_refl _
    | elected _ _ _ _ => exact UInt32.le_refl _
    | @followed _ _ _ entry hf => exact UInt32.not_lt.mp fun hlt => hns ⟨entry, hf, hlt⟩

/-! ### A whole run -/

variable {s₀ s : GroupLead} {tr : List (Transition GroupLead Input)}

theorem ballots_append (tr₁ tr₂ : List (Transition GroupLead Input)) :
    ballots (tr₁ ++ tr₂) = ballots tr₁ ++ ballots tr₂ := List.flatMap_append

theorem ballots_singleton (t : Transition GroupLead Input) :
    ballots [t] = castVotes t.pre t.label := by
  simp [ballots]

/-- While the term does not decrease, the terms of the votes cast so far are
distinct and at most the current one. -/
theorem ballots_of_mono (h : Run next s₀ tr s) (hterm : ∀ t ∈ tr, t.pre.electionTerm < maxTerm)
    (hmono : ∀ t ∈ tr, t.pre.electionTerm ≤ t.post.electionTerm) :
    (∀ b ∈ ballots tr, b.1 ≤ s.electionTerm) ∧ ((ballots tr).map Prod.fst).Nodup := by
  induction h with
  | nil => simp [ballots]
  | @snoc tr s s' l _ hs ih =>
    have hlast : (⟨s, l, s'⟩ : Transition GroupLead Input) ∈ tr ++ [⟨s, l, s'⟩] := by simp
    obtain ⟨hle, hnd⟩ := ih (fun t ht => hterm t (List.mem_append_left _ ht))
      fun t ht => hmono t (List.mem_append_left _ ht)
    have hup : s.electionTerm ≤ s'.electionTerm := hmono _ hlast
    have hold : ∀ b ∈ ballots tr, b.1 ≤ s'.electionTerm :=
      fun b hb => UInt32.le_trans (hle b hb) hup
    rw [ballots_append, ballots_singleton]
    rcases castVotes_cases s l (hterm _ hlast) with hnone | ⟨c, hone, hlt⟩
    · rw [hnone, List.append_nil]
      exact ⟨hold, hnd⟩
    · rw [hone, ← next_eq_some.mp hs]
      rw [← next_eq_some.mp hs] at hlt
      constructor
      · intro b hb
        rcases List.mem_append.mp hb with hb | hb
        · exact hold b hb
        · rw [List.mem_singleton.mp hb]
          exact UInt32.le_refl _
      · -- the new term is above every earlier one
        rw [List.map_append, List.nodup_append]
        refine ⟨hnd, by simp, fun T hT T' hT' heq => ?_⟩
        obtain ⟨b, hb, rfl⟩ := List.mem_map.mp hT
        rw [List.map_singleton, List.mem_singleton] at hT'
        rw [hT'] at heq
        exact UInt32.not_lt.mpr (hle b hb) (heq ▸ hlt)

/-- **One vote per term, exactly.**  As long as terms stay below `2 ^ 32 - 1`,
the term of a component never decreases and it votes at most once in each term
iff it never handles a stale entry. -/
theorem votesOnce_iff {id : ComponentUuid} {now : ℤ} {timeo : ElectionTimeo}
    (h : Run next (init id now timeo) tr s) (hterm : ∀ t ∈ tr, t.post.electionTerm < maxTerm) :
    VotesOnce tr ↔ ∀ t ∈ tr, ¬ StaleEntry t.pre t.label := by
  have hpre : ∀ t ∈ tr, t.pre.electionTerm < maxTerm :=
    (h.pre_of_post (I := fun gl => gl.electionTerm < maxTerm)
      (show (0 : UInt32) < maxTerm by decide) hterm).2
  have hmono : (∀ t ∈ tr, t.pre.electionTerm ≤ t.post.electionTerm) ↔
      ∀ t ∈ tr, ¬ StaleEntry t.pre t.label := by
    refine forall₂_congr fun t ht => ?_
    rw [next_eq_some.mp (h.step_of_mem ht)]
    exact le_electionTerm_iff (hpre t ht)
  rw [VotesOnce, hmono]
  -- only the second half of `VotesOnce` is left, and it follows from the first
  refine ⟨And.left, fun hns => ⟨hns, ?_⟩⟩
  exact List.nodup_iff_count_le_one.mp (ballots_of_mono h hpre (hmono.mpr hns)).2

theorem votesOnce_iff_elected :
    ∃ tr s, Run next (init compA 0 shortTimeo) tr s ∧ s.currentState = .leader ∧
      (VotesOnce tr ↔ ∀ t ∈ tr, ¬ StaleEntry t.pre t.label) := by
  obtain ⟨tr, s, hrun, hs, hterm⟩ :=
    exists_run_of_replay next (init compA 0 shortTimeo)
      (fun tr s => s.currentState = .leader ∧ ∀ t ∈ tr, t.post.electionTerm < maxTerm)
      electedInputs (by decide)
  exact ⟨tr, s, hrun, hs, votesOnce_iff hrun hterm⟩

/-- `c` votes for `b` in term 2, takes over term 1 from a late heartbeat of
`a`, and votes for `a` in term 2. -/
theorem votes_twice_after_stale_entry :
    ∃ tr s, Run next (init compC 0 shortTimeo) tr s ∧
      (∀ t ∈ tr, t.post.electionTerm < maxTerm) ∧ ¬ VotesOnce tr := by
  obtain ⟨tr, s, hrun, hterm, hcount⟩ :=
    exists_run_of_replay next (init compC 0 shortTimeo)
      (fun tr _ =>
        (∀ t ∈ tr, t.post.electionTerm < maxTerm) ∧ ((ballots tr).map Prod.fst).count 2 = 2)
      [.message 1 shortTimeo { requestForVoteReq := some ⟨"b", 2⟩ },
        .message 2 shortTimeo { appendEntry := some ⟨"a", 1⟩ },
        .message 3 shortTimeo { requestForVoteReq := some ⟨"a", 2⟩ }]
      (by decide)
  refine ⟨tr, s, hrun, hterm, fun honce => ?_⟩
  have := honce.2 2
  omega

end GroupLead

end Riaps
