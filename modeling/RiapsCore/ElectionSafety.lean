/-
At most one leader per term.

In a group whose members know each other, a leader has the votes of a majority
of the members.  Two majorities share a member, and a member votes once per
term unless it takes over a lower term from a late heartbeat (`StaleEntry`).
So a run without such a heartbeat elects at most one leader per term:

* `electionBallots` — the votes of a run as an abstract election, in which
  nobody votes twice in a term;
* `wins_of_enters` — entering LEADER is winning that election;
* `one_leader_per_term` — two components that enter LEADER in the same term
  are the same component;
* `two_leaders_after_stale_entry` — with one late heartbeat they need not be.
-/
import RiapsCore.Ballots
import RiapsCore.Leadership

open Runs

namespace Riaps

namespace GroupNet

open GroupLead (ballots compA compB compC maxTerm step_election StaleEntry)

variable {members : Finset ComponentUuid} {s s' s₀ : GroupNet} {l : Label} {c c' : ComponentUuid}
  {tr : List (Transition GroupNet Label)} {t : Transition GroupNet Label} {T : UInt32}

/-- Every member's table has exactly the other members. -/
def KnowsAll (members : Finset ComponentUuid) (s : GroupNet) : Prop :=
  ∀ c ∈ members, Table.keySet (s.node c).knownNodes = (members.erase c).image Subtype.val

instance (members : Finset ComponentUuid) (s : GroupNet) : Decidable (KnowsAll members s) :=
  inferInstanceAs (Decidable (∀ c ∈ members, _))

/-- The component `c` has entered LEADER with the term `T`. -/
def EntersLeader (tr : List (Transition GroupNet Label)) (c : ComponentUuid) (T : UInt32) : Prop :=
  ∃ t ∈ tr, (lead c t.pre).currentState ≠ .leader ∧ (lead c t.post).currentState = .leader ∧
    (lead c t.post).electionTerm = T

instance (tr : List (Transition GroupNet Label)) (c : ComponentUuid) (T : UInt32) :
    Decidable (EntersLeader tr c T) :=
  inferInstanceAs (Decidable (∃ t ∈ tr, _))

/-- No member handles a heartbeat of a term below its own as that of its
leader. -/
def NoStaleEntry (members : Finset ComponentUuid) (tr : List (Transition GroupNet Label)) : Prop :=
  ∀ t ∈ tr, ∀ c ∈ members, ∀ i ∈ leadView c t.pre t.label, ¬ StaleEntry (lead c t.pre) i

instance (members : Finset ComponentUuid) (tr : List (Transition GroupNet Label)) :
    Decidable (NoStaleEntry members tr) :=
  inferInstanceAs (Decidable (∀ t ∈ tr, ∀ c ∈ members, _))

/-- The terms of the members stay below `2 ^ 32 - 1`. -/
def TermsBelow (members : Finset ComponentUuid) (tr : List (Transition GroupNet Label)) : Prop :=
  ∀ t ∈ tr, ∀ c ∈ members, (lead c t.post).electionTerm < maxTerm

instance (members : Finset ComponentUuid) (tr : List (Transition GroupNet Label)) :
    Decidable (TermsBelow members tr) :=
  inferInstanceAs (Decidable (∀ t ∈ tr, ∀ c ∈ members, _))

/-! ### The votes of a run as an election -/

/-- In a run without stale entries no member's term decreases. -/
theorem electionTerm_mono (h₀ : Initial s₀) (h : Run (step members) s₀ tr s)
    (hterm : TermsBelow members tr) (hstale : NoStaleEntry members tr) {v : ComponentUuid}
    (hv : v ∈ members) :
    ∀ t ∈ leadTrace v tr,
      t.pre.electionTerm < maxTerm ∧ t.pre.electionTerm ≤ t.post.electionTerm := by
  have hpre : ∀ t ∈ tr, (lead v t.pre).electionTerm < maxTerm := by
    refine (h.pre_of_post (I := fun s => (lead v s).electionTerm < maxTerm) ?_
      fun t ht => hterm t ht v hv).2
    obtain ⟨now, timeo, hinit⟩ := h₀.lead v
    rw [hinit]
    show (0 : UInt32) < maxTerm
    decide
  intro t ht
  obtain ⟨w, hw, hi, hpre', hpost'⟩ := mem_project.mp ht
  have hlt : t.pre.electionTerm < maxTerm := by
    rw [← hpre']
    exact hpre w hw
  refine ⟨hlt, ?_⟩
  rw [GroupLead.next_eq_some.mp ((run_lead h v).step_of_mem ht)]
  refine (GroupLead.le_electionTerm_iff hlt).mpr ?_
  rw [← hpre']
  exact hstale w hw v hv _ hi

/-- The votes cast in a run: at most one by each member in each term. -/
def electionBallots (h₀ : Initial s₀) (h : Run (step members) s₀ tr s)
    (hterm : TermsBelow members tr) (hstale : NoStaleEntry members tr) :
    Ballots ComponentUuid UInt32 String where
  cast := { b | b.1 ∈ members ∧ (b.2.1, b.2.2) ∈ ballots (leadTrace b.1 tr) }
  once := by
    rintro v T a b ⟨hv, ha⟩ ⟨-, hb⟩
    have hmono := electionTerm_mono h₀ h hterm hstale hv
    have hnodup := (GroupLead.ballots_of_mono (run_lead h v) (fun t ht => (hmono t ht).1)
      fun t ht => (hmono t ht).2).2
    -- two ballots of one term are one ballot
    have heq := List.inj_on_of_nodup_map hnodup ha hb rfl
    exact congrArg Prod.snd heq

/-- A vote sent in a run is one of its ballots. -/
theorem ballot_of_votedFor (h : Run (step members) s₀ tr s) {v : ComponentUuid}
    (hv : VotedFor tr v c T) : (T, (c : String)) ∈ ballots (leadTrace v tr) := by
  obtain ⟨m, rep, hsent, hrep, rfl, hfor⟩ := hv
  obtain ⟨le, hle, -⟩ := Option.bind_eq_some_iff.mp hrep
  obtain ⟨t, ht, i, hi, hm⟩ := hsent.lead h (Group.leadMessage_of_election hle)
  rw [← hfor]
  refine List.mem_flatMap.mpr ⟨⟨lead v t.pre, i, lead v t.post⟩, ?_, ?_⟩
  · exact mem_project.mpr ⟨t, ht, hi, rfl, rfl⟩
  · exact (GroupLead.voteRep_of_step hm hrep).2

/-- Becoming CANDIDATE is voting for oneself. -/
theorem ballot_of_candidacy (h₀ : Initial s₀) (h : Run (step members) s₀ tr s) (ht : t ∈ tr)
    (hpre : (lead c t.pre).currentState ≠ .candidate)
    (hpost : (lead c t.post).currentState = .candidate) :
    c ∈ members ∧ ((lead c t.post).electionTerm, (c : String)) ∈ ballots (leadTrace c tr) := by
  have hstep := h.step_of_mem ht
  obtain ⟨tr₁, tr₂, rfl⟩ := List.append_of_mem ht
  have hcid := lead_componentId h₀ h.at_split.1 c
  rcases hv : leadView c t.pre t.label with _ | i
  · rw [lead_of_leadView_none hstep hv] at hpost
    exact absurd hpost hpre
  · obtain ⟨e, he, -⟩ := Option.bind_eq_some_iff.mp hv
    refine ⟨(step_of_eventOf hstep (view_eq_some.mp he)).1, ?_⟩
    refine List.mem_flatMap.mpr ⟨⟨lead c t.pre, i, lead c t.post⟩, ?_, ?_⟩
    · exact mem_project.mpr ⟨t, ht, hv, rfl, rfl⟩
    · have hlead := (lead_of_leadView hstep hv).1
      rw [hlead] at hpost ⊢
      show _ ∈ GroupLead.castVotes (lead c t.pre) i
      rw [GroupLead.castVotes, if_pos ⟨hpre, hpost⟩, hcid]
      simp

/-! ### Leaders are winners -/

/-- With complete tables, a new candidate counts all members. -/
theorem numberOfNodesInVote_of_knowsAll (hcard : members.card ≤ 65535) (hc : c ∈ members)
    (hknow : KnowsAll members s') (hstep : step members s l = some s')
    (hpre : (lead c s).currentState ≠ .candidate)
    (hpost : (lead c s').currentState = .candidate) :
    (lead c s').numberOfNodesInVote.toNat = members.card := by
  have hpeers : (Table.keySet (s'.node c).knownNodes).card = members.card - 1 := by
    rw [hknow c hc, Finset.card_image_of_injective _ Subtype.val_injective,
      Finset.card_erase_of_mem hc]
  have hpos : 0 < members.card := Finset.card_pos.mpr ⟨c, hc⟩
  obtain ⟨now, -, -, hcount⟩ := candidacy_counts hstep hpre hpost
  rw [hcount (by omega), hpeers]
  omega

theorem wins_of_enters (hcard : members.card ≤ 65535) (h₀ : Initial s₀)
    (h : Run (step members) s₀ tr s) (hknow : ∀ t ∈ tr, KnowsAll members t.post)
    (hterm : TermsBelow members tr) (hstale : NoStaleEntry members tr) (he : EntersLeader tr c T) :
    (electionBallots h₀ h hterm hstale).Wins members T c := by
  obtain ⟨t, ht, hpre, hpost, rfl⟩ := he
  obtain ⟨tr', rest, htr⟩ := List.append_of_mem ht
  have hsplit : tr = (tr' ++ [t]) ++ rest := by simp [htr]
  obtain ⟨s', hrun, -⟩ := (hsplit ▸ h).split
  obtain ⟨tr₁, u, tr₂, gl, htr', hupre, hupost, -, hTu, hcamp, hmaj⟩ :=
    elected_of_enters h₀ hrun hpre hpost
  have hu' : u ∈ tr' := by simp [htr']
  have hu : u ∈ tr := by simp [htr, hu']
  obtain ⟨hc, hself⟩ := ballot_of_candidacy h₀ h hu hupre hupost
  obtain ⟨V, hV, hvotes⟩ := hcamp.quorum hmaj
  -- the candidate has counted all members, so its quorum is a majority of them
  rw [numberOfNodesInVote_of_knowsAll hcard hc (hknow u hu) (h.step_of_mem hu) hupre hupost] at hV
  rw [hTu]
  -- a vote before the election is a vote of the whole run
  have hlater : ∀ v, VotedFor tr' v c (lead c u.post).electionTerm →
      VotedFor tr v c (lead c u.post).electionTerm := by
    rintro v ⟨m, rep, hsent, hrest⟩
    refine ⟨m, rep, ?_, hrest⟩
    rw [htr]
    exact hsent.mono _
  have hsub : V ⊆ members := by
    intro v hv
    rcases hvotes v hv with rfl | hvote
    · exact hc
    · obtain ⟨m, rep, hsent, -⟩ := hlater v hvote
      exact hsent.mem_members h
  refine ⟨V, hsub, by omega, fun v hv => ⟨hsub hv, ?_⟩⟩
  rcases hvotes v hv with rfl | hvote
  · exact hself
  · exact ballot_of_votedFor h (hlater v hvote)

/-- **Election safety.**  In a group of at most 65535 components that know each
other throughout, whose terms stay below `2 ^ 32 - 1` and in which no component
handles a stale entry, two components that enter LEADER in the same term are
the same. -/
theorem one_leader_per_term (hcard : members.card ≤ 65535) (h₀ : Initial s₀)
    (h : Run (step members) s₀ tr s) (hknow : ∀ t ∈ tr, KnowsAll members t.post)
    (hterm : TermsBelow members tr) (hstale : NoStaleEntry members tr) (hc : EntersLeader tr c T)
    (hc' : EntersLeader tr c' T) : c = c' := by
  have hwins := wins_of_enters hcard h₀ h hknow hterm hstale hc
  have hwins' := wins_of_enters hcard h₀ h hknow hterm hstale hc'
  exact Subtype.ext (Ballots.winner_unique hwins hwins')

/-! ### Concrete runs -/

/-- A first election, in which `b` makes `a` the leader of term 1. -/
def firstElection : List Label :=
  [pollAt compA 160, deliverAt compA compB 165, deliverAt compB compA 170]

theorem one_leader_per_term_trio :
    ∃ tr s, Run (step trio) (startTrio peers) tr s ∧ EntersLeader tr compA 1 ∧
      ∀ c, EntersLeader tr c 1 → compA = c := by
  obtain ⟨tr, s, hrun, ha, hknow, hterm, hstale⟩ :=
    exists_run_of_replay (step trio) (startTrio peers)
      (fun tr _ =>
        EntersLeader tr compA 1 ∧ (∀ t ∈ tr, KnowsAll trio t.post) ∧ TermsBelow trio tr ∧
          NoStaleEntry trio tr) firstElection (by decide)
  refine ⟨tr, s, hrun, ha, fun c hc => ?_⟩
  exact one_leader_per_term (by decide) (initial_startTrio peers) hrun hknow hterm hstale ha hc

/-- After the first election, `b` becomes leader of term 2 with the vote of
`c`.  Then the first heartbeat of `a` reaches `c`, which goes back to term 1,
becomes candidate for term 2 and is elected by `a`, which has not voted in term
2 yet. -/
theorem two_leaders_after_stale_entry :
    ∃ tr s, Run (step trio) (startTrio peers) tr s ∧
      (∀ t ∈ tr, KnowsAll trio t.pre ∧ KnowsAll trio t.post) ∧ TermsBelow trio tr ∧
      compB ≠ compC ∧ EntersLeader tr compB 2 ∧ EntersLeader tr compC 2 :=
  exists_run_of_replay (step trio) (startTrio peers)
    (fun tr _ =>
      (∀ t ∈ tr, KnowsAll trio t.pre ∧ KnowsAll trio t.post) ∧ TermsBelow trio tr ∧
        compB ≠ compC ∧ EntersLeader tr compB 2 ∧ EntersLeader tr compC 2)
    (firstElection ++
      [pollAt compB 700, .lose compA compC 0, deliverAt compB compC 707, deliverAt compB compC 708,
        deliverAt compC compB 710, deliverAt compA compC 712, pollAt compC 1300,
        deliverAt compC compA 1301, deliverAt compC compA 1302, deliverAt compA compC 1303])
    (by decide)

end GroupNet

end Riaps
