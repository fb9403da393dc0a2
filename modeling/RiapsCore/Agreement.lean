/-
Which decisions of a group agree.

A proposal and its votes are broadcast, and every component whose leader id is
its own keeps a table of open proposals and decides from it.  Nothing connects
the tables of two components: a leader that has not yet heard of its successor
decides like the successor does.  What holds is agreement at one place:

* `registered_le_proposals` — a component registers a proposal at most as often
  as the proposal was sent, and announces it at most as often as that
  (`announced_le_registered`);
* `announce_agreement` — when the ids of the proposals sent are distinct, two
  decisions on one proposal are the same, or come from two components that both
  registered it while each gave its own id as the leader's;
* `leaders_announce_differently` — the second case happens.
-/
import RiapsCore.GroupNet
import RiapsCore.Decisions

open Runs

namespace Riaps

namespace Group

variable {g : Group} {e : Event} {i : GroupLead.Input} {p : String}

/-- What a group registers has just been received as a proposal. -/
theorem proposed_of_registration {nodes : Finset String} (hi : leadInput g e = some i)
    (hreg : GroupLead.registration g.groupLeader i = some (p, nodes)) :
    ∃ now draws m, e = .receive now draws m ∧ m.proposed = some p := by
  obtain ⟨-, hkind⟩ := GroupLead.registration_eq_some hreg
  rw [leadInput.eq_def] at hi
  split at hi
  · split at hi
    · rw [Option.some_inj] at hi
      rw [← hi] at hkind
      simp at hkind
    · simp at hi
  · rw [Option.some_inj] at hi
    rw [← hi] at hkind
    simp at hkind
  · rename_i now draws c frame
    refine ⟨now, draws, ⟨.consensus c, frame⟩, rfl, ?_⟩
    split at hi
    · obtain ⟨source, voteType, body, tsca⟩ := c
      cases body with
      | proposeToLeader p' =>
        have hp : p' = p := by
          cases voteType with
          | value =>
            obtain rfl := Option.some.inj hi
            simpa using hkind
          | action =>
            obtain rfl := Option.some.inj hi
            simpa using hkind
        rw [← hp]
        rfl
      | vote p' r =>
        obtain rfl := Option.some.inj hi
        simp at hkind
      | proposeToClients p' leaderId => simp [leaderCall] at hi
      | announce p' r => simp [leaderCall] at hi
    · simp at hi
  · simp at hi

end Group

/-! ### A whole group -/

namespace GroupNet

open GroupLead (announcedCount registeredCount Registers announces)

variable {members : Finset ComponentUuid} {s s' s₀ : GroupNet} {l : Label} {c c' : ComponentUuid}
  {tr : List (Transition GroupNet Label)} {p : String} {r r' : VoteResults}

/-- The ids of the proposals sent to the leader, in order. -/
def proposals (tr : List (Transition GroupNet Label)) : List String :=
  tr.flatMap fun t => (outputs t.pre t.label).filterMap GroupMsg.proposed

/-- The decisions that `c` has announced, in order. -/
def announcements (c : ComponentUuid) (tr : List (Transition GroupNet Label)) :
    List (String × VoteResults) :=
  tr.flatMap fun t =>
    if (view c t.pre t.label).isSome then (outputs t.pre t.label).filterMap GroupMsg.announced
    else []

/-- The component `c` has registered the proposal `p`, at a moment when it gave
its own id as the leader's. -/
def RegisteredAt (tr : List (Transition GroupNet Label)) (c : ComponentUuid) (p : String) : Prop :=
  ∃ t ∈ leadTrace c tr, Registers p t ∧ t.pre.getLeaderId = t.pre.componentId

/-- The proposals of `p` on their way to `c`. -/
def pending (members : Finset ComponentUuid) (p : String) (c : ComponentUuid) (s : GroupNet) : ℕ :=
  s.chan.inFlight (fun m => m.proposed = some p) members c

theorem count_proposals (out : List GroupMsg) (p : String) :
    (out.filterMap GroupMsg.proposed).count p
      = out.countP fun m => decide (m.proposed = some p) := by
  rw [List.count, List.countP_filterMap]
  refine List.countP_congr fun m _ => ?_
  rcases m.proposed with _ | p'
  · simp
  · simp

/-- Whether the step registers `p` at `c`, as a number. -/
def registersNow (c : ComponentUuid) (p : String) (s : GroupNet) (l : Label) : ℕ :=
  match leadView c s l with
  | none => 0
  | some i => if (GroupLead.registration (lead c s) i).map Prod.fst = some p then 1 else 0

/-- A registration at `c` needs a proposal that `c` has just received. -/
theorem registersNow_le (c : ComponentUuid) (p : String) (s : GroupNet) (l : Label) :
    registersNow c p s l = 0 ∨ registersNow c p s l = 1 ∧
      ∃ now draws m, view c s l = some (.receive now draws m) ∧ m.proposed = some p := by
  rw [registersNow]
  rcases hv : leadView c s l with _ | i
  · exact .inl rfl
  · by_cases hreg : (GroupLead.registration (lead c s) i).map Prod.fst = some p
    · right
      refine ⟨if_pos hreg, ?_⟩
      obtain ⟨⟨p', nodes⟩, hr, hp⟩ := Option.map_eq_some_iff.mp hreg
      obtain rfl : p' = p := hp
      obtain ⟨e, he, hi⟩ := Option.bind_eq_some_iff.mp hv
      obtain ⟨now, draws, m, rfl, hm⟩ := Group.proposed_of_registration hi hr
      exact ⟨now, draws, m, he, hm⟩
    · exact .inl (if_neg hreg)

/-- **One step.**  A proposal on its way to `c` was on its way before or is sent
now; one that `c` registers is no longer on its way. -/
theorem step_pending (h : step members s l = some s') (c : ComponentUuid) (p : String) :
    registersNow c p s l + pending members p c s'
      ≤ pending members p c s + ((outputs s l).filterMap GroupMsg.proposed).count p := by
  rw [count_proposals]
  have hreg := registersNow_le c p s l
  cases step_cases h with
  | @acted a call g eff ha hg =>
    have hout : outputs s (.act a call) = eff.sent := by simp [outputs, eventOf, hg]
    -- a call brings no proposal, and what it sends is on its way to everybody
    have hzero : registersNow c p s (.act a call) = 0 := by
      rcases hreg with hzero | ⟨-, now, draws, m, hv, -⟩
      · exact hzero
      · have := view_eq_some.mp hv
        simp [eventOf] at this
    rw [hzero, hout, pending, pending, Channels.inFlight_broadcast ha]
    omega
  | @delivered src dst now draws m rest g eff hsrc hdst hch hg =>
    have hev : eventOf s (.deliver src dst now draws) = some (dst, .receive now draws m) := by
      simp [eventOf, hch]
    have hout : outputs s (.deliver src dst now draws) = eff.sent := by
      simp [outputs, hev, hg]
    rw [hout, pending, pending, Channels.inFlight_broadcast hdst]
    by_cases hc : dst = c
    · subst hc
      have hdeliver := Channels.inFlight_deliver (fun m => decide (m.proposed = some p)) hsrc hch
      rcases hreg with hzero | ⟨hone, now', draws', m', hv, hm'⟩
      · omega
      · -- the registered proposal is the delivered message
        rw [view_eq_some, hev] at hv
        simp only [Option.some_inj, Prod.mk.injEq, Group.Event.receive.injEq, true_and] at hv
        obtain ⟨-, -, rfl⟩ := hv
        simp only [hm', decide_true, if_true] at hdeliver
        omega
    · have hle := Channels.inFlight_remove_le (fun m => decide (m.proposed = some p)) members
        s.chan src dst c 0
      rcases hreg with hzero | ⟨-, now', draws', m', hv, -⟩
      · omega
      · rw [view_eq_some, hev] at hv
        simp [hc] at hv
  | @lost src dst k =>
    have hle : pending members p c ⟨s.node, s.chan.remove src dst k⟩ ≤ pending members p c s :=
      Channels.inFlight_remove_le _ members s.chan src dst c k
    rcases hreg with hzero | ⟨-, now, draws, m, hv, -⟩
    · omega
    · have := view_eq_some.mp hv
      simp [eventOf] at this

/-- **A whole run.**  A component registers a proposal at most as often as the
proposal was sent. -/
theorem registered_le_proposals (h₀ : Initial s₀) (h : Run (step members) s₀ tr s)
    (c : ComponentUuid) (p : String) :
    registeredCount p (leadTrace c tr) + pending members p c s ≤ (proposals tr).count p := by
  induction h with
  | nil =>
    rw [pending, h₀.chan, Channels.inFlight_empty]
    simp [leadTrace, project, registeredCount]
  | @snoc tr s s' l _ hs ih =>
    have hstep := step_pending hs c p
    have hsent : (proposals (tr ++ [⟨s, l, s'⟩])).count p
        = (proposals tr).count p + ((outputs s l).filterMap GroupMsg.proposed).count p := by
      rw [proposals, List.flatMap_append, List.count_append, proposals]
      simp
    have hreg : registeredCount p (leadTrace c (tr ++ [⟨s, l, s'⟩]))
        = registeredCount p (leadTrace c tr) + registersNow c p s l := by
      rw [leadTrace, project_append, registeredCount, List.countP_append]
      congr 1
      rw [registersNow]
      rcases hv : leadView c s l with _ | i
      · simp [project, hv]
      · have hone : project (lead c) (leadView c) [⟨s, l, s'⟩] = [⟨lead c s, i, lead c s'⟩] := by
          simp [project, hv]
        rw [hone]
        exact GroupLead.registeredCount_singleton p _
    omega

/-- A decision that a component announces is one that a call of its `GroupLead`
announces. -/
theorem announces_of_mem (h : Run (step members) s₀ tr s) (ha : (p, r) ∈ announcements c tr) :
    ∃ t ∈ leadTrace c tr, (p, r) ∈ announces t.pre t.label := by
  obtain ⟨t, ht, hmem⟩ := List.mem_flatMap.mp ha
  by_cases hv : (view c t.pre t.label).isSome
  · rw [if_pos hv] at hmem
    obtain ⟨m, hm, hd⟩ := List.mem_filterMap.mp hmem
    have hsent : Sent tr c m := ⟨t, ht, hv, hm⟩
    obtain ⟨t', ht', i, hi, hm'⟩ := hsent.lead h (Group.leadMessage_of_announced hd)
    refine ⟨⟨lead c t'.pre, i, lead c t'.post⟩, mem_project.mpr ⟨t', ht', hi, rfl, rfl⟩, ?_⟩
    exact List.mem_filterMap.mpr ⟨m, hm', hd⟩
  · rw [if_neg hv] at hmem
    simp at hmem

/-- A component that announces a decision on `p` has registered `p`. -/
theorem registeredAt_of_announced (h₀ : Initial s₀) (h : Run (step members) s₀ tr s)
    (ha : (p, r) ∈ announcements c tr) : RegisteredAt tr c p := by
  obtain ⟨now, timeo, hinit⟩ := h₀.lead c
  have hle := GroupLead.announced_le_registered (by rw [hinit]; rfl) (run_lead h c) p
  obtain ⟨t, ht, hann⟩ := announces_of_mem h ha
  have hpos : 0 < announcedCount p (leadTrace c tr) :=
    List.countP_pos_iff.mpr ⟨(p, r), List.mem_flatMap.mpr ⟨t, ht, hann⟩, by simp⟩
  have hreg : 0 < registeredCount p (leadTrace c tr) := by omega
  obtain ⟨u, hu, hr⟩ := List.countP_pos_iff.mp hreg
  have hr' : Registers p u := of_decide_eq_true hr
  obtain ⟨⟨p', nodes⟩, hn, hp⟩ := Option.map_eq_some_iff.mp hr'
  exact ⟨u, hu, hr', (GroupLead.registration_eq_some hn).1⟩

/-- One component announces one decision on a proposal sent at most once. -/
theorem announced_once (h₀ : Initial s₀) (h : Run (step members) s₀ tr s)
    (honce : (proposals tr).count p ≤ 1) (ha : (p, r) ∈ announcements c tr)
    (ha' : (p, r') ∈ announcements c tr) : r = r' := by
  obtain ⟨now, timeo, hinit⟩ := h₀.lead c
  have hann := GroupLead.announced_le_registered (by rw [hinit]; rfl) (run_lead h c) p
  have hreg := registered_le_proposals h₀ h c p
  have hle : announcedCount p (leadTrace c tr) ≤ 1 := by omega
  obtain ⟨t, ht, hmem⟩ := announces_of_mem h ha
  obtain ⟨t', ht', hmem'⟩ := announces_of_mem h ha'
  rw [announcedCount, List.countP_eq_length_filter] at hle
  -- both decisions are elements of a list with at most one element
  generalize hlist : ((leadTrace c tr).flatMap fun t => announces t.pre t.label).filter
    (fun d => decide (d.1 = p)) = decisions at hle
  have hfirst : (p, r) ∈ decisions := by
    rw [← hlist]
    exact List.mem_filter.mpr ⟨List.mem_flatMap.mpr ⟨t, ht, hmem⟩, by simp⟩
  have hsecond : (p, r') ∈ decisions := by
    rw [← hlist]
    exact List.mem_filter.mpr ⟨List.mem_flatMap.mpr ⟨t', ht', hmem'⟩, by simp⟩
  rcases decisions with _ | ⟨d, _ | ⟨d', rest⟩⟩
  · simp at hfirst
  · rw [List.mem_singleton] at hfirst hsecond
    exact congrArg Prod.snd (hfirst.trans hsecond.symm)
  · simp at hle

/-- **Where decisions agree.**  In a run in which the ids of the proposals sent
are pairwise distinct, two decisions announced on the same proposal are equal,
or they come from two different components, each of which has registered the
proposal while it gave its own id as the leader's. -/
theorem announce_agreement (h₀ : Initial s₀) (h : Run (step members) s₀ tr s)
    (hdistinct : (proposals tr).Nodup) (ha : (p, r) ∈ announcements c tr)
    (ha' : (p, r') ∈ announcements c' tr) :
    r = r' ∨ c ≠ c' ∧ RegisteredAt tr c p ∧ RegisteredAt tr c' p := by
  by_cases hc : c = c'
  · subst hc
    left
    exact announced_once h₀ h (List.nodup_iff_count_le_one.mp hdistinct p) ha ha'
  · right
    exact ⟨hc, registeredAt_of_announced h₀ h ha, registeredAt_of_announced h₀ h ha'⟩

/-! ### Concrete runs -/

open GroupLead (compA compB compC)

/-- Who has heard from whom: `a` and `b` only from `c`, `c` from both. -/
def throughC (c : ComponentUuid) : List String := if c = compC then ["a", "b"] else ["c"]

/-- `c` elects `a` in term 1 and, before `a` hears of it, `b` in term 2; then it
proposes `p`, which reaches both. -/
def twoLeaders : List Label :=
  [pollAt compA 160, deliverAt compA compB 165, deliverAt compA compC 166,
    deliverAt compC compA 170, pollAt compB 700, deliverAt compB compC 701,
    deliverAt compB compC 702, deliverAt compC compB 703, deliverAt compC compB 704,
    deliverAt compB compC 705, .act compC (.proposeValue [] "p"), deliverAt compC compA 710,
    deliverAt compC compA 711, deliverAt compC compB 712]

/-- `c` accepts the proposal of `b`, and `b` announces it. -/
def acceptedByB : List Label :=
  [deliverAt compB compC 713, .act compC (.vote "p" true), deliverAt compC compB 715]

theorem announce_agreement_one_leader :
    ∃ tr s, Run (step trio) (startTrio throughC) tr s ∧
      ("p", VoteResults.accepted) ∈ announcements compB tr ∧
      ∀ c r, ("p", r) ∈ announcements c tr →
        VoteResults.accepted = r ∨
          compB ≠ c ∧ RegisteredAt tr compB "p" ∧ RegisteredAt tr c "p" := by
  obtain ⟨tr, s, hrun, hd, ha⟩ :=
    exists_run_of_replay (step trio) (startTrio throughC)
      (fun tr _ => (proposals tr).Nodup ∧ ("p", VoteResults.accepted) ∈ announcements compB tr)
      (twoLeaders ++ acceptedByB) (by decide)
  refine ⟨tr, s, hrun, ha, fun c r ha' => ?_⟩
  exact announce_agreement (initial_startTrio throughC) hrun hd ha ha'

/-- Meanwhile the vote of `c` is lost on its way to `a`, where the deadline
passes: `a` announces that the same proposal is rejected. -/
theorem leaders_announce_differently :
    ∃ tr s, Run (step trio) (startTrio throughC) tr s ∧ (proposals tr).Nodup ∧
      ("p", VoteResults.accepted) ∈ announcements compB tr ∧
      ("p", VoteResults.rejected) ∈ announcements compA tr :=
  exists_run_of_replay (step trio) (startTrio throughC)
    (fun tr _ =>
      (proposals tr).Nodup ∧ ("p", VoteResults.accepted) ∈ announcements compB tr ∧
        ("p", VoteResults.rejected) ∈ announcements compA tr)
    (twoLeaders ++ acceptedByB ++
      [.lose compC compA 0, pollAt compA 2000, pollAt compA 2001])
    (by decide)

end GroupNet

end Riaps
