/-
An undisturbed candidacy wins.

A component whose election timeout passes asks all others for their votes.  If
nobody else is in an election, no message is lost and no other election timeout
passes meanwhile, then every order of deliveries leads to the same end: all vote
for the candidate, it becomes LEADER, and all follow it.

* `ElectionEvent` — what a step can do to the roles and to the election messages
  in flight, when no timeout passes and nothing is lost;
* `Running` — where a candidacy stands: each member still has to be asked, or has
  voted, and its vote is on its way or counted, or the candidate has won;
* `candidacy_wins` — at every moment nobody else leaves FOLLOWER, and once the
  election messages are delivered, which they can be, the candidate leads;
* `lone_member_decides_nothing` — there must be somebody else to vote: a group of
  one never has a leader.
-/
import RiapsCore.GroupCallbacks
import RiapsCore.ElectionSafety

open Runs

namespace Riaps

namespace GroupLead

variable {gl : GroupLead} {now : ℤ} {timeo : ElectionTimeo} {c u : ComponentUuid} {T : UInt32}

/-! ### The three election messages -/

/-- The content of `SendRequestForVote()`. -/
def voteRequest (c : ComponentUuid) (T : UInt32) : LeaderElection :=
  { requestForVoteReq := some ⟨c, T⟩ }

/-- The content of `SendAppendEntry()`. -/
def leaderEntry (c : ComponentUuid) (T : UInt32) : LeaderElection :=
  { appendEntry := some ⟨c, T⟩ }

/-- The content of `SendVote(c)`, sent by `u`. -/
def voteFor (c u : ComponentUuid) (T : UInt32) : LeaderElection :=
  { requestForVoteRep := some ⟨u, c, T⟩ }

/-- The candidate and the leader of a term ignore a request of that term. -/
theorem updateMessage_voteRequest (hs : gl.currentState ≠ .follower) (hT : gl.electionTerm = T) :
    gl.updateMessage now timeo (voteRequest c T) = (gl, []) := by
  have hother : gl.onVoteReqOther timeo ⟨c, T⟩ = (gl, []) := by
    rw [onVoteReqOther, if_neg (by rw [hT]; exact UInt32.lt_irrefl T)]
  rw [updateMessage, voteRequest]
  rcases hstate : gl.currentState with _ | _ | _
  · exact absurd hstate hs
  · exact hother
  · exact hother

/-- They ignore a heartbeat of that term as well. -/
theorem updateMessage_leaderEntry (hs : gl.currentState ≠ .follower) (hT : gl.electionTerm = T) :
    gl.updateMessage now timeo (leaderEntry c T) = (gl, []) := by
  rw [updateMessage, leaderEntry]
  rcases hstate : gl.currentState with _ | _ | _
  · exact absurd hstate hs
  · rfl
  · simp only [onAppendEntryLeader]
    rw [if_neg (by rw [hT]; exact UInt32.lt_irrefl T)]

/-- Only a candidate looks at votes. -/
theorem updateMessage_voteFor (hs : gl.currentState ≠ .candidate) :
    gl.updateMessage now timeo (voteFor c u T) = (gl, []) := by
  rw [updateMessage, voteFor]
  rcases hstate : gl.currentState with _ | _ | _
  · rfl
  · exact absurd hstate hs
  · rfl

/-- The candidate counts a vote for itself and looks for a majority. -/
theorem updateMessage_counts (hs : gl.currentState = .candidate) (hid : gl.componentId = c)
    (hT : gl.electionTerm = T) (hu : u ≠ c) :
    gl.updateMessage now timeo (voteFor c u T)
      = if (gl.recordVote now ⟨u, c, T⟩).hasMajority then
          ((gl.recordVote now ⟨u, c, T⟩).becomeLeader,
            [(gl.recordVote now ⟨u, c, T⟩).becomeLeader.sendAppendEntry])
        else (gl.recordVote now ⟨u, c, T⟩, []) := by
  have hcounts : gl.componentId ≠ (u : String) ∧ T = gl.electionTerm ∧
      (c : String) = gl.componentId := by
    refine ⟨fun h => hu ?_, hT.symm, by rw [hid]⟩
    exact Subtype.ext (h.symm.trans (congrArg Subtype.val hid))
  rw [updateMessage, voteFor, hs]
  simp only [onVoteRep]
  rw [if_pos hcounts]
  show (if (gl.recordVote now ⟨u, c, T⟩).hasMajority then _ else _) = _
  split
  · rw [changeLeader_eq]
    rfl
  · rfl

/-- Enough votes are a majority. -/
theorem hasMajority_of_size (hsize : gl.numberOfNodesInVote.toNat / 2 + 1 ≤ Table.size gl.votes)
    (hlt : Table.size gl.votes < 2 ^ 32) : gl.hasMajority = true := by
  have htwo : (2 : UInt32).toNat = 2 := rfl
  have hone : (1 : UInt32).toNat = 1 := rfl
  have hvotes : gl.getNumberOfVotes.toNat = Table.size gl.votes := by
    rw [getNumberOfVotes, UInt32.toNat_ofNat']
    exact Nat.mod_eq_of_lt hlt
  have hle : gl.numberOfNodesInVote / 2 + 1 ≤ gl.getNumberOfVotes := by
    rw [UInt32.le_iff_toNat_le, UInt32.toNat_add, UInt32.toNat_div, htwo, hone, hvotes]
    exact (Nat.mod_le _ _).trans hsize
  have hmod : gl.numberOfNodesInVote % 2 = 0 ∨ gl.numberOfNodesInVote % 2 = 1 := by
    rw [← UInt32.toNat_inj, ← UInt32.toNat_inj, UInt32.toNat_mod, htwo, hone]
    exact Nat.mod_two_eq_zero_or_one _
  rw [hasMajority]
  rcases hmod with heven | hodd
  · simp only [heven, if_true]
    exact decide_eq_true hle
  · simp only [hodd]
    exact decide_eq_true hle

end GroupLead

namespace GroupNet

open GroupLead (SameElection voteRequest leaderEntry voteFor maxTerm compA compB)

variable {members : Finset ComponentUuid} {s s' s₀ : GroupNet} {l : Label} {c u : ComponentUuid}
  {tr : List (Transition GroupNet Label)} {T : UInt32}

/-! ### What a step does to the election -/

/-- The election messages in flight from `a` to `b`, oldest first. -/
def elections (s : GroupNet) (a b : ComponentUuid) : List LeaderElection :=
  (s.chan a b).filterMap GroupMsg.election

/-- A step that loses nothing and in which no election timeout passes. -/
def Undisturbed (s : GroupNet) : Label → Prop
  | .lose _ _ _ => False
  | .act u (.poll now) =>
    (lead u s).currentState ≠ .leader → ¬ (lead u s).electionTimeout.isTimeout now
  | _ => True

/-- The roles and the election messages before and after an undisturbed step. -/
inductive ElectionEvent (members : Finset ComponentUuid) (s s' : GroupNet) : Prop
  | quiet :
      (∀ x, SameElection (lead x s) (lead x s')) →
      (∀ a b, elections s' a b = elections s a b) → ElectionEvent members s s'
  /-- A leader sends its heartbeat. -/
  | heartBeat {x : ComponentUuid} :
      x ∈ members → (lead x s).currentState = .leader →
      SameElection { lead x s with leaderId := (lead x s).componentId } (lead x s') →
      (∀ y, y ≠ x → lead y s' = lead y s) →
      (∀ a b, elections s' a b = elections s a b ++
        if a = x then [leaderEntry (lead x s).componentId (lead x s).electionTerm] else []) →
      ElectionEvent members s s'
  /-- An election message arrives. -/
  | delivered {src dst : ComponentUuid} {now : ℤ} {timeo : ElectionTimeo} {le : LeaderElection}
      {rest : List LeaderElection} :
      src ∈ members → dst ∈ members → elections s src dst = le :: rest →
      lead dst s' = ((lead dst s).updateMessage now timeo le).1 →
      (∀ y, y ≠ dst → lead y s' = lead y s) →
      (∀ a b, elections s' a b = (if a = src ∧ b = dst then rest else elections s a b) ++
        if a = dst then
          ((lead dst s).updateMessage now timeo le).2.filterMap GroupMsg.election else []) →
      ElectionEvent members s s'

theorem Undisturbed.noLoss (h : Undisturbed s l) {a b : ComponentUuid} (k : ℕ) :
    l ≠ .lose a b k := by
  rintro rfl
  exact h

theorem elections_step (h : step members s l = some s') {a b : ComponentUuid}
    (hno : ∀ k, l ≠ .lose a b k) :
    (receivedNow a b s l).filterMap GroupMsg.election ++ elections s' a b
      = elections s a b ++ (sentNow a s l).filterMap GroupMsg.election := by
  rw [elections, elections, ← List.filterMap_append, (step_received h a b).2 hno,
    List.filterMap_append]

/-- What a step brings is what its event receives. -/
theorem receive_of_mem_receivedNow {e : Group.Event} {m : GroupMsg} {a b : ComponentUuid}
    (he : eventOf s l = some (u, e)) (hm : m ∈ receivedNow a b s l) :
    ∃ now draws, e = .receive now draws m := by
  cases l with
  | act x call => simp [receivedNow] at hm
  | deliver src dst now draws =>
    rw [receivedNow] at hm
    split at hm
    · rename_i hab
      obtain ⟨rfl, rfl⟩ := hab
      obtain ⟨m', hm', heq⟩ := Option.map_eq_some_iff.mp he
      obtain ⟨-, rfl⟩ := Prod.mk.inj heq
      rw [List.take_one, hm'] at hm
      rw [List.mem_singleton.mp hm]
      exact ⟨now, draws, rfl⟩
    · simp at hm
  | lose src dst k => simp [receivedNow] at hm

/-- A step that changes no role where it is handled, and neither sends nor brings
an election message. -/
theorem quiet_of_step {e : Group.Event} (h : step members s l = some s') (hl : Undisturbed s l)
    (he : eventOf s l = some (u, e)) (hsame : SameElection (lead u s) (lead u s'))
    (hout : ∀ m ∈ outputs s l, m.election = none)
    (hrec : ∀ now draws m, e = .receive now draws m → m.election = none) :
    ElectionEvent members s s' := by
  obtain ⟨-, eff, hg, -, hother⟩ := step_of_eventOf h he
  refine .quiet (fun x => ?_) fun a b => ?_
  · by_cases hx : x = u
    · rw [hx]
      exact hsame
    · rw [lead, lead, hother x hx]
      exact .refl _
  · have hstep := elections_step h (hl.noLoss (a := a) (b := b))
    have hin : (receivedNow a b s l).filterMap GroupMsg.election = [] := by
      refine List.filterMap_eq_nil_iff.mpr fun m hm => ?_
      obtain ⟨now, draws, heq⟩ := receive_of_mem_receivedNow he hm
      exact hrec now draws m heq
    have hnone : (sentNow a s l).filterMap GroupMsg.election = [] := by
      refine List.filterMap_eq_nil_iff.mpr fun m hm => ?_
      rw [sentNow] at hm
      split at hm
      · exact hout m hm
      · simp at hm
    rwa [hin, hnone, List.nil_append, List.append_nil] at hstep

/-- A call of the `GroupLead` that is neither `Update()` nor brings an election
message leaves the election alone. -/
theorem sameElection_of_consensus (gl : GroupLead) {i : GroupLead.Input}
    (hupdate : ∀ now known, i ≠ .update now known)
    (hmessage : ∀ now timeo le, i ≠ .message now timeo le) :
    SameElection gl (gl.step i).1 ∧ ∀ m ∈ (gl.step i).2, m.election = none := by
  have hstep := GroupLead.step_election gl i
  generalize (gl.step i).1 = gl', (gl.step i).2 = out at hstep
  cases hstep with
  | same hsame hout => exact ⟨hsame, fun m hm => (hout m hm).1⟩
  | candidacy _ _ | voteTimeout _ _ | heartBeat _ _ => exact absurd rfl (hupdate _ _)
  | grant _ | counted _ _ _ | elected _ _ _ _ | followed _ => exact absurd rfl (hmessage _ _ _)

/-- An undisturbed `Update()` does nothing, or is the heartbeat of a leader. -/
theorem electionEvent_update {x : ComponentUuid} {now : ℤ} {known : KnownNodes}
    (h : step members s (.act x (.poll now)) = some s')
    (hl : Undisturbed s (.act x (.poll now)))
    (hi : leadView x s (.act x (.poll now)) = some (.update now known)) :
    ElectionEvent members s s' := by
  have he : eventOf s (.act x (.poll now)) = some (x, .call (.poll now)) := rfl
  obtain ⟨hpost, hout⟩ := lead_of_leadView h hi
  obtain ⟨hx, eff, -, -, hother⟩ := step_of_eventOf h he
  have hstep := GroupLead.step_election (lead x s) (.update now known)
  rw [← hpost, ← hout] at hstep
  generalize hlead : lead x s' = gl', hmsgs : outputs s (.act x (.poll now)) = out at hstep
  cases hstep with
  | same hsame hno =>
    refine quiet_of_step h hl he (by rw [hlead]; exact hsame) ?_ (by simp)
    rw [hmsgs]
    exact fun m hm => (hno m hm).1
  | candidacy hs ht => exact absurd ht (hl (by simp [hs]))
  | voteTimeout hs ht => exact absurd ht (hl (by simp [hs]))
  | heartBeat hs ht =>
    refine .heartBeat hx hs ?_ (fun y hy => by rw [lead, lead, hother y hy]) fun a b => ?_
    · rw [hlead]
      exact ⟨rfl, rfl, rfl, rfl, rfl, rfl, rfl⟩
    · have hel := elections_step h (hl.noLoss (a := a) (b := b))
      have hsent : (sentNow a s (.act x (.poll now))).filterMap GroupMsg.election
          = if a = x then [leaderEntry (lead x s).componentId (lead x s).electionTerm] else [] := by
        rw [sentNow]
        by_cases ha : a = x
        · rw [ha, view_eq_some.mpr he, hmsgs]
          simp [GroupLead.sendAppendEntry, GroupMsg.election, leaderEntry]
        · rw [view, he]
          simp [Ne.symm ha, ha]
      rw [hsent] at hel
      exact hel

/-- An election message is passed to the `GroupLead`. -/
theorem leadInput_of_election {g : Group} {now : ℤ} {draws : Draws} {m : GroupMsg}
    {le : LeaderElection} (h : m.election = some le) :
    g.leadInput (.receive now draws m) = some (.message now draws.electionTimeo le) := by
  obtain ⟨header, frame⟩ := m
  cases header with
  | leaderElection le' =>
    obtain rfl : le' = le := Option.some.inj h
    rfl
  | groupHeartBeat _ | messageToLeader _ | consensus _ | groupMessage _ | leaderMessage _ =>
    simp [GroupMsg.election] at h

/-- The arrival of an election message. -/
theorem electionEvent_message {src dst : ComponentUuid} {now : ℤ} {draws : Draws} {m : GroupMsg}
    {rest : List GroupMsg} {le : LeaderElection}
    (h : step members s (.deliver src dst now draws) = some s') (hsrc : src ∈ members)
    (hch : s.chan src dst = m :: rest) (hm : m.election = some le) :
    ElectionEvent members s s' := by
  have he : eventOf s (.deliver src dst now draws) = some (dst, .receive now draws m) := by
    simp [eventOf, hch]
  have hi : leadView dst s (.deliver src dst now draws)
      = some (.message now draws.electionTimeo le) := by
    rw [leadView, view_eq_some.mpr he, Option.bind_some, leadInput_of_election hm]
  obtain ⟨hpost, hout⟩ := lead_of_leadView h hi
  obtain ⟨hdst, eff, hg, hsent, hother⟩ := step_of_eventOf h he
  have hhead : elections s src dst = le :: rest.filterMap GroupMsg.election := by
    rw [elections, hch, List.filterMap_cons, hm]
  refine .delivered hsrc hdst hhead hpost (fun y hy => by rw [lead, lead, hother y hy])
    fun a b => ?_
  have hel := elections_step h (a := a) (b := b) (by simp)
  have hnew : (sentNow a s (.deliver src dst now draws)).filterMap GroupMsg.election
      = if a = dst then ((lead dst s).updateMessage now draws.electionTimeo le).2.filterMap
          GroupMsg.election else [] := by
    rw [sentNow_of_eventOf he hg, ← hsent, hout]
    split <;> rfl
  rw [hnew] at hel
  by_cases hab : a = src ∧ b = dst
  · obtain ⟨rfl, rfl⟩ := hab
    rw [if_pos ⟨rfl, rfl⟩]
    simpa [receivedNow, hch, hm, elections] using hel
  · rw [if_neg hab]
    simpa [receivedNow, hab] using hel

/-- **Every undisturbed step is one of the listed.** -/
theorem electionEvent_of_step (h : step members s l = some s') (hl : Undisturbed s l) :
    ElectionEvent members s s' := by
  rcases he : eventOf s l with _ | ⟨x, e⟩
  · cases step_cases h with
    | acted => simp [eventOf] at he
    | delivered _ _ hch => simp [eventOf, hch] at he
    | lost => exact absurd hl not_false
  obtain ⟨-, eff, hg, hout, -⟩ := step_of_eventOf h he
  have hv := view_eq_some.mpr he
  by_cases hmsg : ∃ now draws m le, e = .receive now draws m ∧ m.election = some le
  · obtain ⟨now, draws, m, le, rfl, hm⟩ := hmsg
    cases step_cases h with
    | acted => simp [eventOf] at he
    | delivered hsrc _ hch _ =>
      rw [eventOf, hch] at he
      obtain ⟨-, heq⟩ := Prod.mk.inj (Option.some.inj he)
      obtain ⟨-, -, rfl⟩ := Group.Event.receive.inj heq
      exact electionEvent_message h hsrc hch hm
    | lost => simp [eventOf] at he
  · have hrec : ∀ now draws m, e = .receive now draws m → m.election = none := by
      intro now draws m heq
      rcases hm : m.election with _ | le
      · rfl
      · exact absurd ⟨now, draws, m, le, heq, hm⟩ hmsg
    rcases hi : (s.node x).leadInput e with _ | i
    · rcases Group.step_lead hg with ⟨i, hi', -, -⟩ | ⟨-, haside⟩
      · simp [hi] at hi'
      · refine quiet_of_step h hl he ?_ (fun m hm => ?_) hrec
        · rw [lead, lead, haside.groupLeader]
          exact .refl _
        · rw [hout] at hm
          rcases hel : m.election with _ | le
          · rfl
          · exact absurd (Group.leadMessage_of_election hel) (haside.sent m hm).not_leadMessage
    · have hview : leadView x s l = some i := by
        rw [leadView, hv, Option.bind_some, hi]
      by_cases hupdate : ∃ now known, i = .update now known
      · obtain ⟨now, known, rfl⟩ := hupdate
        obtain ⟨rfl, -, -⟩ := Group.leadInput_update hi
        obtain rfl := eventOf_eq_call he
        exact electionEvent_update h hl hview
      · have hmessage : ∀ now timeo le, i ≠ .message now timeo le := by
          rintro now timeo le rfl
          obtain ⟨draws, m, rfl, hm⟩ := Group.leadInput_message hi
          simp [hrec _ _ _ rfl] at hm
        obtain ⟨hsame, hno⟩ := sameElection_of_consensus (lead x s)
          (fun now known heq => hupdate ⟨now, known, heq⟩) hmessage
        obtain ⟨hpost, hmsgs⟩ := lead_of_leadView h hview
        refine quiet_of_step h hl he (by rw [hpost]; exact hsame) ?_ hrec
        rw [hmsgs]
        exact hno

/-! ### Where a candidacy stands -/

/-- The request of `c` is on its way to `u`, and behind it are the heartbeats of
`c` if it has won by then. -/
structure Asked (members : Finset ComponentUuid) (c : ComponentUuid) (T : UInt32) (s : GroupNet)
    (u : ComponentUuid) : Prop where
  role : (lead u s).currentState = .follower
  term : (lead u s).electionTerm < T
  silent : ∀ b ∈ members, elections s u b = []
  request : ∃ entries, elections s c u = voteRequest c T :: entries ∧
    (∀ le ∈ entries, le = leaderEntry c T) ∧
    ((lead c s).currentState = .candidate → entries = []) ∧
    ((lead c s).currentState = .leader → entries ≠ [])

/-- `u` has voted for `c`: its vote is on its way or counted, or `c` has won and
`u` follows it or is about to. -/
structure Voted (members : Finset ComponentUuid) (c : ComponentUuid) (T : UInt32) (s : GroupNet)
    (u : ComponentUuid) : Prop where
  role : (lead u s).currentState = .follower
  term : (lead u s).electionTerm = T
  vote : ∀ b ∈ members, ∀ le ∈ elections s u b, le = voteFor c u T
  entries : ∀ le ∈ elections s c u, le = leaderEntry c T
  counted : (lead c s).currentState = .candidate →
    elections s c u = [] ∧ (voteFor c u T ∈ elections s u c ∨ (u : String) ∈ (lead c s).votes)
  follows : (lead c s).currentState = .leader → elections s c u ≠ [] ∨ (lead u s).leaderId = c

/-- What the candidate has recorded: votes of members, its own among them, and no
majority yet. -/
structure Tally (members : Finset ComponentUuid) (c : ComponentUuid) (gl : GroupLead) : Prop where
  own : (c : String) ∈ gl.votes
  members : ∀ v ∈ gl.votes, ∃ u ∈ members, (u : String) = v
  pending : (∃ v ∈ gl.votes, v ≠ c) → gl.hasMajority = false

/-- **Where a candidacy stands.** -/
structure Running (members : Finset ComponentUuid) (c : ComponentUuid) (T : UInt32) (N : UInt32)
    (s : GroupNet) : Prop where
  ids : ∀ u, (lead u s).componentId = u
  term : (lead c s).electionTerm = T
  number : (lead c s).numberOfNodesInVote = N
  role : (lead c s).currentState = .candidate ∧ Tally members c (lead c s) ∨
    (lead c s).currentState = .leader ∧ (lead c s).leaderId = c
  own : ∀ le ∈ elections s c c, le = voteRequest c T ∨ le = leaderEntry c T
  others : ∀ u ∈ members, u ≠ c → Asked members c T s u ∨ Voted members c T s u

/-- What keeps a member asked. -/
theorem Asked.congr (h : Asked members c T s u)
    (hrole : (lead u s').currentState = (lead u s).currentState)
    (hterm : (lead u s').electionTerm = (lead u s).electionTerm)
    (hc : (lead c s').currentState = (lead c s).currentState)
    (hsilent : ∀ b ∈ members, elections s' u b = elections s u b)
    (hreq : elections s' c u = elections s c u) : Asked members c T s' u := by
  refine ⟨hrole.trans h.role, hterm ▸ h.term, fun b hb => ?_, ?_⟩
  · rw [hsilent b hb, h.silent b hb]
  · rw [hreq, hc]
    exact h.request

/-- What keeps a vote. -/
theorem Voted.congr (h : Voted members c T s u)
    (hrole : (lead u s').currentState = (lead u s).currentState)
    (hterm : (lead u s').electionTerm = (lead u s).electionTerm)
    (hid : (lead u s').leaderId = (lead u s).leaderId)
    (hc : (lead c s').currentState = (lead c s).currentState)
    (hvotes : ∀ v ∈ (lead c s).votes, v ∈ (lead c s').votes)
    (hvote : ∀ b ∈ members, elections s' u b ⊆ elections s u b)
    (hkept : (lead c s).currentState = .candidate → voteFor c u T ∈ elections s u c →
      voteFor c u T ∈ elections s' u c ∨ (u : String) ∈ (lead c s').votes)
    (hentries : elections s' c u = elections s c u) : Voted members c T s' u := by
  refine ⟨hrole.trans h.role, hterm.trans h.term, fun b hb le hle => ?_, ?_, fun hcand => ?_,
    fun hlead => ?_⟩
  · exact h.vote b hb le (hvote b hb hle)
  · rw [hentries]
    exact h.entries
  · rw [hc] at hcand
    rw [hentries]
    refine ⟨(h.counted hcand).1, ?_⟩
    rcases (h.counted hcand).2 with hon | hin
    · exact hkept hcand hon
    · exact .inr (hvotes _ hin)
  · rw [hentries, hid]
    exact h.follows (hc ▸ hlead)

/-- A member that a step does not concern stands where it stood. -/
theorem standing_congr (h : Asked members c T s u ∨ Voted members c T s u)
    (hu : lead u s' = lead u s) (hc : lead c s' = lead c s)
    (hfrom : ∀ b, elections s' u b = elections s u b)
    (hreq : elections s' c u = elections s c u) :
    Asked members c T s' u ∨ Voted members c T s' u := by
  refine h.imp (fun hasked => ?_) fun hvoted => ?_
  · exact hasked.congr (by rw [hu]) (by rw [hu]) (by rw [hc]) (fun b _ => hfrom b) hreq
  · refine hvoted.congr (by rw [hu]) (by rw [hu]) (by rw [hu]) (by rw [hc])
      (by rw [hc]; exact fun _ hv => hv) (fun b _ => ?_) (fun _ hon => ?_) hreq
    · rw [hfrom]
      exact fun _ hx => hx
    · rw [hfrom]
      exact .inl hon

theorem Tally.congr {gl gl' : GroupLead} (h : Tally members c gl) (hsame : SameElection gl gl') :
    Tally members c gl' := by
  have hmaj : gl'.hasMajority = gl.hasMajority := by
    rw [GroupLead.hasMajority, GroupLead.hasMajority, GroupLead.getNumberOfVotes,
      GroupLead.getNumberOfVotes, hsame.numberOfNodesInVote, hsame.votes]
  refine ⟨?_, ?_, ?_⟩
  · rw [hsame.votes]
    exact h.own
  · rw [hsame.votes]
    exact h.members
  · rw [hsame.votes, hmaj]
    exact h.pending

variable {N : UInt32}

theorem Running.quiet (h : Running members c T N s)
    (hsame : ∀ x, SameElection (lead x s) (lead x s'))
    (hel : ∀ a b, elections s' a b = elections s a b) : Running members c T N s' := by
  refine ⟨fun u => (hsame u).componentId.trans (h.ids u), (hsame c).electionTerm.trans h.term,
    (hsame c).numberOfNodesInVote.trans h.number, ?_, ?_, fun u hu huc => ?_⟩
  · refine h.role.imp (fun hcand => ⟨?_, hcand.2.congr (hsame c)⟩) fun hlead => ⟨?_, ?_⟩
    · exact (hsame c).currentState.trans hcand.1
    · exact (hsame c).currentState.trans hlead.1
    · exact (hsame c).leaderId.trans hlead.2
  · rw [hel]
    exact h.own
  · refine (h.others u hu huc).imp (fun hasked => ?_) fun hvoted => ?_
    · exact hasked.congr (hsame u).currentState (hsame u).electionTerm (hsame c).currentState
        (fun b _ => hel u b) (hel c u)
    · refine hvoted.congr (hsame u).currentState (hsame u).electionTerm (hsame u).leaderId
        (hsame c).currentState ?_ (fun b _ => by rw [hel]; exact fun _ h => h) ?_ (hel c u)
      · rw [(hsame c).votes]
        exact fun _ h => h
      · rw [hel]
        exact fun _ h => .inl h

/-- Who is not the candidate is a FOLLOWER. -/
theorem Running.follower (h : Running members c T N s) (hu : u ∈ members) (huc : u ≠ c) :
    (lead u s).currentState = .follower := by
  rcases h.others u hu huc with hasked | hvoted
  · exact hasked.role
  · exact hvoted.role

theorem Running.heartBeat (h : Running members c T N s)
    (hs : (lead c s).currentState = .leader)
    (hsame : SameElection { lead c s with leaderId := (lead c s).componentId } (lead c s'))
    (hother : ∀ y, y ≠ c → lead y s' = lead y s)
    (hel : ∀ a b, elections s' a b = elections s a b ++
      if a = c then [leaderEntry (lead c s).componentId (lead c s).electionTerm] else []) :
    Running members c T N s' := by
  have hentry : leaderEntry (lead c s).componentId (lead c s).electionTerm = leaderEntry c T := by
    rw [h.ids, h.term]
  have hstate : (lead c s').currentState = .leader := hsame.currentState.trans hs
  have hown : ∀ b, elections s' c b = elections s c b ++ [leaderEntry c T] := by
    intro b
    rw [hel, if_pos rfl, hentry]
  have hkeep : ∀ a b, a ≠ c → elections s' a b = elections s a b := by
    intro a b ha
    rw [hel, if_neg ha, List.append_nil]
  refine ⟨fun u => ?_, hsame.electionTerm.trans h.term, hsame.numberOfNodesInVote.trans h.number,
    .inr ⟨hstate, ?_⟩, ?_, fun u hu huc => ?_⟩
  · by_cases huc : u = c
    · rw [huc]
      exact hsame.componentId.trans (h.ids c)
    · rw [hother u huc, h.ids u]
  · rw [hsame.leaderId]
    exact congrArg Subtype.val (h.ids c)
  · intro le hle
    rw [hown] at hle
    rcases List.mem_append.mp hle with hold | hnew
    · exact h.own le hold
    · exact .inr (List.mem_singleton.mp hnew)
  · have hnocand : (lead c s').currentState ≠ .candidate := by simp [hstate]
    refine (h.others u hu huc).imp (fun hasked => ?_) fun hvoted => ?_
    · obtain ⟨entries, hreq, hall, -, -⟩ := hasked.request
      refine ⟨?_, ?_, fun b hb => ?_, entries ++ [leaderEntry c T], ?_, ?_, ?_, by simp⟩
      · rw [hother u huc]
        exact hasked.role
      · rw [hother u huc]
        exact hasked.term
      · rw [hkeep u b huc, hasked.silent b hb]
      · rw [hown, hreq]
        rfl
      · intro le hle
        rcases List.mem_append.mp hle with hold | hnew
        · exact hall le hold
        · exact List.mem_singleton.mp hnew
      · exact fun hcand => absurd hcand hnocand
    · refine ⟨?_, ?_, fun b hb => ?_, fun le hle => ?_, fun hcand => absurd hcand hnocand,
        fun _ => .inl (by simp [hown])⟩
      · rw [hother u huc]
        exact hvoted.role
      · rw [hother u huc]
        exact hvoted.term
      · rw [hkeep u b huc]
        exact hvoted.vote b hb
      · rw [hown] at hle
        rcases List.mem_append.mp hle with hold | hnew
        · exact hvoted.entries le hold
        · exact List.mem_singleton.mp hnew

/-! ### The arrival of an election message -/

section

variable {src dst : ComponentUuid} {le : LeaderElection} {rest : List LeaderElection}

/-- A message that its receiver ignores: one of the candidate to itself, or a
vote that does not reach the candidate any more. -/
theorem Running.ignored (h : Running members c T N s) (hdst : dst ∈ members)
    (hhead : elections s src dst = le :: rest) (hlead : ∀ x, lead x s' = lead x s)
    (hel : ∀ a b, elections s' a b = if a = src ∧ b = dst then rest else elections s a b)
    (hcase : src = c ∧ dst = c ∨
      src ≠ c ∧ (dst = c → (lead c s).currentState = .leader)) : Running members c T N s' := by
  have hsub : ∀ a b, elections s' a b ⊆ elections s a b := by
    intro a b
    rw [hel]
    split
    · rename_i hab
      rw [hab.1, hab.2, hhead]
      exact fun _ hx => List.mem_cons_of_mem _ hx
    · exact fun _ hx => hx
  -- the channel from the candidate to another member is not the one that changes
  have hreq : ∀ u, u ≠ c → elections s' c u = elections s c u := by
    intro u huc
    rw [hel, if_neg]
    rintro ⟨rfl, rfl⟩
    rcases hcase with ⟨-, rfl⟩ | ⟨hne, -⟩
    · exact huc rfl
    · exact hne rfl
  refine ⟨fun u => ?_, ?_, ?_, ?_, fun le hle => h.own le (hsub c c hle), fun u hu huc => ?_⟩
  · rw [hlead, h.ids]
  · rw [hlead, h.term]
  · rw [hlead, h.number]
  · rw [hlead]
    exact h.role
  · refine (h.others u hu huc).imp (fun hasked => ?_) fun hvoted => ?_
    · refine hasked.congr (by rw [hlead]) (by rw [hlead]) (by rw [hlead]) (fun b hb => ?_)
        (hreq u huc)
      rw [hel, if_neg]
      rintro ⟨rfl, rfl⟩
      simp [hasked.silent _ hdst] at hhead
    · refine hvoted.congr (by rw [hlead]) (by rw [hlead]) (by rw [hlead]) (by rw [hlead])
        (by rw [hlead]; exact fun _ hv => hv) (fun b _ => hsub u b) (fun hcand hon => ?_)
        (hreq u huc)
      left
      rw [hel, if_neg]
      · exact hon
      · rintro ⟨rfl, rfl⟩
        rcases hcase with ⟨rfl, -⟩ | ⟨-, hleader⟩
        · exact huc rfl
        · simp [hleader rfl] at hcand

/-- A member is asked and votes. -/
theorem Running.granted (h : Running members c T N s) {timeo : ElectionTimeo} (hu : u ∈ members)
    (huc : u ≠ c) (hasked : Asked members c T s u)
    (hhead : elections s c u = voteRequest c T :: rest)
    (hlead : lead u s' = (lead u s).grantVote timeo ⟨c, T⟩)
    (hother : ∀ y, y ≠ u → lead y s' = lead y s)
    (hel : ∀ a b, elections s' a b = (if a = c ∧ b = u then rest else elections s a b) ++
      if a = u then [voteFor c u T] else []) : Running members c T N s' := by
  have hc := hother c (Ne.symm huc)
  have hkeep : ∀ a b, a ≠ u → ¬ (a = c ∧ b = u) → elections s' a b = elections s a b := by
    intro a b ha hab
    rw [hel, if_neg hab, if_neg ha, List.append_nil]
  refine ⟨fun w => ?_, ?_, ?_, ?_, ?_, fun w hw hwc => ?_⟩
  · by_cases hwu : w = u
    · rw [hwu, hlead]
      exact h.ids u
    · rw [hother w hwu, h.ids]
  · rw [hc, h.term]
  · rw [hc, h.number]
  · rw [hc]
    exact h.role
  · rw [hkeep c c (Ne.symm huc) (fun hab => huc hab.2.symm)]
    exact h.own
  · by_cases hwu : w = u
    · subst hwu
      right
      obtain ⟨entries, hreq, hall, hcand, hleads⟩ := hasked.request
      obtain rfl : rest = entries := by
        rw [hhead] at hreq
        exact (List.cons.inj hreq).2
      have hfrom : ∀ b ∈ members, elections s' w b = [voteFor c w T] := by
        intro b hb
        rw [hel, if_neg (fun hab => huc hab.1), if_pos rfl, hasked.silent b hb, List.nil_append]
      have hto : elections s' c w = rest := by
        rw [hel, if_pos ⟨rfl, rfl⟩, if_neg (Ne.symm huc), List.append_nil]
      have hvote : voteFor c w T ∈ elections s' w c := by
        rw [hel, if_pos rfl]
        exact List.mem_append_right _ (List.mem_singleton.mpr rfl)
      refine ⟨by rw [hlead]; rfl, by rw [hlead]; rfl, fun b hb le hle => ?_, ?_, ?_, ?_⟩
      · rw [hfrom b hb] at hle
        exact List.mem_singleton.mp hle
      · rw [hto]
        exact hall
      · rw [hc, hto]
        exact fun hs => ⟨hcand hs, .inl hvote⟩
      · rw [hc, hto]
        exact fun hs => .inl (hleads hs)
    · exact standing_congr (h.others w hw hwc) (hother w hwu) hc
        (fun b => hkeep w b hwu fun hab => hwc hab.1)
        (hkeep c w (Ne.symm huc) fun hab => hwu hab.2)

/-- A member that has voted follows the heartbeat of the winner. -/
theorem Running.followed (h : Running members c T N s) {timeo : ElectionTimeo} (huc : u ≠ c)
    (hvoted : Voted members c T s u) (hhead : elections s c u = leaderEntry c T :: rest)
    (hlead : lead u s' = (lead u s).follow timeo ⟨c, T⟩)
    (hother : ∀ y, y ≠ u → lead y s' = lead y s)
    (hel : ∀ a b, elections s' a b = if a = c ∧ b = u then rest else elections s a b) :
    Running members c T N s' := by
  have hc := hother c (Ne.symm huc)
  have hkeep : ∀ a b, ¬ (a = c ∧ b = u) → elections s' a b = elections s a b := by
    intro a b hab
    rw [hel, if_neg hab]
  refine ⟨fun w => ?_, ?_, ?_, ?_, ?_, fun w hw hwc => ?_⟩
  · by_cases hwu : w = u
    · rw [hwu, hlead]
      exact h.ids u
    · rw [hother w hwu, h.ids]
  · rw [hc, h.term]
  · rw [hc, h.number]
  · rw [hc]
    exact h.role
  · rw [hkeep c c fun hab => huc hab.2.symm]
    exact h.own
  · have hfrom : ∀ b, elections s' w b = elections s w b :=
      fun b => hkeep w b fun hab => hwc hab.1
    by_cases hwu : w = u
    · subst hwu
      right
      have hto : elections s' c w = rest := by rw [hel, if_pos ⟨rfl, rfl⟩]
      refine ⟨by rw [hlead]; rfl, by rw [hlead]; rfl, fun b hb => ?_, ?_, ?_, fun _ => .inr ?_⟩
      · rw [hfrom]
        exact hvoted.vote b hb
      · rw [hto]
        intro le hle
        exact hvoted.entries le (by rw [hhead]; exact List.mem_cons_of_mem _ hle)
      · rw [hc]
        intro hcand
        rw [(hvoted.counted hcand).1] at hhead
        simp at hhead
      · rw [hlead]
        rfl
    · exact standing_congr (h.others w hw hwc) (hother w hwu) hc hfrom
        (hkeep c w fun hab => hwu hab.2)

/-- The candidate counts a vote that does not decide. -/
theorem Running.counted (h : Running members c T N s) {now : ℤ} (hu : u ∈ members) (huc : u ≠ c)
    (hs : (lead c s).currentState = .candidate)
    (hlead : lead c s' = (lead c s).recordVote now ⟨u, c, T⟩)
    (hmaj : ((lead c s).recordVote now ⟨u, c, T⟩).hasMajority = false)
    (hhead : elections s u c = le :: rest) (hother : ∀ y, y ≠ c → lead y s' = lead y s)
    (hel : ∀ a b, elections s' a b = if a = u ∧ b = c then rest else elections s a b) :
    Running members c T N s' := by
  have hstate : (lead c s').currentState = (lead c s).currentState := by
    rw [hlead]
    rfl
  have htally : Tally members c (lead c s) := by
    rcases h.role with ⟨-, htally⟩ | ⟨hleads, -⟩
    · exact htally
    · simp [hs] at hleads
  have hvotes : ∀ v, v ∈ (lead c s').votes ↔ v = u ∨ v ∈ (lead c s).votes := by
    intro v
    rw [hlead]
    exact AList.mem_insert _
  have hreq : ∀ w, elections s' c w = elections s c w := by
    intro w
    rw [hel, if_neg fun hab => huc hab.1.symm]
  refine ⟨fun w => ?_, ?_, ?_, .inl ⟨hstate.trans hs, ?_, ?_, fun _ => ?_⟩, ?_, fun w hw hwc => ?_⟩
  · by_cases hwc : w = c
    · rw [hwc, hlead]
      exact h.ids c
    · rw [hother w hwc, h.ids]
  · rw [hlead]
    exact h.term
  · rw [hlead]
    exact h.number
  · exact (hvotes _).mpr (.inr htally.own)
  · intro v hv
    rcases (hvotes v).mp hv with rfl | hold
    · exact ⟨u, hu, rfl⟩
    · exact htally.members v hold
  · rw [hlead]
    exact hmaj
  · rw [hreq]
    exact h.own
  · have hw' := hother w hwc
    refine (h.others w hw hwc).imp (fun hasked => ?_) fun hvoted => ?_
    · refine hasked.congr (by rw [hw']) (by rw [hw']) hstate (fun b hb => ?_) (hreq w)
      rw [hel, if_neg]
      rintro ⟨rfl, rfl⟩
      simp [hasked.silent _ hb] at hhead
    · refine hvoted.congr (by rw [hw']) (by rw [hw']) (by rw [hw']) hstate
        (fun v hv => (hvotes v).mpr (.inr hv)) (fun b _ => ?_) (fun _ hon => ?_) (hreq w)
      · rw [hel]
        split
        · rename_i hab
          rw [hab.1, hab.2, hhead]
          exact fun _ hx => List.mem_cons_of_mem _ hx
        · exact fun _ hx => hx
      · -- the vote that has arrived is counted, the others are still on their way
        by_cases hwu : w = u
        · exact .inr ((hvotes _).mpr (.inl (by rw [hwu])))
        · left
          rwa [hel, if_neg fun hab => hwu hab.1]

/-- The candidate wins. -/
theorem Running.elected (h : Running members c T N s) {now : ℤ} (huc : u ≠ c)
    (hs : (lead c s).currentState = .candidate)
    (hlead : lead c s' = ((lead c s).recordVote now ⟨u, c, T⟩).becomeLeader)
    (hhead : elections s u c = le :: rest) (hother : ∀ y, y ≠ c → lead y s' = lead y s)
    (hel : ∀ a b, elections s' a b = (if a = u ∧ b = c then rest else elections s a b) ++
      if a = c then [leaderEntry c T] else []) : Running members c T N s' := by
  have hstate : (lead c s').currentState = .leader := by
    rw [hlead]
    rfl
  have hnocand : (lead c s').currentState ≠ .candidate := by simp [hstate]
  have hown : ∀ b, elections s' c b = elections s c b ++ [leaderEntry c T] := by
    intro b
    rw [hel, if_neg (fun hab => huc hab.1.symm), if_pos rfl]
  have hsub : ∀ w b, w ≠ c → elections s' w b ⊆ elections s w b := by
    intro w b hwc
    rw [hel, if_neg hwc, List.append_nil]
    split
    · rename_i hab
      rw [hab.1, hab.2, hhead]
      exact fun _ hx => List.mem_cons_of_mem _ hx
    · exact fun _ hx => hx
  refine ⟨fun w => ?_, ?_, ?_, .inr ⟨hstate, ?_⟩, ?_, fun w hw hwc => ?_⟩
  · by_cases hwc : w = c
    · rw [hwc, hlead]
      exact h.ids c
    · rw [hother w hwc, h.ids]
  · rw [hlead]
    exact h.term
  · rw [hlead]
    exact h.number
  · rw [hlead]
    exact congrArg Subtype.val (h.ids c)
  · intro le' hle
    rw [hown] at hle
    rcases List.mem_append.mp hle with hold | hnew
    · exact h.own le' hold
    · exact .inr (List.mem_singleton.mp hnew)
  · refine (h.others w hw hwc).imp (fun hasked => ?_) fun hvoted => ?_
    · obtain ⟨entries, hreq, -, hcand, -⟩ := hasked.request
      refine ⟨?_, ?_, fun b hb => ?_, [leaderEntry c T], ?_, by simp, ?_, by simp⟩
      · rw [hother w hwc]
        exact hasked.role
      · rw [hother w hwc]
        exact hasked.term
      · have hnil := hsub w b hwc
        rw [hasked.silent b hb] at hnil
        exact List.eq_nil_of_subset_nil hnil
      · rw [hown, hreq, hcand hs]
        rfl
      · exact fun hcand' => absurd hcand' hnocand
    · refine ⟨?_, ?_, fun b hb le' hle => hvoted.vote b hb le' (hsub w b hwc hle),
        fun le' hle => ?_, fun hcand => absurd hcand hnocand, fun _ => .inl (by simp [hown])⟩
      · rw [hother w hwc]
        exact hvoted.role
      · rw [hother w hwc]
        exact hvoted.term
      · rw [hown, (hvoted.counted hs).1, List.nil_append] at hle
        exact List.mem_singleton.mp hle

/-- A message to a member other than the candidate. -/
theorem Running.delivered_member (h : Running members c T N s) {now : ℤ} {timeo : ElectionTimeo}
    (hsrc : src ∈ members) (hdst : dst ∈ members) (hdc : dst ≠ c)
    (hhead : elections s src dst = le :: rest)
    (hlead : lead dst s' = ((lead dst s).updateMessage now timeo le).1)
    (hother : ∀ y, y ≠ dst → lead y s' = lead y s)
    (hel : ∀ a b, elections s' a b = (if a = src ∧ b = dst then rest else elections s a b) ++
      if a = dst then ((lead dst s).updateMessage now timeo le).2.filterMap GroupMsg.election
      else []) : Running members c T N s' := by
  have hfollower := h.follower hdst hdc
  by_cases hsc : src = c
  · subst hsc
    rcases h.others dst hdst hdc with hasked | hvoted
    · obtain ⟨entries, hreq, -, -, -⟩ := hasked.request
      rw [hreq] at hhead
      obtain ⟨rfl, rfl⟩ := List.cons.inj hhead
      have hgrants : GroupLead.GrantsRequest (lead dst s) (voteRequest src T) ⟨src, T⟩ := by
        refine ⟨rfl, hasked.term, fun _ => ?_⟩
        rw [h.ids]
        exact fun heq => hdc (Subtype.ext heq.symm)
      have hstep : (lead dst s).step (.message now timeo (voteRequest src T))
          = ((lead dst s).grantVote timeo ⟨src, T⟩,
            [((lead dst s).grantVote timeo ⟨src, T⟩).sendVote src]) :=
        GroupLead.step_of_grants hgrants
      rw [GroupLead.step] at hstep
      rw [hstep] at hlead hel
      refine h.granted hdst hdc hasked hreq hlead hother fun a b => (hel a b).trans ?_
      simp [GroupLead.sendVote, GroupMsg.election, voteFor, GroupLead.grantVote, h.ids]
    · have hentry : le = leaderEntry src T := hvoted.entries le (by rw [hhead]; simp)
      subst hentry
      have hfollows : GroupLead.FollowsEntry (lead dst s) (leaderEntry src T) ⟨src, T⟩ :=
        ⟨rfl, rfl, .inl hfollower⟩
      have hstep : (lead dst s).step (.message now timeo (leaderEntry src T))
          = ((lead dst s).follow timeo ⟨src, T⟩, []) := GroupLead.step_of_follows hfollows
      rw [GroupLead.step] at hstep
      rw [hstep] at hlead hel
      exact h.followed hdc hvoted hhead hlead hother fun a b => (hel a b).trans (by simp)
  · -- a vote that was meant for the candidate
    have hvote : le = voteFor c src T := by
      rcases h.others src hsrc hsc with hasked | hvoted
      · simp [hasked.silent dst hdst] at hhead
      · exact hvoted.vote dst hdst le (by rw [hhead]; simp)
    rw [hvote, GroupLead.updateMessage_voteFor (by simp [hfollower])] at hlead hel
    refine h.ignored hdst hhead (fun x => ?_) (fun a b => (hel a b).trans (by simp))
      (.inr ⟨hsc, fun hdst' => absurd hdst' hdc⟩)
    by_cases hx : x = dst
    · rw [hx, hlead]
    · exact hother x hx

/-- A message to the candidate. -/
theorem Running.delivered_candidate (h : Running members c T N s) {now : ℤ}
    {timeo : ElectionTimeo} (hsrc : src ∈ members) (hc : c ∈ members)
    (hhead : elections s src c = le :: rest)
    (hlead : lead c s' = ((lead c s).updateMessage now timeo le).1)
    (hother : ∀ y, y ≠ c → lead y s' = lead y s)
    (hel : ∀ a b, elections s' a b = (if a = src ∧ b = c then rest else elections s a b) ++
      if a = c then ((lead c s).updateMessage now timeo le).2.filterMap GroupMsg.election
      else []) : Running members c T N s' := by
  have hnofollower : (lead c s).currentState ≠ .follower := by
    rcases h.role with ⟨hs, -⟩ | ⟨hs, -⟩ <;> simp [hs]
  have hignored : (lead c s).updateMessage now timeo le = (lead c s, []) →
      (src = c ∧ c = c ∨ src ≠ c ∧ (c = c → (lead c s).currentState = .leader)) →
      Running members c T N s' := by
    intro hidle hcase
    rw [hidle] at hlead hel
    refine h.ignored hc hhead (fun x => ?_) (fun a b => (hel a b).trans (by simp)) hcase
    by_cases hx : x = c
    · rw [hx, hlead]
    · exact hother x hx
  by_cases hsc : src = c
  · subst hsc
    refine hignored ?_ (.inl ⟨rfl, rfl⟩)
    rcases h.own le (by rw [hhead]; simp) with rfl | rfl
    · exact GroupLead.updateMessage_voteRequest hnofollower h.term
    · exact GroupLead.updateMessage_leaderEntry hnofollower h.term
  · have hvote : le = voteFor c src T := by
      rcases h.others src hsrc hsc with hasked | hvoted
      · simp [hasked.silent c hc] at hhead
      · exact hvoted.vote c hc le (by rw [hhead]; simp)
    subst hvote
    rcases h.role with ⟨hs, -⟩ | ⟨hs, -⟩
    · rw [GroupLead.updateMessage_counts hs (h.ids c) h.term hsc] at hlead hel
      rcases hmaj : ((lead c s).recordVote now ⟨src, c, T⟩).hasMajority with _ | _
      · rw [hmaj] at hlead hel
        exact h.counted hsrc hsc hs hlead hmaj hhead hother fun a b => (hel a b).trans (by simp)
      · rw [hmaj] at hlead hel
        refine h.elected hsc hs hlead hhead hother fun a b => (hel a b).trans ?_
        simp [GroupLead.sendAppendEntry, GroupMsg.election, leaderEntry, GroupLead.becomeLeader,
          GroupLead.recordVote, h.ids, h.term]
    · refine hignored (GroupLead.updateMessage_voteFor (by simp [hs])) (.inr ⟨hsc, fun _ => hs⟩)

end

/-- **One step.**  An undisturbed step carries the candidacy on. -/
theorem Running.step (h : Running members c T N s) (hc : c ∈ members)
    (hs : GroupNet.step members s l = some s') (hl : Undisturbed s l) :
    Running members c T N s' := by
  cases electionEvent_of_step hs hl with
  | quiet hsame hel => exact h.quiet hsame hel
  | @heartBeat x hx hlead hsame hother hel =>
    by_cases hxc : x = c
    · subst hxc
      exact h.heartBeat hlead hsame hother hel
    · simp [h.follower hx hxc] at hlead
  | @delivered src dst now timeo le rest hsrc hdst hhead hlead hother hel =>
    by_cases hdc : dst = c
    · subst hdc
      exact h.delivered_candidate hsrc hdst hhead hlead hother hel
    · exact h.delivered_member hsrc hdst hdc hhead hlead hother hel

/-- **A whole run.** -/
theorem Running.run (h : Running members c T N s) (hc : c ∈ members)
    (hrun : Run (GroupNet.step members) s tr s') (hund : ∀ t ∈ tr, Undisturbed t.pre t.label) :
    Running members c T N s' :=
  (hrun.invariant (Running members c T N) Undisturbed h
    (fun _ _ _ hl hI hs => hI.step hc hs hl) hund).1

/-- Once no election message is in flight, the candidate has won. -/
theorem Running.settled (h : Running members c T N s) (hc : c ∈ members)
    (hsize : N.toNat / 2 + 1 ≤ members.card) (htwo : 2 ≤ members.card)
    (hlt : members.card < 2 ^ 32)
    (hquiet : ∀ a ∈ members, ∀ b ∈ members, elections s a b = []) :
    (lead c s).currentState = .leader ∧ (lead c s).leaderId = c ∧
      ∀ u ∈ members, u ≠ c → (lead u s).electionTerm = T ∧ (lead u s).leaderId = c := by
  have hvoted : ∀ u ∈ members, u ≠ c → Voted members c T s u := by
    intro u hu huc
    rcases h.others u hu huc with hasked | hvoted
    · obtain ⟨entries, hreq, -⟩ := hasked.request
      simp [hquiet c hc u hu] at hreq
    · exact hvoted
  rcases h.role with ⟨hs, htally⟩ | ⟨hs, hid⟩
  · -- a candidate would have the votes of all members
    exfalso
    have hin : ∀ u ∈ members, (u : String) ∈ (lead c s).votes := by
      intro u hu
      by_cases huc : u = c
      · rw [huc]
        exact htally.own
      · rcases ((hvoted u hu huc).counted hs).2 with hon | hin
        · simp [hquiet u hu c hc] at hon
        · exact hin
    have hkeys : Table.keySet (lead c s).votes = members.image Subtype.val := by
      ext v
      rw [Table.mem_keySet, Finset.mem_image]
      constructor
      · exact fun hv => htally.members v hv
      · rintro ⟨u, hu, rfl⟩
        exact hin u hu
    have hcard : Table.size (lead c s).votes = members.card := by
      rw [← Table.card_keySet, hkeys, Finset.card_image_of_injective _ Subtype.val_injective]
    have hmaj : (lead c s).hasMajority = true :=
      GroupLead.hasMajority_of_size (by rw [h.number, hcard]; exact hsize)
        (by rw [hcard]; exact hlt)
    obtain ⟨u, hu, huc⟩ := Finset.exists_mem_ne (by omega : 1 < members.card) c
    have hpending := htally.pending ⟨u, hin u hu, fun heq => huc (Subtype.ext heq)⟩
    rw [hpending] at hmaj
    simp at hmaj
  · refine ⟨hs, hid, fun u hu huc => ⟨(hvoted u hu huc).term, ?_⟩⟩
    rcases (hvoted u hu huc).follows hs with hon | hfollows
    · exact absurd (hquiet c hc u hu) hon
    · exact hfollows

/-! ### From the timeout to the end -/

/-- Nobody is in an election, and the timeout of `c`, which has the highest term,
has passed. -/
structure Calm (members : Finset ComponentUuid) (c : ComponentUuid) (now : ℤ) (s : GroupNet) :
    Prop where
  follower : ∀ u ∈ members, (lead u s).currentState = .follower
  timeout : (lead c s).electionTimeout.isTimeout now
  term : ∀ u ∈ members, (lead u s).electionTerm ≤ (lead c s).electionTerm
  below : (lead c s).electionTerm < maxTerm
  silent : ∀ a ∈ members, ∀ b ∈ members, elections s a b = []

/-- The components that `c` counts as alive are so few that the members are a
majority of them, and there is someone to vote for `c`. -/
structure Electable (members : Finset ComponentUuid) (c : ComponentUuid) (now : ℤ)
    (s : GroupNet) : Prop where
  counted : ((s.node c).knownNodes.getKnownComponents now).card < 65536
  majority : (((s.node c).knownNodes.getKnownComponents now).card + 1) / 2 + 1 ≤ members.card
  two : 2 ≤ members.card
  lt : members.card < 2 ^ 32

/-- `c` leads in the term `T`, and all other members follow it. -/
structure Won (members : Finset ComponentUuid) (c : ComponentUuid) (T : UInt32) (s : GroupNet) :
    Prop where
  leader : (lead c s).currentState = .leader ∧ (lead c s).electionTerm = T
  own : (lead c s).leaderId = c
  followers : ∀ u ∈ members, u ≠ c → (lead u s).currentState = .follower ∧
    (lead u s).electionTerm = T ∧ (lead u s).leaderId = c

variable {now : ℤ}

/-- What a new candidate has recorded. -/
theorem becomeCandidate_fields (gl : GroupLead) (now : ℤ) (count : UInt16) :
    (gl.becomeCandidate now count).componentId = gl.componentId ∧
      (gl.becomeCandidate now count).currentState = .candidate ∧
      (gl.becomeCandidate now count).electionTerm = gl.electionTerm + 1 ∧
      (gl.becomeCandidate now count).votes
        = (∅ : Table String ℤ).insert (gl.componentId : String) now := by
  rw [GroupLead.becomeCandidate, GroupLead.changeLeader_eq]
  exact ⟨rfl, rfl, rfl, rfl⟩

/-- The first `Update()` after the timeout starts the candidacy. -/
theorem running_start (hids : ∀ u, (lead u s).componentId = u) (hc : c ∈ members)
    (hleads : (s.node c).hasLeader = true) (hcalm : Calm members c now s)
    (hs : step members s (.act c (.poll now)) = some s') :
    Running members c ((lead c s).electionTerm + 1) (lead c s').numberOfNodesInVote s' ∧
      (lead c s').currentState = .candidate := by
  have he : eventOf s (.act c (.poll now)) = some (c, .call (.poll now)) := rfl
  have hi : leadView c s (.act c (.poll now)) = some (.update now (s.node c).knownNodes) := by
    rw [leadView, view_eq_some.mpr he, Option.bind_some, Group.leadInput, if_pos hleads]
  obtain ⟨hpost, hout⟩ := lead_of_leadView hs hi
  obtain ⟨-, -, -, -, hother⟩ := step_of_eventOf hs he
  have hlead' : ∀ u, u ≠ c → lead u s' = lead u s := fun u hu => by rw [lead, lead, hother u hu]
  set count := ((s.node c).knownNodes.getMemberCount now).1
  have hstep : (lead c s).step (.update now (s.node c).knownNodes)
      = ((lead c s).becomeCandidate now count,
        [((lead c s).becomeCandidate now count).sendRequestForVote]) := by
    rw [GroupLead.step, GroupLead.update, hcalm.follower c hc]
    simp only [hcalm.timeout, if_true]
    rfl
  have hpost : lead c s' = (lead c s).becomeCandidate now count := by rw [hpost, hstep]
  have hout : outputs s (.act c (.poll now)) = [(lead c s').sendRequestForVote] := by
    rw [hout, hstep, hpost]
  obtain ⟨hid, hstate, hterm, hvotes⟩ := becomeCandidate_fields (lead c s) now count
  rw [← hpost] at hid hstate hterm hvotes
  have hel : ∀ a b, elections s' a b = elections s a b ++
      if a = c then [voteRequest c ((lead c s).electionTerm + 1)] else [] := by
    intro a b
    have hstep := elections_step hs (a := a) (b := b) (by simp)
    have hsent : (sentNow a s (.act c (.poll now))).filterMap GroupMsg.election
        = if a = c then [voteRequest c ((lead c s).electionTerm + 1)] else [] := by
      rw [sentNow]
      by_cases ha : a = c
      · rw [ha, view_eq_some.mpr he, hout]
        simp [GroupLead.sendRequestForVote, GroupMsg.election, voteRequest, hid, hids, hterm]
      · rw [view, he]
        simp [Ne.symm ha, ha]
    rw [hsent] at hstep
    exact hstep
  refine ⟨⟨fun u => ?_, hterm, rfl, .inl ⟨hstate, ?_, ?_, ?_⟩, ?_, fun u hu huc => .inl ?_⟩, hstate⟩
  · by_cases huc : u = c
    · rw [huc, hid, hids]
    · rw [hlead' u huc, hids]
  · rw [hvotes, hids]
    exact (AList.mem_insert _).mpr (.inl rfl)
  · intro v hv
    rw [hvotes, hids, AList.mem_insert] at hv
    rcases hv with rfl | hv
    · exact ⟨c, hc, rfl⟩
    · simp at hv
  · rintro ⟨v, hv, hne⟩
    rw [hvotes, hids, AList.mem_insert] at hv
    rcases hv with rfl | hv
    · exact absurd rfl hne
    · simp at hv
  · intro le hle
    rw [hel, hcalm.silent c hc c hc, if_pos rfl] at hle
    exact .inl (List.mem_singleton.mp hle)
  · refine ⟨?_, ?_, fun b hb => ?_, [], ?_, by simp, fun _ => rfl, fun hlead => ?_⟩
    · rw [hlead' u huc]
      exact hcalm.follower u hu
    · rw [hlead' u huc]
      exact UInt32.lt_of_le_of_lt (hcalm.term u hu) (GroupLead.lt_succ_term hcalm.below)
    · rw [hel, hcalm.silent u hu b hb, if_neg huc]
      rfl
    · rw [hel, hcalm.silent c hc u hu, if_pos rfl]
      rfl
    · simp [hstate] at hlead

/-- A delivery disturbs nothing. -/
theorem undisturbed_of_isDelivery (h : l.isDelivery) : Undisturbed s l := by
  cases l with
  | act _ _ => simp [Label.isDelivery] at h
  | deliver _ _ _ _ => trivial
  | lose _ _ _ => simp [Label.isDelivery] at h

theorem Running.won (h : Running members c T N s) (hc : c ∈ members)
    (hsize : N.toNat / 2 + 1 ≤ members.card) (htwo : 2 ≤ members.card)
    (hlt : members.card < 2 ^ 32)
    (hquiet : ∀ a ∈ members, ∀ b ∈ members, elections s a b = []) : Won members c T s := by
  obtain ⟨hleader, hid, hothers⟩ := h.settled hc hsize htwo hlt hquiet
  exact ⟨⟨hleader, h.term⟩, hid, fun u hu huc => ⟨h.follower hu huc, hothers u hu huc⟩⟩

/-- **An undisturbed candidacy wins.**  After the timeout of `c` in a group in
which nobody is in an election, in every run that loses no message and in which no
other election timeout passes: nobody but `c` leaves FOLLOWER; when no election
message is in flight any more, `c` leads and all follow it; and delivering what is
in flight leads there. -/
theorem candidacy_wins {s₁ s₂ : GroupNet} {tr' : List (Transition GroupNet Label)}
    (h₀ : Initial s₀) (hleads : ∀ u ∈ members, (s₀.node u).hasLeader = true)
    (h : Run (step members) s₀ tr s) (hc : c ∈ members) (hcalm : Calm members c now s)
    (hreach : Electable members c now s) (hpoll : step members s (.act c (.poll now)) = some s₁)
    (h' : Run (step members) s₁ tr' s₂) (hund : ∀ t ∈ tr', Undisturbed t.pre t.label) :
    (∀ u ∈ members, u ≠ c → (lead u s₂).currentState = .follower) ∧
      ((∀ a ∈ members, ∀ b ∈ members, elections s₂ a b = []) →
        Won members c ((lead c s).electionTerm + 1) s₂) ∧
      ∃ tr'' s₃, Run (step members) s₂ tr'' s₃ ∧ (∀ t ∈ tr'', t.label.isDelivery) ∧
        Won members c ((lead c s).electionTerm + 1) s₃ := by
  have hsafe := (safe_start h₀ hleads).run h
  obtain ⟨hstart, hcand⟩ := running_start (lead_componentId h₀ h) hc (hsafe.hasLeader c hc) hcalm
    hpoll
  -- the majority that the candidate needs
  have hnumber : (lead c s₁).numberOfNodesInVote.toNat / 2 + 1 ≤ members.card := by
    have hpre : (lead c s).currentState ≠ .candidate := by simp [hcalm.follower c hc]
    obtain ⟨now', hlabel, hlive, hcount⟩ := candidacy_counts hpoll hpre hcand
    obtain rfl : now = now' := by simpa using hlabel
    rw [hlive] at hcount
    rw [hcount hreach.counted]
    exact hreach.majority
  have hrunning := hstart.run hc h' hund
  refine ⟨fun u hu huc => hrunning.follower hu huc,
    hrunning.won hc hnumber hreach.two hreach.lt, ?_⟩
  obtain ⟨tr'', s₃, hrun, hall, -, hsettled⟩ := ((hsafe.step hpoll).run h').settle
  refine ⟨tr'', s₃, hrun, hall, ?_⟩
  refine (hrunning.run hc hrun fun t ht => undisturbed_of_isDelivery (hall t ht)).won hc hnumber
    hreach.two hreach.lt fun a ha b hb => ?_
  rw [elections, hsettled a ha b hb]
  rfl

/-- `a` is elected in a group of three that has just started. -/
theorem candidacy_wins_trio :
    ∃ s₁ tr s₂, step trio (startTrio peers) (pollAt compA 160) = some s₁ ∧
      Run (step trio) s₁ tr s₂ ∧ tr ≠ [] ∧
      (∀ u ∈ trio, u ≠ compA → (lead u s₂).currentState = .follower) ∧
      ((∀ a ∈ trio, ∀ b ∈ trio, elections s₂ a b = []) → Won trio compA 1 s₂) ∧
      ∃ tr' s₃, Run (step trio) s₂ tr' s₃ ∧ (∀ t ∈ tr', t.label.isDelivery) ∧
        Won trio compA 1 s₃ := by
  have hcalm : Calm trio compA (160 * milliseconds) (startTrio peers) :=
    ⟨by decide, by decide, by decide, by decide, by decide⟩
  have helect : Electable trio compA (160 * milliseconds) (startTrio peers) :=
    ⟨by decide, by decide, by decide, by decide⟩
  obtain ⟨s₁, hpoll⟩ := Option.isSome_iff_exists.mp
    (by decide : (step trio (startTrio peers) (pollAt compA 160)).isSome)
  obtain ⟨s₂, hdeliver⟩ : ∃ s₂, step trio s₁ (deliverAt compA compB 165) = some s₂ := by
    have hsafe := (safe_start (initial_startTrio peers) fun c _ => rfl :
      Safe trio true (startTrio peers)).step hpoll
    refine hsafe.exists_step ⟨by decide, by decide, ?_⟩
    obtain rfl := Option.some.inj hpoll
    decide
  have hrun : Run (step trio) s₁ [⟨s₁, deliverAt compA compB 165, s₂⟩] s₂ := .snoc .nil hdeliver
  exact ⟨s₁, _, s₂, hpoll, hrun, by simp,
    candidacy_wins (initial_startTrio peers) (fun _ _ => rfl) .nil (by decide) hcalm helect hpoll
      hrun (by simp [deliverAt, Undisturbed])⟩

/-! ### A group of one -/

variable {t : Transition GroupNet Label}

/-- Nobody becomes LEADER without the vote of another member: the majority is
looked for only when a vote arrives. -/
theorem voted_of_enters (h₀ : Initial s₀) (h : Run (step members) s₀ (tr ++ [t]) s)
    (hpre : (lead c t.pre).currentState ≠ .leader)
    (hpost : (lead c t.post).currentState = .leader) :
    c ∈ members ∧ ∃ u ∈ members, u ≠ c ∧ VotedFor tr u c (lead c t.post).electionTerm := by
  obtain ⟨hrun, hstep, -⟩ := h.last
  rcases lead_election hstep c with hsame | ⟨i, hv, hel⟩
  · rw [hsame] at hpost
    exact absurd hpost hpre
  obtain ⟨now, timeo, le, rep, rfl, hrep, -, hcounts, -, hlead⟩ := hel.enters_leader hpre hpost
  obtain ⟨e, he, -⟩ := Option.bind_eq_some_iff.mp hv
  refine ⟨(step_of_eventOf hstep (view_eq_some.mp he)).1, ?_⟩
  obtain ⟨u, m, hsent, hm, hid⟩ := genuine_of_run h₀ hrun _ _ _ _ hv hrep
  have hcid := lead_componentId h₀ hrun c
  refine ⟨u, hsent.mem_members hrun, fun huc => hcounts.other ?_, m, rep, hsent, hm, ?_, ?_⟩
  · rw [hcid, hid, huc]
  · rw [hlead]
    exact hcounts.term
  · rw [hcounts.forSelf, hcid]

theorem not_leader_of_lone (hcard : members.card ≤ 1) (h₀ : Initial s₀)
    (h : Run (step members) s₀ tr s) (c : ComponentUuid) :
    (lead c s).currentState ≠ .leader := by
  intro hs
  have hinit : (lead c s₀).currentState ≠ .leader := by
    obtain ⟨now, timeo, heq⟩ := h₀.lead c
    rw [heq]
    simp [GroupLead.init]
  obtain ⟨tr₁, t, tr₂, rfl, hpre, hpost, -⟩ :=
    h.since (fun s => (lead c s).currentState = .leader) hinit hs
  obtain ⟨h₁, hstep, -⟩ := h.at_split
  obtain ⟨hc, u, hu, huc, -⟩ := voted_of_enters h₀ (h₁.snoc hstep) hpre hpost
  have htwo := Finset.one_lt_card.mpr ⟨u, hu, c, hc, huc⟩
  omega

theorem leaderId_of_lone (hcard : members.card ≤ 1) (h₀ : Initial s₀)
    (h : Run (step members) s₀ tr s) (c : ComponentUuid) : (lead c s).getLeaderId = "" := by
  by_contra hne
  obtain ⟨u, -, T, -, t, ht, hlead, -⟩ := followsElected_run h₀ h c hne
  obtain ⟨tr₁, tr₂, rfl⟩ := List.append_of_mem ht
  obtain ⟨h₁, hstep, -⟩ := h.at_split
  exact not_leader_of_lone hcard h₀ (h₁.snoc hstep) u hlead

/-- **A group of one decides nothing.**  In a group with a single member nobody is
ever LEADER or has a leader id, so that nothing that needs a leader happens: the
only callbacks are those of group messages. -/
theorem lone_member_decides_nothing (hcard : members.card ≤ 1) (h₀ : Initial s₀)
    (h : Run (step members) s₀ tr s) :
    (∀ c, (lead c s).currentState ≠ .leader ∧ (s.node c).leaderId = "") ∧
      ∀ l s', step members s l = some s' → ∀ cb ∈ callbacks s l,
        ∃ f, cb = .onGroupMessage f := by
  have hid : ∀ {tr : List (Transition GroupNet Label)} {s : GroupNet},
      Run (step members) s₀ tr s → ∀ c, (s.node c).leaderId = "" := by
    intro tr s h c
    rw [Group.leaderId]
    split
    · exact leaderId_of_lone hcard h₀ h c
    · rfl
  have hnone : ∀ {call : Group.Call}, ¬ Submitted members tr call := by
    rintro call ⟨u, -, t, ht, -, hne⟩
    obtain ⟨tr₁, tr₂, rfl⟩ := List.append_of_mem ht
    exact hne (hid h.at_split.1 u)
  refine ⟨fun c => ⟨not_leader_of_lone hcard h₀ h c, hid h c⟩, fun l s' hs cb hcb => ?_⟩
  obtain ⟨c, hc, now, draws, m, hv, hmakes⟩ := makes_of_mem_callbacks hs hcb
  have horigin := origin_of_makes h₀ h hv hmakes
  cases hmakes with
  | groupMessage => exact ⟨_, rfl⟩
  | messageToLeader _ => exact absurd horigin.2 hnone
  | value _ =>
    obtain ⟨-, tr₁, t, tr₂, rfl, hsub, -⟩ := horigin
    exact absurd (hsub.mono _) hnone
  | action _ =>
    obtain ⟨-, tr₁, t, tr₂, rfl, absTime, hsub, -⟩ := horigin
    exact absurd (hsub.mono _) hnone
  | announcement _ =>
    obtain ⟨-, w, -, r, -, -, -, -, ⟨f, hsub⟩ | ⟨a, absTime, hsub⟩⟩ := horigin
    · exact absurd hsub hnone
    · exact absurd hsub hnone

/-- `a` alone becomes a candidate and stays one until its vote times out. -/
theorem lone_member_decides_nothing_candidate :
    ∃ tr s, Run (step {compA}) (startTrio peers) tr s ∧
      (lead compA s).currentState = .candidate ∧
      (∀ c, (lead c s).currentState ≠ .leader ∧ (s.node c).leaderId = "") ∧
      ∀ l s', step {compA} s l = some s' → ∀ cb ∈ callbacks s l,
        ∃ f, cb = .onGroupMessage f := by
  obtain ⟨tr, s, hrun, hcand⟩ :=
    exists_run_of_replay (step {compA}) (startTrio peers)
      (fun _ s => (lead compA s).currentState = .candidate) [pollAt compA 160] (by decide)
  exact ⟨tr, s, hrun, hcand,
    lone_member_decides_nothing (by decide) (initial_startTrio peers) hrun⟩

end GroupNet

end Riaps
