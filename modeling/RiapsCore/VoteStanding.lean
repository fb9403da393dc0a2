/-
The course of the vote on one proposal.

A leader that has registered a proposal counts the votes of the components it
knew at that moment.  `VoteQuorum` bounds the counters from above by the voters;
here they are said exactly, so that a majority is known to be noticed:

* `onVote_of_counts` — a counted vote completes a majority, which is announced, or
  leaves the proposal open with the new counts;
* `standing_run` — until its deadline an open proposal has counted exactly the
  votes of its components so far, and it is closed by the first majority;
* `announced_of_majority` — a majority against less than a majority is announced;
* `update_closes` — what is still open after its deadline is closed by an idle
  leader.
-/
import RiapsCore.VoteQuorum

open Runs

namespace Riaps

namespace GroupLead

variable {gl s s₁ : GroupLead} {i : Input} {p : String} {pd : ProposeData} {K : Finset String}
  {deadline now : ℤ} {r r' : VoteResults} {source : String}
  {tr : List (Transition GroupLead Input)} {t : Transition GroupLead Input}

/-- The vote on `p` of a component in `K` that a call hands over. -/
def heardVote (p : String) (K : Finset String) : Input → Option (String × VoteResults)
  | .vote _ p' r source => if p' = p ∧ source ∈ K then some (source, r) else none
  | _ => none

/-- The votes on `p` of the components in `K`, in the order in which they were
handled. -/
def heardVotes (p : String) (K : Finset String) (tr : List (Transition GroupLead Input)) :
    List (String × VoteResults) :=
  tr.filterMap fun t => heardVote p K t.label

/-- How many of them are for `r`. -/
def heardFor (p : String) (K : Finset String) (r : VoteResults)
    (tr : List (Transition GroupLead Input)) : ℕ :=
  (heardVotes p K tr).countP fun v => v.2 = r

theorem heardVote_eq_some {v : String × VoteResults} (h : heardVote p K i = some v) :
    v.1 ∈ K ∧ ∃ now, i = .vote now p v.2 v.1 := by
  cases i with
  | vote now p' r source =>
    rw [heardVote] at h
    split at h
    · rename_i hv
      obtain rfl := Option.some.inj h
      exact ⟨hv.2, now, by rw [hv.1]⟩
    · simp at h
  | update _ _ | message _ _ _ | actionPropose _ _ _ _ | propose _ _ _ _ _ => simp [heardVote] at h

theorem heardFor_snoc (p : String) (K : Finset String) (r : VoteResults)
    (tr : List (Transition GroupLead Input)) (t : Transition GroupLead Input) :
    heardFor p K r (tr ++ [t])
      = heardFor p K r tr + if (heardVote p K t.label).map Prod.snd = some r then 1 else 0 := by
  rw [heardFor, heardVotes, List.filterMap_append, List.countP_append, heardFor, heardVotes]
  congr 1
  rcases hv : heardVote p K t.label with _ | v
  · simp [hv]
  · simp [hv, List.countP_cons]

/-- A counted vote raises the counter of its result by one, below the largest
number that the counter can hold. -/
theorem tally_count (source : String) (h : pd.tally r < 65535) :
    (pd.count source r).tally r' = pd.tally r' + if r = r' then 1 else 0 := by
  have hsucc : ∀ n : UInt16, n.toNat < 65535 → (n + 1).toNat = n.toNat + 1 := by
    intro n hn
    rw [UInt16.toNat_add]
    exact Nat.mod_eq_of_lt (by show n.toNat + 1 < 65536; omega)
  cases r <;> cases r'
  · exact hsucc pd.accepted h
  · rfl
  · rfl
  · exact hsucc pd.rejected h

/-- What `OnVote` does with a vote that it counts: it announces a result that has
reached the majority, or keeps the new counts. -/
theorem onVote_of_counts (h : CountsFor gl now p source pd) (r : VoteResults) :
    (∃ d, (pd.count source r).majority ≤ (pd.count source r).tally d ∧
      (p, d) ∈ announces gl (.vote now p r source)) ∨
    (∀ d, (pd.count source r).tally d < (pd.count source r).majority) ∧
      (gl.step (.vote now p r source)).1.proposeData.lookup p = some (pd.count source r) := by
  have hlate : ¬ pd.proposeDeadline.isTimeout now := not_lt.mpr h.inTime
  have hmem : ¬ source ∉ pd.nodesInVote := not_not.mpr h.member
  have hstep : gl.step (.vote now p r source) = gl.onVote now p r source := rfl
  rw [announces, hstep, onVote, h.lookup]
  simp only [hlate, hmem, if_false]
  by_cases ha : (pd.count source r).majority ≤ (pd.count source r).accepted.toNat
  · left
    refine ⟨.accepted, ha, ?_⟩
    rw [if_pos ha]
    simp [announce, GroupMsg.announced]
  by_cases hr : (pd.count source r).majority ≤ (pd.count source r).rejected.toNat
  · left
    refine ⟨.rejected, hr, ?_⟩
    rw [if_neg ha, if_pos hr]
    simp [announce, GroupMsg.announced]
  · right
    rw [if_neg ha, if_neg hr]
    refine ⟨fun d => ?_, AList.lookup_insert _⟩
    cases d
    · exact not_le.mp ha
    · exact not_le.mp hr

/-- Before its deadline the record of an open proposal changes only when the
proposal is registered again or a vote on it is counted. -/
theorem lookup_of_not_counted (hlook : gl.proposeData.lookup p = some pd)
    (hreg : (registration gl i).map Prod.fst ≠ some p)
    (hnow : i.now ≤ pd.proposeDeadline.endPoint) (hvote : heardVote p pd.nodesInVote i = none) :
    (gl.step i).1.proposeData.lookup p = some pd := by
  have hstep := step_consensus gl i
  generalize (gl.step i).1 = gl', (gl.step i).2 = out at hstep
  -- a vote that is counted or late is one on another proposal
  have hother : ∀ now p' r source, i = .vote now p' r source → ∀ pd',
      gl.proposeData.lookup p' = some pd' → source ∈ pd'.nodesInVote → p ≠ p' := by
    rintro now p' r source rfl pd' hlook' hmem rfl
    rw [hlook, Option.some_inj] at hlook'
    rw [hlook'] at hvote
    simp [heardVote, hmem] at hvote
  cases hstep with
  | same hdata _ _ _ => rw [hdata, hlook]
  | @registered _ _ _ p' nodes pd' hreg' _ hdata _ =>
    have hne : p ≠ p' := by
      rintro rfl
      exact hreg (by rw [hreg']; rfl)
    rw [hdata, AList.lookup_insert_ne hne, hlook]
  | counted hc hdata =>
    rw [hdata, AList.lookup_insert_ne (hother _ _ _ _ rfl _ hc.lookup hc.member), hlook]
  | decided hc _ hdata =>
    rw [hdata, AList.lookup_erase_ne (hother _ _ _ _ rfl _ hc.lookup hc.member), hlook]
  | @late now' p' r' source' gl' pd' hlook' htime hdata =>
    have hne : p ≠ p' := by
      rintro rfl
      rw [hlook, Option.some_inj] at hlook'
      rw [← hlook', Timeout.isTimeout_iff] at htime
      exact absurd hnow (not_le.mpr htime)
    rw [hdata, AList.lookup_erase_ne hne, hlook]
  | @swept now' known =>
    have hkeep : ¬ pd.proposeDeadline.isTimeout now' := not_lt.mpr hnow
    exact Table.lookup_retain.mpr ⟨hlook, decide_eq_true hkeep⟩

/-- A registered proposal is open, and nobody has voted on it. -/
theorem fresh_of_registration (h : registration gl i = some (p, K)) :
    ∃ pd, (gl.step i).1.proposeData.lookup p = some pd ∧ Fresh pd K i.now := by
  have hstep := step_consensus gl i
  generalize (gl.step i).1 = gl', (gl.step i).2 = out at hstep
  cases hstep with
  | same _ hnone _ _ =>
    rw [hnone] at h
    simp at h
  | @registered _ _ _ p' nodes pd hreg hfresh hdata _ =>
    rw [hreg, Option.some_inj] at h
    obtain ⟨rfl, rfl⟩ := Prod.mk.inj h
    exact ⟨pd, by rw [hdata, AList.lookup_insert], hfresh⟩
  | counted _ _ | decided _ _ _ | late _ _ _ | swept => simp [registration] at h

/-- An open proposal that was not registered now was open before, with the same
deadline. -/
theorem deadline_of_step (hreg : (registration gl i).map Prod.fst ≠ some p)
    (hlook : (gl.step i).1.proposeData.lookup p = some pd) :
    ∃ pd₀, gl.proposeData.lookup p = some pd₀ ∧
      pd.proposeDeadline.endPoint = pd₀.proposeDeadline.endPoint := by
  have hstep := step_consensus gl i
  generalize (gl.step i).1 = gl', (gl.step i).2 = out at hstep hlook
  cases hstep with
  | same hdata _ _ _ =>
    rw [hdata] at hlook
    exact ⟨pd, hlook, rfl⟩
  | @registered _ _ _ p' nodes pd' hreg' _ hdata _ =>
    have hne : p ≠ p' := by
      rintro rfl
      exact hreg (by rw [hreg']; rfl)
    rw [hdata, AList.lookup_insert_ne hne] at hlook
    exact ⟨pd, hlook, rfl⟩
  | @counted now' p' r' source' _ pd' hc hdata =>
    by_cases hp : p = p'
    · rw [hdata, hp, AList.lookup_insert, Option.some_inj] at hlook
      rw [hp, ← hlook, count_proposeDeadline]
      exact ⟨pd', hc.lookup, rfl⟩
    · rw [hdata, AList.lookup_insert_ne hp] at hlook
      exact ⟨pd, hlook, rfl⟩
  | decided _ _ hdata | late _ _ hdata =>
    rw [hdata, Table.lookup_erase] at hlook
    exact ⟨pd, hlook.2, rfl⟩
  | swept => exact ⟨pd, (Table.lookup_retain.mp hlook).1, rfl⟩

/-- A proposal that is not registered again keeps its deadline while it is open. -/
theorem deadline_of_run (h : Run next s₁ tr s) (hreg : ∀ t ∈ tr, ¬ Registers p t)
    (h₁ : ∀ pd, s₁.proposeData.lookup p = some pd → pd.proposeDeadline.endPoint = deadline)
    (hlook : s.proposeData.lookup p = some pd) : pd.proposeDeadline.endPoint = deadline := by
  induction h generalizing pd with
  | nil => exact h₁ pd hlook
  | @snoc tr s s' i _ hs ih =>
    rw [next_eq_some.mp hs] at hlook
    obtain ⟨pd₀, hlook₀, heq⟩ := deadline_of_step (hreg ⟨s, i, s'⟩ (by simp)) hlook
    rw [heq]
    exact ih (fun t ht => hreg t (List.mem_append_left _ ht)) hlook₀

/-- An idle leader leaves no proposal open after its deadline. -/
theorem update_closes {known : KnownNodes} (hrole : gl.currentState = .leader)
    (hidle : ¬ gl.appEntryTimeout.isTimeout now)
    (hlate : ∀ pd, gl.proposeData.lookup p = some pd → pd.proposeDeadline.endPoint < now) :
    p ∉ (gl.step (.update now known)).1.proposeData := by
  have hstep : (gl.step (.update now known)).1 = (gl.maintain now).1 := by
    show (gl.update now known).1 = _
    rw [update, hrole]
    simp only [hidle, if_false]
  rw [hstep]
  intro hmem
  obtain ⟨pd, hlook, hkeep⟩ := Table.mem_retain.mp hmem
  rw [decide_eq_true_eq, Timeout.isTimeout_iff] at hkeep
  exact hkeep (hlate pd hlook)

/-- Where the vote of `K` on `p` stands after the transitions `tr`: it is open, and
the counters are the numbers of votes so far, none of them a majority, or some
result has had a majority and was announced. -/
def Standing (p : String) (K : Finset String) (deadline : ℤ)
    (tr : List (Transition GroupLead Input)) (s : GroupLead) : Prop :=
  (∃ pd, s.proposeData.lookup p = some pd ∧ pd.nodesInVote = K ∧
    pd.proposeDeadline.endPoint = deadline ∧
    ∀ r, pd.tally r = heardFor p K r tr ∧ heardFor p K r tr ≤ K.card / 2) ∨
  ∃ r, K.card / 2 + 1 ≤ heardFor p K r tr ∧ ∃ t ∈ tr, (p, r) ∈ announces t.pre t.label

theorem heardFor_le_snoc (p : String) (K : Finset String) (r : VoteResults)
    (tr : List (Transition GroupLead Input)) (t : Transition GroupLead Input) :
    heardFor p K r tr ≤ heardFor p K r (tr ++ [t]) := by
  rw [heardFor_snoc]
  omega

/-- **One call.**  Before the deadline a vote is counted as it comes in, and the
first majority is announced. -/
theorem Standing.step (h : Standing p K deadline tr t.pre) (hpost : t.post = (t.pre.step t.label).1)
    (hreg : ¬ Registers p t) (hnow : t.label.now ≤ deadline) (hsize : K.card / 2 < 65535) :
    Standing p K deadline (tr ++ [t]) t.post := by
  rcases h with ⟨pd, hlook, hK, hend, htally⟩ | ⟨r, hmaj, u, hu, hann⟩
  · rcases hv : heardVote p K t.label with _ | ⟨source, r⟩
    · -- nothing is counted
      left
      have hkeep : ∀ r, heardFor p K r (tr ++ [t]) = heardFor p K r tr := by
        intro r
        rw [heardFor_snoc, hv]
        simp
      refine ⟨pd, ?_, hK, hend, fun r => ?_⟩
      · rw [hpost]
        exact lookup_of_not_counted hlook hreg (by rw [hend]; exact hnow) (by rw [hK]; exact hv)
      · rw [hkeep]
        exact htally r
    · obtain ⟨hmem, now, hl⟩ := heardVote_eq_some hv
      have hcounts : CountsFor t.pre now p source pd := by
        refine ⟨hlook, ?_, by rw [hK]; exact hmem⟩
        rw [hend]
        rw [hl] at hnow
        exact hnow
      have hnew : ∀ d, (pd.count source r).tally d = heardFor p K d (tr ++ [t]) := by
        intro d
        have hlt : pd.tally r < 65535 := by
          have := htally r
          omega
        rw [tally_count source hlt, heardFor_snoc, hv, (htally d).1]
        simp
      have hmajority : (pd.count source r).majority = K.card / 2 + 1 := by
        rw [majority_eq, count_nodesInVote, hK]
      rcases onVote_of_counts hcounts r with ⟨d, hd, hann⟩ | ⟨hfew, hlook'⟩
      · right
        rw [hmajority, hnew] at hd
        exact ⟨d, hd, t, by simp, by rw [hl]; exact hann⟩
      · left
        refine ⟨pd.count source r, ?_, ?_, ?_, fun d => ⟨hnew d, ?_⟩⟩
        · rw [hpost, hl]
          exact hlook'
        · rw [count_nodesInVote, hK]
        · rw [count_proposeDeadline, hend]
        · have hd := hfew d
          rw [hmajority, hnew] at hd
          omega
  · right
    exact ⟨r, hmaj.trans (heardFor_le_snoc p K r tr t), u, List.mem_append_left _ hu, hann⟩

/-- **A whole run.** -/
theorem standing_run (h : Run next s₁ tr s) (hlook : s₁.proposeData.lookup p = some pd)
    (hfresh : Fresh pd K now)
    (htr : ∀ t ∈ tr, ¬ Registers p t ∧ t.label.now ≤ now + 1000 * milliseconds)
    (hsize : K.card / 2 < 65535) : Standing p K (now + 1000 * milliseconds) tr s := by
  induction h with
  | nil =>
    left
    refine ⟨pd, hlook, hfresh.nodesInVote, hfresh.endPoint, fun r => ⟨?_, Nat.zero_le _⟩⟩
    cases r
    · simp [ProposeData.tally, hfresh.accepted, heardFor, heardVotes]
    · simp [ProposeData.tally, hfresh.rejected, heardFor, heardVotes]
  | @snoc tr s s' i _ hs ih =>
    have hlast := htr ⟨s, i, s'⟩ (by simp)
    have hstand := ih fun t ht => htr t (List.mem_append_left _ ht)
    exact Standing.step (t := ⟨s, i, s'⟩) hstand (next_eq_some.mp hs) hlast.1 hlast.2 hsize

/-- A result with a majority, against less than a majority, is announced. -/
theorem announced_of_majority (h : Standing p K deadline tr s)
    (hmaj : K.card / 2 + 1 ≤ heardFor p K r tr)
    (hother : ∀ d, d ≠ r → heardFor p K d tr ≤ K.card / 2) :
    ∃ t ∈ tr, (p, r) ∈ announces t.pre t.label := by
  rcases h with ⟨pd, -, -, -, htally⟩ | ⟨d, hd, hann⟩
  · have := (htally r).2
    omega
  · obtain rfl : d = r := by
      by_contra hne
      have := hother d hne
      omega
    exact hann

end GroupLead

end Riaps
