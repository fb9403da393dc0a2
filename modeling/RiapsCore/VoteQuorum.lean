/-
The quorum behind an announced decision.

`OnVote` keeps two counters and the set of components that voted, and decides
when a counter reaches the majority of `nodesInVote`.  The set is written and
never read: a component that repeats its vote is counted again.  As long as no
one repeats a vote that is counted (`RepeatsVote`), the counters are bounded by
the number of distinct voters:

* `tracked_run` — an open proposal remembers its registration, and each of its
  counters is at most the number of distinct eligible components whose votes
  came in time since then;
* `announce_quorum` — an acceptance, and a rejection sent before the deadline,
  rests on a majority of distinct voters.
-/
import RiapsCore.Runs
import RiapsCore.ConsensusSteps

open Runs

namespace Riaps

namespace GroupLead

variable {gl s : GroupLead} {i : Input} {p : String} {pd : ProposeData}
  {tr : List (Transition GroupLead Input)} {t : Transition GroupLead Input}

/-! ### Reading the past of a proposal off a run -/

/-- The transition registers the proposal `p`. -/
def Registers (p : String) (t : Transition GroupLead Input) : Prop :=
  (registration t.pre t.label).map Prod.fst = some p

instance (p : String) (t : Transition GroupLead Input) : Decidable (Registers p t) :=
  inferInstanceAs (Decidable (_ = _))

/-- Time and eligible components of the last registration of `p`. -/
def lastRegistration (p : String) (tr : List (Transition GroupLead Input)) :
    Option (ℤ × Finset String) :=
  tr.foldl (fun acc t =>
    if Registers p t then (registration t.pre t.label).map fun r => (t.label.now, r.2)
    else acc) none

/-- The vote on `p` with result `r` that a transition handles: when and whose. -/
def voteOf (p : String) (r : VoteResults) (t : Transition GroupLead Input) : Option (ℤ × String) :=
  match t.label with
  | .vote now p' r' source => if p' = p ∧ r' = r then some (now, source) else none
  | _ => none

/-- The votes on `p` with result `r` handled since its last registration. -/
def votesSince (p : String) (r : VoteResults) (tr : List (Transition GroupLead Input)) :
    List (ℤ × String) :=
  tr.foldl (fun acc t => if Registers p t then [] else acc ++ (voteOf p r t).toList) []

/-- The call counts a vote that its sender has already given, with the same
result, since the registration of the proposal. -/
def RepeatsVote (past : List (Transition GroupLead Input)) (gl : GroupLead) : Input → Prop
  | .vote now p r source =>
    (gl.proposeData.lookup p).any (fun pd =>
      decide (now ≤ pd.proposeDeadline.endPoint ∧ source ∈ pd.nodesInVote)) = true ∧
      source ∈ (votesSince p r past).map Prod.snd
  | _ => False

instance (past : List (Transition GroupLead Input)) (gl : GroupLead) :
    ∀ i, Decidable (RepeatsVote past gl i)
  | .vote _ _ _ _ => inferInstanceAs (Decidable (_ ∧ _))
  | .update _ _ => .isFalse id
  | .message _ _ _ => .isFalse id
  | .actionPropose _ _ _ _ => .isFalse id
  | .propose _ _ _ _ _ => .isFalse id

/-- No call of the run repeats a counted vote. -/
def NoRepeatedVote (tr : List (Transition GroupLead Input)) : Prop :=
  Along (fun past t => ¬ RepeatsVote past t.pre t.label) tr

instance (tr : List (Transition GroupLead Input)) : Decidable (NoRepeatedVote tr) :=
  inferInstanceAs (Decidable (Along _ tr))

theorem lastRegistration_snoc (p : String) (tr : List (Transition GroupLead Input))
    (t : Transition GroupLead Input) :
    lastRegistration p (tr ++ [t]) =
      if Registers p t then (registration t.pre t.label).map fun r => (t.label.now, r.2)
      else lastRegistration p tr := by
  rw [lastRegistration, List.foldl_append]
  rfl

theorem votesSince_snoc (p : String) (r : VoteResults) (tr : List (Transition GroupLead Input))
    (t : Transition GroupLead Input) :
    votesSince p r (tr ++ [t]) =
      if Registers p t then [] else votesSince p r tr ++ (voteOf p r t).toList := by
  rw [votesSince, List.foldl_append]
  rfl

theorem registers_iff {nodes : Finset String} {p' : String}
    (h : registration t.pre t.label = some (p', nodes)) : Registers p t ↔ p' = p := by
  rw [Registers, h, Option.map_some, Option.some_inj]

theorem not_registers (h : registration t.pre t.label = none) : ¬ Registers p t := by
  rw [Registers, h]
  simp

/-- A registration is not a vote. -/
theorem voteOf_of_registration {nodes : Finset String} {p' : String} (r : VoteResults)
    (h : registration t.pre t.label = some (p', nodes)) : voteOf p r t = none := by
  rw [voteOf]
  rcases hl : t.label with _ | _ | _ | _ | _
  case vote => simp [hl, registration] at h
  all_goals rfl

/-! ### Counting one vote -/

@[simp] theorem count_nodesInVote (pd : ProposeData) (source : String) (r : VoteResults) :
    (pd.count source r).nodesInVote = pd.nodesInVote := by
  cases r <;> rfl

@[simp] theorem count_proposeDeadline (pd : ProposeData) (source : String) (r : VoteResults) :
    (pd.count source r).proposeDeadline = pd.proposeDeadline := by
  cases r <;> rfl

/-- The majority is the same expression for even and odd group sizes. -/
theorem majority_eq (pd : ProposeData) : pd.majority = pd.nodesInVote.card / 2 + 1 := by
  rw [ProposeData.majority]
  split
  · rfl
  · omega

theorem toNat_succ_le (n : UInt16) : (n + 1).toNat ≤ n.toNat + 1 := by
  rw [UInt16.toNat_add]
  exact Nat.mod_le _ _

/-- A counted vote raises the counter of its result by at most one. -/
theorem tally_count_le (pd : ProposeData) (source : String) (r r' : VoteResults) :
    (pd.count source r).tally r' ≤ pd.tally r' + if r = r' then 1 else 0 := by
  cases r <;> cases r'
  · exact toNat_succ_le pd.accepted
  · exact le_refl _
  · exact le_refl _
  · exact toNat_succ_le pd.rejected

/-! ### The invariant of an open proposal -/

/-- The votes of eligible components. -/
def eligible (nodes : Finset String) (votes : List (ℤ × String)) : List String :=
  (votes.map Prod.snd).filter (· ∈ nodes)

/-- What the record of an open proposal says about the run behind it. -/
structure Tracked (tr : List (Transition GroupLead Input)) (p : String) (pd : ProposeData) :
    Prop where
  registered : ∃ t₀, lastRegistration p tr = some (t₀, pd.nodesInVote) ∧
    pd.proposeDeadline.endPoint = t₀ + 1000 * milliseconds
  tally_le : ∀ r, pd.tally r ≤ (eligible pd.nodesInVote (votesSince p r tr)).length
  distinct : ∀ r, (eligible pd.nodesInVote (votesSince p r tr)).Nodup
  inTime : ∀ r, ∀ v ∈ votesSince p r tr, v.1 ≤ pd.proposeDeadline.endPoint

/-- A transition that neither registers `p` nor votes on it keeps the record. -/
theorem Tracked.frame (h : Tracked tr p pd) (hreg : ¬ Registers p t)
    (hvote : ∀ r, voteOf p r t = none) : Tracked (tr ++ [t]) p pd := by
  have hreg' : lastRegistration p (tr ++ [t]) = lastRegistration p tr := by
    rw [lastRegistration_snoc, if_neg hreg]
  have hvotes : ∀ r, votesSince p r (tr ++ [t]) = votesSince p r tr := by
    intro r
    rw [votesSince_snoc, if_neg hreg, hvote r]
    simp
  constructor
  · rw [hreg']
    exact h.registered
  · intro r
    rw [hvotes]
    exact h.tally_le r
  · intro r
    rw [hvotes]
    exact h.distinct r
  · intro r
    rw [hvotes]
    exact h.inTime r

theorem tracked_fresh {nodes : Finset String}
    (h : registration t.pre t.label = some (p, nodes)) (hfresh : Fresh pd nodes t.label.now) :
    Tracked (tr ++ [t]) p pd := by
  have hreg : Registers p t := (registers_iff h).mpr rfl
  have hvotes : ∀ r, votesSince p r (tr ++ [t]) = [] := by
    intro r
    rw [votesSince_snoc, if_pos hreg]
  constructor
  · refine ⟨t.label.now, ?_, hfresh.endPoint⟩
    rw [lastRegistration_snoc, if_pos hreg, h, hfresh.nodesInVote]
    rfl
  · intro r
    rw [hvotes]
    cases r
    · simp [ProposeData.tally, hfresh.accepted]
    · simp [ProposeData.tally, hfresh.rejected]
  · intro r
    rw [hvotes]
    exact List.nodup_nil
  · intro r v hv
    rw [hvotes] at hv
    simp at hv

variable {now : ℤ} {r : VoteResults} {source : String}

/-- A vote on `p` in time, seen from the list of votes. -/
theorem votesSince_of_vote (hl : t.label = .vote now p r source) (r' : VoteResults) :
    votesSince p r' (tr ++ [t])
      = votesSince p r' tr ++ if r = r' then [(now, source)] else [] := by
  have hreg : ¬ Registers p t := not_registers (by rw [hl]; rfl)
  rw [votesSince_snoc, if_neg hreg, voteOf, hl]
  by_cases hr : r = r'
  · simp [hr]
  · simp [hr]

/-- A vote on another proposal is none on `p`. -/
theorem voteOf_of_ne {p' : String} (hl : t.label = .vote now p' r source) (hne : p ≠ p')
    (r' : VoteResults) : voteOf p r' t = none := by
  have hne' : p' ≠ p := fun h => hne h.symm
  simp [voteOf, hl, hne']

/-- Counting a vote that is no repetition keeps the record. -/
theorem Tracked.count (h : Tracked tr p pd) (hl : t.label = .vote now p r source)
    (hc : CountsFor t.pre now p source pd) (hrep : ¬ RepeatsVote tr t.pre t.label) :
    Tracked (tr ++ [t]) p (pd.count source r) := by
  have hnew : source ∉ (votesSince p r tr).map Prod.snd := by
    intro hmem
    refine hrep ?_
    simp only [RepeatsVote, hl, hc.lookup, Option.any_some, decide_eq_true_eq]
    exact ⟨⟨hc.inTime, hc.member⟩, hmem⟩
  have helig : ∀ r', eligible pd.nodesInVote (votesSince p r' (tr ++ [t]))
      = eligible pd.nodesInVote (votesSince p r' tr) ++ if r = r' then [source] else [] := by
    intro r'
    rw [votesSince_of_vote hl, eligible, eligible, List.map_append, List.filter_append]
    by_cases hr : r = r'
    · simp [hr, hc.member]
    · simp [hr]
  constructor
  · obtain ⟨t₀, hlast, hend⟩ := h.registered
    refine ⟨t₀, ?_, by rwa [count_proposeDeadline]⟩
    rw [lastRegistration_snoc, if_neg (not_registers (by rw [hl]; rfl)), count_nodesInVote, hlast]
  · intro r'
    rw [count_nodesInVote, helig]
    have hle := tally_count_le pd source r r'
    have hold := h.tally_le r'
    by_cases hr : r = r'
    · simp only [hr, if_true, List.length_append, List.length_singleton] at hle ⊢
      omega
    · simp only [hr, if_false, List.append_nil] at hle ⊢
      omega
  · -- the new voter is not among the earlier ones
    intro r'
    rw [count_nodesInVote, helig]
    by_cases hr : r = r'
    · rw [if_pos hr, ← hr]
      refine List.Nodup.append (h.distinct r) (by simp) ?_
      rw [List.disjoint_singleton]
      exact fun hmem => hnew (List.mem_of_mem_filter hmem)
    · rw [if_neg hr, List.append_nil]
      exact h.distinct r'
  · intro r' v hv
    rw [votesSince_of_vote hl] at hv
    rw [count_proposeDeadline]
    rcases List.mem_append.mp hv with hv | hv
    · exact h.inTime r' v hv
    · by_cases hr : r = r'
      · rw [if_pos hr, List.mem_singleton] at hv
        rw [hv]
        exact hc.inTime
      · simp [hr] at hv

/-- A vote in time of a component that may not vote keeps the record. -/
theorem Tracked.ignore (h : Tracked tr p pd) (hl : t.label = .vote now p r source)
    (hnow : now ≤ pd.proposeDeadline.endPoint) (hsrc : source ∉ pd.nodesInVote) :
    Tracked (tr ++ [t]) p pd := by
  have helig : ∀ r', eligible pd.nodesInVote (votesSince p r' (tr ++ [t]))
      = eligible pd.nodesInVote (votesSince p r' tr) := by
    intro r'
    rw [votesSince_of_vote hl, eligible, eligible, List.map_append, List.filter_append]
    by_cases hr : r = r'
    · simp [hr, hsrc]
    · simp [hr]
  constructor
  · rw [lastRegistration_snoc, if_neg (not_registers (by rw [hl]; rfl))]
    exact h.registered
  · intro r'
    rw [helig]
    exact h.tally_le r'
  · intro r'
    rw [helig]
    exact h.distinct r'
  · intro r' v hv
    rw [votesSince_of_vote hl] at hv
    rcases List.mem_append.mp hv with hv | hv
    · exact h.inTime r' v hv
    · by_cases hr : r = r'
      · rw [if_pos hr, List.mem_singleton] at hv
        rw [hv]
        exact hnow
      · simp [hr] at hv

/-! ### Whole runs -/

theorem tracked_step (hinv : ∀ p pd, t.pre.proposeData.lookup p = some pd → Tracked tr p pd)
    (hpost : t.post = (t.pre.step t.label).1) (hrep : ¬ RepeatsVote tr t.pre t.label)
    (hlook : t.post.proposeData.lookup p = some pd) : Tracked (tr ++ [t]) p pd := by
  have hstep := step_consensus t.pre t.label
  rw [hpost] at hlook
  generalize hi : t.label = i, (t.pre.step t.label).1 = gl', (t.pre.step t.label).2 = out
    at hstep hlook
  cases hstep with
  | same hdata hreg _ hvote =>
    -- a vote that changes nothing came in time, from a component that may not vote
    rw [hdata] at hlook
    have hreg' : ¬ Registers p t := not_registers (hi ▸ hreg)
    by_cases hv : ∃ now r source, i = .vote now p r source
    · obtain ⟨now, r, source, hv⟩ := hv
      obtain ⟨hnow, hsrc⟩ := hvote now p r source hv pd hlook
      exact (hinv p pd hlook).ignore (hi.trans hv) hnow hsrc
    · refine (hinv p pd hlook).frame hreg' fun r => ?_
      rw [voteOf, hi]
      split
      · rename_i now p' r' source
        rw [if_neg]
        rintro ⟨rfl, -⟩
        exact hv ⟨now, r', source, rfl⟩
      · rfl
  | @registered _ _ _ p' nodes pd' hreg hfresh hdata _ =>
    rw [← hi] at hreg hfresh
    by_cases hp : p = p'
    · rw [hdata, ← hp, AList.lookup_insert, Option.some_inj] at hlook
      rw [← hp] at hreg
      rw [← hlook]
      exact tracked_fresh hreg hfresh
    · rw [hdata, AList.lookup_insert_ne hp] at hlook
      refine (hinv p pd hlook).frame ?_ fun r => voteOf_of_registration r hreg
      rw [registers_iff hreg]
      exact fun h => hp h.symm
  | @counted now p' r source _ pd' hc hdata =>
    by_cases hp : p = p'
    · rw [hdata, ← hp, AList.lookup_insert, Option.some_inj] at hlook
      rw [← hp] at hi hc
      rw [← hlook]
      exact (hinv p pd' hc.lookup).count hi hc hrep
    · rw [hdata, AList.lookup_insert_ne hp] at hlook
      exact (hinv p pd hlook).frame (not_registers (by rw [hi]; rfl)) (voteOf_of_ne hi hp)
  | @decided now p' r decision source _ pd' hc _ hdata =>
    rw [hdata] at hlook
    obtain ⟨hp, hlook⟩ := Table.lookup_erase.mp hlook
    exact (hinv p pd hlook).frame (not_registers (by rw [hi]; rfl)) (voteOf_of_ne hi hp)
  | @late now p' r source _ pd' _ _ hdata =>
    rw [hdata] at hlook
    obtain ⟨hp, hlook⟩ := Table.lookup_erase.mp hlook
    exact (hinv p pd hlook).frame (not_registers (by rw [hi]; rfl)) (voteOf_of_ne hi hp)
  | swept =>
    -- a sweep only drops entries
    have hold := (Table.lookup_retain.mp hlook).1
    refine (hinv p pd hold).frame (not_registers (by rw [hi]; rfl)) fun r => ?_
    rw [voteOf, hi]

theorem tracked_run {s₀ : GroupLead} (h₀ : s₀.proposeData = ∅) (h : Run next s₀ tr s)
    (hrep : NoRepeatedVote tr) :
    ∀ p pd, s.proposeData.lookup p = some pd → Tracked tr p pd := by
  induction h with
  | nil =>
    intro p pd hlook
    rw [h₀] at hlook
    simp at hlook
  | @snoc tr s s' l _ hs ih =>
    obtain ⟨hrep', hlast⟩ := along_snoc.mp hrep
    intro p pd hlook
    exact tracked_step (t := ⟨s, l, s'⟩) (ih hrep') (next_eq_some.mp hs) hlast hlook

/-- The distinct eligible voters behind a counter that reached the majority. -/
theorem Tracked.quorum (h : Tracked tr p pd) (r : VoteResults) (hmaj : pd.majority ≤ pd.tally r) :
    ∃ V ⊆ pd.nodesInVote, pd.nodesInVote.card / 2 + 1 ≤ V.card ∧
      ∀ v ∈ V, ∃ n ≤ pd.proposeDeadline.endPoint, (n, v) ∈ votesSince p r tr := by
  refine ⟨(eligible pd.nodesInVote (votesSince p r tr)).toFinset, ?_, ?_, ?_⟩
  · intro v hv
    have := List.of_mem_filter (List.mem_toFinset.mp hv)
    simpa using this
  · rw [List.toFinset_card_of_nodup (h.distinct r), ← majority_eq]
    exact le_trans hmaj (h.tally_le r)
  · intro v hv
    have hmem := List.mem_of_mem_filter (List.mem_toFinset.mp hv)
    obtain ⟨⟨n, v'⟩, hnv, rfl⟩ := List.mem_map.mp hmem
    exact ⟨n, h.inTime r (n, v') hnv, hnv⟩

/-- **The quorum of an announced decision.**  In a run of a `GroupLead` in
which no counted vote is repeated, a call that announces `r` for `p` finds `p`
registered, at `t₀` for the components `K`; if it announces an acceptance, or
is made before the deadline, then at least `|K| / 2 + 1` distinct members of
`K` sent a vote `r` for `p`, handled after the registration and at most 1000 ms
later. -/
theorem announce_quorum {id : ComponentUuid} {start : ℤ} {timeo : ElectionTimeo}
    (h : Run next (init id start timeo) (tr ++ [t]) s) (hrep : NoRepeatedVote (tr ++ [t]))
    (hann : (p, r) ∈ announces t.pre t.label) :
    ∃ t₀ K, lastRegistration p tr = some (t₀, K) ∧
      (r = .accepted ∨ t.label.now ≤ t₀ + 1000 * milliseconds →
        ∃ V ⊆ K, K.card / 2 + 1 ≤ V.card ∧
          ∀ v ∈ V, ∃ n ≤ t₀ + 1000 * milliseconds, (n, v) ∈ votesSince p r (tr ++ [t])) := by
  obtain ⟨hrep', hlast⟩ := along_snoc.mp hrep
  have hinv := tracked_run rfl h.last.1 hrep'
  rcases announces_cases hann with ⟨now, r', source, pd, hl, hc, hmaj⟩ | ⟨hr, pd, hlook, htime⟩
  · -- the vote counted in this call completes the majority
    obtain ⟨t₀, hreg, hend⟩ := (hinv p pd hc.lookup).registered
    have htrack := (hinv p pd hc.lookup).count hl hc hlast
    obtain ⟨V, hVK, hcard, hV⟩ := htrack.quorum r hmaj
    rw [count_nodesInVote] at hVK hcard
    rw [count_proposeDeadline, hend] at hV
    exact ⟨t₀, pd.nodesInVote, hreg, fun _ => ⟨V, hVK, hcard, hV⟩⟩
  · -- after the deadline nothing is claimed
    obtain ⟨t₀, hreg, hend⟩ := (hinv p pd hlook).registered
    rw [Timeout.isTimeout_iff, hend] at htime
    refine ⟨t₀, pd.nodesInVote, hreg, fun hor => ?_⟩
    rcases hor with hacc | hle
    · simp [hr] at hacc
    · omega

/-! ### Concrete runs -/

/-- `a`, elected, registers the proposal `p` for the voters `b` and `c`, and `b`
accepts it. -/
def proposedInputs : List Input :=
  electedInputs ++
    [.propose (300 * milliseconds)
      (((∅ : KnownNodes).insert "b" (.ofCount 0 11000)).insert "c" (.ofCount 0 11000))
      false "p" none,
    .vote (310 * milliseconds) "p" .accepted "b"]

theorem announce_quorum_two_voters :
    ∃ tr t s, Run next (init compA 0 shortTimeo) (tr ++ [t]) s ∧
      ("p", VoteResults.accepted) ∈ announces t.pre t.label ∧
      ∃ t₀ K, lastRegistration "p" tr = some (t₀, K) ∧
        (VoteResults.accepted = .accepted ∨ t.label.now ≤ t₀ + 1000 * milliseconds →
          ∃ V ⊆ K, K.card / 2 + 1 ≤ V.card ∧ ∀ v ∈ V, ∃ n ≤ t₀ + 1000 * milliseconds,
            (n, v) ∈ votesSince "p" .accepted (tr ++ [t])) := by
  set i : Input := .vote (320 * milliseconds) "p" .accepted "c"
  obtain ⟨tr, s, hrun, hann, hrep⟩ :=
    exists_run_of_replay next (init compA 0 shortTimeo)
      (fun tr s =>
        ("p", VoteResults.accepted) ∈ announces s i ∧
          NoRepeatedVote (tr ++ [⟨s, i, (s.step i).1⟩])) proposedInputs (by decide)
  have hrun' : Run next (init compA 0 shortTimeo) (tr ++ [⟨s, i, (s.step i).1⟩]) (s.step i).1 :=
    .snoc hrun rfl
  exact ⟨tr, _, _, hrun', hann, announce_quorum hrun' hrep hann⟩

/-- `b` repeats its acceptance, and `p` is accepted on the vote of one of two. -/
theorem repeated_vote_accepts :
    ∃ tr t s K, Run next (init compA 0 shortTimeo) (tr ++ [t]) s ∧
      ("p", VoteResults.accepted) ∈ announces t.pre t.label ∧
      lastRegistration "p" tr = some (300 * milliseconds, K) ∧
      ¬ ∃ V ⊆ K, K.card / 2 + 1 ≤ V.card ∧
        ∀ v ∈ V, ∃ n, (n, v) ∈ votesSince "p" .accepted (tr ++ [t]) := by
  set i : Input := .vote (320 * milliseconds) "p" .accepted "b" with hi
  obtain ⟨tr, s, hrun, hann, hreg, hvotes⟩ :=
    exists_run_of_replay next (init compA 0 shortTimeo)
      (fun tr s =>
        ("p", VoteResults.accepted) ∈ announces s i ∧
          lastRegistration "p" tr = some (300 * milliseconds, {"b", "c"}) ∧
          votesSince "p" .accepted (tr ++ [⟨s, i, (s.step i).1⟩])
            = [(310 * milliseconds, "b"), (320 * milliseconds, "b")]) proposedInputs (by decide)
  refine ⟨tr, ⟨s, i, (s.step i).1⟩, _, {"b", "c"}, .snoc hrun rfl, hann, hreg, ?_⟩
  rintro ⟨V, -, hcard, hV⟩
  -- every voter is `b`, but two are needed
  have hsub : V ⊆ {"b"} := by
    intro v hv
    obtain ⟨n, hn⟩ := hV v hv
    rw [hvotes] at hn
    simp only [List.mem_cons, Prod.mk.injEq, List.not_mem_nil, or_false] at hn
    rcases hn with ⟨-, rfl⟩ | ⟨-, rfl⟩ <;> simp
  have hone := Finset.card_le_card hsub
  have htwo : ({"b", "c"} : Finset String).card = 2 := by decide
  rw [Finset.card_singleton] at hone
  omega

end GroupLead

end Riaps
