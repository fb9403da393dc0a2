/-
What a heartbeat or a granted vote does to the election timeout.

`Update(internalMessage)` calls `m_electionTimeout.Reset(GenerateElectionTimeo())`
when it takes over a leader's heartbeat or grants a vote.  The argument is an
`int64_t`, so the overload that restarts nothing is chosen: the end point that
`Update()` tests stays where the last candidacy, vote timeout or the
constructor put it.

* `quiet_iff` — a follower is spared a candidacy for the next 150 ms, whatever
  calls come meanwhile, iff its end point is that far away;
* `quiet_step_iff` — hence hearing from a leader spares it iff the end point
  was that far away already;
* `hears_quiet_iff` — the same for all that is heard along a run.
-/
import RiapsCore.Runs
import RiapsCore.ElectionSteps

open Runs

namespace Riaps

namespace GroupLead

variable {gl s s₀ : GroupLead} {i : Input} {tr : List (Transition GroupLead Input)}

/-- A FOLLOWER handles an `AppendEntry`, or the component grants a vote. -/
def Hears (gl : GroupLead) (m : LeaderElection) : Prop :=
  (gl.currentState = .follower ∧ ∃ entry, FollowsEntry gl m entry) ∨
    ∃ req, GrantsRequest gl m req

/-- The transition is an `Update()` call at `now` that turns the component into
a CANDIDATE. -/
def Candidacy (t : Transition GroupLead Input) (now : ℤ) : Prop :=
  (∃ known, t.label = .update now known) ∧
    t.pre.currentState ≠ .candidate ∧ t.post.currentState = .candidate

/-- Whatever calls follow the state `gl` of time `start`, no `Update()` within
`minElectionTimeout` turns the component into a CANDIDATE. -/
def Quiet (gl : GroupLead) (start : ℤ) : Prop :=
  ∀ tr s, Run next gl tr s → ClockFrom Input.now start tr →
    ∀ t ∈ tr, ∀ now, Candidacy t now → start + minElectionTimeout * milliseconds < now

/-! ### The end point while a follower waits -/

/-- Before its end point a follower stays a follower with that end point. -/
theorem step_before_endPoint (hs : gl.currentState = .follower)
    (hnow : i.now ≤ gl.electionTimeout.endPoint) :
    (gl.step i).1.currentState = .follower ∧
      (gl.step i).1.electionTimeout.endPoint = gl.electionTimeout.endPoint := by
  have hstep := step_election gl i
  generalize (gl.step i).1 = gl', (gl.step i).2 = out at hstep
  cases hstep with
  | same hsame _ => exact ⟨hsame.currentState.trans hs, by rw [hsame.electionTimeout]⟩
  | candidacy _ ht => exact absurd hnow (not_le.mpr ht)
  | voteTimeout hc _ => simp [hs] at hc
  | heartBeat hc _ => simp [hs] at hc
  | grant _ => exact ⟨rfl, rfl⟩
  | counted _ hc _ => simp [hs] at hc
  | elected _ hc _ _ => simp [hs] at hc
  | followed _ => exact ⟨rfl, rfl⟩

theorem run_before_endPoint (h : Run next s₀ tr s) (hs : s₀.currentState = .follower)
    (hnow : ∀ t ∈ tr, t.label.now ≤ s₀.electionTimeout.endPoint) :
    s.currentState = .follower ∧ s.electionTimeout.endPoint = s₀.electionTimeout.endPoint := by
  induction h with
  | nil => exact ⟨hs, rfl⟩
  | @snoc tr s s' l _ hstep ih =>
    obtain ⟨hf, he⟩ := ih fun t ht => hnow t (List.mem_append_left _ ht)
    have hl : l.now ≤ s.electionTimeout.endPoint := by
      rw [he]
      exact hnow ⟨s, l, s'⟩ (by simp)
    rw [next_eq_some.mp hstep]
    obtain ⟨hf', he'⟩ := step_before_endPoint hf hl
    exact ⟨hf', he'.trans he⟩

/-- A follower past its end point becomes a candidate at the next `Update()`. -/
theorem update_after_endPoint (hs : gl.currentState = .follower) {now : ℤ}
    (hnow : gl.electionTimeout.endPoint < now) (known : KnownNodes) :
    (gl.step (.update now known)).1.currentState = .candidate := by
  have ht : gl.electionTimeout.isTimeout now := hnow
  simp [step, update, hs, ht, becomeCandidate]

/-- **The end point decides.** -/
theorem quiet_iff (hs : gl.currentState = .follower) (start : ℤ) :
    gl.Quiet start ↔
      start + minElectionTimeout * milliseconds ≤ gl.electionTimeout.endPoint := by
  constructor
  · intro hq
    by_contra hlt
    have hlate : gl.electionTimeout.endPoint < start + minElectionTimeout * milliseconds := by
      omega
    -- one `Update()` at the very end of the 150 ms
    have hms : minElectionTimeout * milliseconds = 150000000 := rfl
    set now := start + minElectionTimeout * milliseconds with hdef
    have hrun : Run next gl [⟨gl, .update now ∅, (gl.step (.update now ∅)).1⟩]
        (gl.step (.update now ∅)).1 := .snoc .nil rfl
    have hclock : ClockFrom Input.now start [⟨gl, .update now ∅, (gl.step (.update now ∅)).1⟩] := by
      simp only [ClockFrom, List.map_cons, List.map_nil, List.pairwise_cons, List.mem_singleton,
        Input.now]
      refine ⟨fun a ha => ?_, by simp⟩
      omega
    have := hq _ _ hrun hclock _ (List.mem_singleton.mpr rfl) now
      ⟨⟨∅, rfl⟩, by simp [hs], update_after_endPoint hs hlate ∅⟩
    omega
  · intro hfar tr s hrun hclock t ht now hcand
    obtain ⟨⟨known, hlabel⟩, -, hpost⟩ := hcand
    by_contra hle
    obtain ⟨tr₁, tr₂, rfl⟩ := List.append_of_mem ht
    obtain ⟨hrun₁, hstep, -⟩ := hrun.at_split
    -- every call up to and including `t` came before the end point
    have htnow : t.label.now = now := by rw [hlabel]; rfl
    have hearly : ∀ u ∈ tr₁, u.label.now ≤ gl.electionTimeout.endPoint := by
      intro u hu
      have hut : u.label.now ≤ t.label.now := hclock.le_of_split hu
      omega
    obtain ⟨hf, he⟩ := run_before_endPoint hrun₁ hs hearly
    have hf' := (step_before_endPoint (i := t.label) hf (by rw [he]; omega)).1
    rw [next_eq_some.mp hstep, hf'] at hpost
    simp at hpost

/-- Hearing from a leader or granting a vote leaves a follower with the end
point it had. -/
theorem step_of_hears {m : LeaderElection} (h : gl.Hears m) (now : ℤ)
    (timeo : ElectionTimeo) :
    (gl.step (.message now timeo m)).1.currentState = .follower ∧
      (gl.step (.message now timeo m)).1.electionTimeout.endPoint
        = gl.electionTimeout.endPoint := by
  rcases h with ⟨-, entry, hf⟩ | ⟨req, hg⟩
  · rw [step_of_follows hf]
    exact ⟨rfl, rfl⟩
  · rw [step_of_grants hg]
    exact ⟨rfl, rfl⟩

/-- After a component has heard from a leader or granted a vote at `now`, it is
spared iff its election timeout ended at least 150 ms later anyway. -/
theorem quiet_step_iff {m : LeaderElection} (h : gl.Hears m) (now : ℤ)
    (timeo : ElectionTimeo) :
    (gl.step (.message now timeo m)).1.Quiet now ↔
      now + minElectionTimeout * milliseconds ≤ gl.electionTimeout.endPoint := by
  obtain ⟨hs, he⟩ := step_of_hears h now timeo
  rw [quiet_iff hs now, he]

/-- **When a live leader suppresses elections.**  Along a run, everything heard
from a leader and every granted vote holds off a candidacy for 150 ms, whatever
calls follow, iff each time the election timeout ended at least 150 ms later
anyway. -/
theorem hears_quiet_iff {id : ComponentUuid} {start : ℤ} {first : ElectionTimeo}
    (h : Run next (init id start first) tr s) :
    (∀ t ∈ tr, ∀ now timeo m, t.label = .message now timeo m → t.pre.Hears m →
        t.post.Quiet now) ↔
      ∀ t ∈ tr, ∀ now timeo m, t.label = .message now timeo m → t.pre.Hears m →
        now + minElectionTimeout * milliseconds ≤ t.pre.electionTimeout.endPoint := by
  have heach : ∀ t ∈ tr, ∀ now timeo m, t.label = .message now timeo m → t.pre.Hears m →
      (t.post.Quiet now ↔
        now + minElectionTimeout * milliseconds ≤ t.pre.electionTimeout.endPoint) := by
    intro t ht now timeo m hl hh
    rw [next_eq_some.mp (h.step_of_mem ht), hl]
    exact quiet_step_iff hh now timeo
  constructor
  · intro hquiet t ht now timeo m hl hh
    exact (heach t ht now timeo m hl hh).mp (hquiet t ht now timeo m hl hh)
  · intro hfar t ht now timeo m hl hh
    exact (heach t ht now timeo m hl hh).mpr (hfar t ht now timeo m hl hh)

/-- A fresh follower hears a leader at once and is spared: its first timeout
still runs. -/
theorem hears_quiet_iff_fresh :
    ∃ tr s, Run next (init compB 0 shortTimeo) tr s ∧
      (∃ t ∈ tr, t.pre.Hears { appendEntry := some ⟨"a", 1⟩ }) ∧
      ((∀ t ∈ tr, ∀ now timeo m, t.label = .message now timeo m → t.pre.Hears m →
          t.post.Quiet now) ↔
        ∀ t ∈ tr, ∀ now timeo m, t.label = .message now timeo m → t.pre.Hears m →
          now + minElectionTimeout * milliseconds ≤ t.pre.electionTimeout.endPoint) := by
  have hh : (init compB 0 shortTimeo).Hears { appendEntry := some ⟨"a", 1⟩ } :=
    .inl ⟨rfl, ⟨"a", 1⟩, rfl, rfl, .inl rfl⟩
  have hrun := Run.snoc (.nil : Run next (init compB 0 shortTimeo) [] _)
    (l := .message 0 shortTimeo { appendEntry := some ⟨"a", 1⟩ }) rfl
  exact ⟨_, _, hrun, ⟨_, List.mem_singleton.mpr rfl, hh⟩, hears_quiet_iff hrun⟩

/-- The heartbeats of `a` reach `b` every 75 ms, the last one at 149 ms, and
the `Update()` two milliseconds later makes `b` a candidate. -/
theorem candidacy_after_heartbeat :
    ∃ tr s, Run next (init compB 0 shortTimeo) tr s ∧ s.Hears { appendEntry := some ⟨"a", 1⟩ } ∧
      ClockFrom Input.now 0 tr ∧ (∀ t ∈ tr, t.label.now ≤ 149 * milliseconds) ∧
      ¬ (s.step (.message (149 * milliseconds) shortTimeo
        { appendEntry := some ⟨"a", 1⟩ })).1.Quiet (149 * milliseconds) := by
  set s₁ := ((init compB 0 shortTimeo).step
    (.message (75 * milliseconds) shortTimeo { appendEntry := some ⟨"a", 1⟩ })).1 with hs₁
  have hh : s₁.Hears { appendEntry := some ⟨"a", 1⟩ } :=
    .inl ⟨rfl, ⟨"a", 1⟩, rfl, rfl, .inl rfl⟩
  refine ⟨_, s₁, .snoc .nil rfl, hh, ?_, ?_, ?_⟩
  · show [0, 75 * milliseconds].Pairwise (· ≤ ·)
    decide
  · intro t ht
    rw [List.mem_singleton.mp ht]
    show 75 * milliseconds ≤ 149 * milliseconds
    decide
  · obtain ⟨hs, he⟩ := step_of_hears hh (149 * milliseconds) shortTimeo
    rw [quiet_iff hs, he]
    decide

end GroupLead

end Riaps
