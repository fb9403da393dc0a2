/-
How often a proposal is decided.

A decision is sent in four places: a vote completes a majority for or against
the proposal, a vote comes too late, or an idle leader sweeps out what has
expired.  Each place pairs the `Announce` with erasing the proposal from
`m_proposeData`:

* `step_count` — what a call announces and leaves open adds up to what was open
  before, or to one for a proposal that the call registers;
* `announced_le_registered` — hence a component announces a proposal at most as
  often as it has registered it;
* `decided_once` — when the ids of the proposals are distinct, a registered
  proposal is open and not announced, or closed and announced exactly once, and
  nothing else is announced.
-/
import RiapsCore.VoteQuorum

open Runs

namespace Riaps

namespace GroupLead

variable {gl gl' s s₀ : GroupLead} {i : Input} {out : List GroupMsg} {p : String}
  {tr : List (Transition GroupLead Input)}

/-- How many of the messages announce a decision on `p`. -/
def announcedOf (p : String) (out : List GroupMsg) : ℕ :=
  (out.filterMap GroupMsg.announced).countP fun d => d.1 = p

/-- How many decisions on `p` the calls of a run have announced. -/
def announcedCount (p : String) (tr : List (Transition GroupLead Input)) : ℕ :=
  (tr.flatMap fun t => announces t.pre t.label).countP fun d => d.1 = p

/-- How many calls of a run have registered `p`. -/
def registeredCount (p : String) (tr : List (Transition GroupLead Input)) : ℕ :=
  tr.countP fun t => Registers p t

theorem registeredCount_singleton (p : String) (t : Transition GroupLead Input) :
    registeredCount p [t]
      = if (registration t.pre t.label).map Prod.fst = some p then 1 else 0 := by
  rw [registeredCount, List.countP_singleton]
  by_cases hr : Registers p t
  · rw [if_pos (decide_eq_true hr)]
    exact (if_pos hr).symm
  · rw [if_neg (by simpa using hr)]
    exact (if_neg hr).symm

/-- Whether `p` is open, as a number. -/
def openCount (p : String) (gl : GroupLead) : ℕ := if p ∈ gl.proposeData then 1 else 0

theorem openCount_congr (h : p ∈ gl'.proposeData ↔ p ∈ gl.proposeData) :
    openCount p gl' = openCount p gl := by
  simp only [openCount, h]

theorem announcedOf_eq_zero (h : ∀ m ∈ out, m.announced = none) : announcedOf p out = 0 := by
  have hnil : out.filterMap GroupMsg.announced = [] := List.filterMap_eq_nil_iff.mpr h
  rw [announcedOf, hnil, List.countP_nil]

theorem announcedOf_announce (p' : String) (r : VoteResults) :
    announcedOf p [announce p' r] = if p' = p then 1 else 0 := by
  simp [announcedOf, announce, GroupMsg.announced, List.countP_cons]

/-- Erasing an open proposal closes it and no other. -/
theorem openCount_erase {p' : String} (hdata : gl'.proposeData = gl.proposeData.erase p')
    (hopen : p' ∈ gl.proposeData) (p : String) :
    (if p' = p then 1 else 0) + openCount p gl' = openCount p gl := by
  rw [openCount, openCount, hdata]
  by_cases hp : p' = p
  · subst hp
    simp [hopen, AList.mem_erase]
  · simp [hp, AList.mem_erase, Ne.symm hp]

/-- A sweep announces the proposals that it closes, each once. -/
theorem maintain_count (gl : GroupLead) (now : ℤ) (p : String) :
    announcedOf p (gl.maintain now).2 + openCount p (gl.maintain now).1 = openCount p gl := by
  have hcount : announcedOf p (gl.maintain now).2 = (gl.expired now).count p := by
    rw [announcedOf, maintain_announces, List.countP_map, List.count]
    rfl
  have hnodup : (gl.expired now).Nodup := AList.keys_nodup _
  rw [hcount]
  by_cases hexp : p ∈ gl.expired now
  · -- open before, announced once and closed
    obtain ⟨pd, hlook, htime⟩ := mem_expired.mp hexp
    have hopen : openCount p gl = 1 := if_pos (Table.mem_iff_lookup.mpr ⟨pd, hlook⟩)
    have hgone : openCount p (gl.maintain now).1 = 0 := by
      refine if_neg fun hmem => ?_
      obtain ⟨pd', hlook', hkeep⟩ := Table.mem_retain.mp hmem
      rw [hlook, Option.some_inj] at hlook'
      subst hlook'
      simp [htime] at hkeep
    rw [List.count_eq_one_of_mem hnodup hexp, hopen, hgone]
  · -- not expired: kept if it was open
    have hkeep : p ∈ (gl.maintain now).1.proposeData ↔ p ∈ gl.proposeData := by
      refine ⟨Table.mem_of_mem_retain, fun hmem => ?_⟩
      obtain ⟨pd, hlook⟩ := Table.mem_iff_lookup.mp hmem
      refine Table.mem_retain.mpr ⟨pd, hlook, ?_⟩
      have htime : ¬ pd.proposeDeadline.isTimeout now := by
        intro htime
        exact hexp (mem_expired.mpr ⟨pd, hlook, htime⟩)
      simpa using htime
    rw [List.count_eq_zero.mpr hexp, openCount_congr hkeep, Nat.zero_add]

/-- **One call.**  What a call announces on `p` and whether it leaves `p` open
add up to one when the call registers `p`, and to what was open otherwise. -/
theorem step_count (gl : GroupLead) (i : Input) (p : String) :
    announcedOf p (gl.step i).2 + openCount p (gl.step i).1
      = if (registration gl i).map Prod.fst = some p then 1 else openCount p gl := by
  have hstep := step_consensus gl i
  generalize (gl.step i).1 = gl', (gl.step i).2 = out at hstep ⊢
  cases hstep with
  | same hdata hreg hout _ =>
    have hsame : openCount p gl' = openCount p gl := openCount_congr (by rw [hdata])
    rw [announcedOf_eq_zero hout, hreg, hsame]
    simp
  | @registered _ _ _ p' nodes pd hreg _ hdata hout =>
    rw [announcedOf_eq_zero hout, hreg, openCount, hdata]
    by_cases hp : p' = p
    · simp [hp]
    · have hmem : p ∈ gl.proposeData.insert p' pd ↔ p ∈ gl.proposeData := by
        rw [AList.mem_insert]
        exact or_iff_right (Ne.symm hp)
      simp [hp, hmem, openCount]
  | @counted now p' r source _ pd hc hdata =>
    -- the proposal voted on was open before
    have hmem : p ∈ gl'.proposeData ↔ p ∈ gl.proposeData := by
      rw [hdata, AList.mem_insert]
      refine or_iff_right_of_imp ?_
      rintro rfl
      exact Table.mem_iff_lookup.mpr ⟨pd, hc.lookup⟩
    rw [openCount_congr hmem, announcedOf_eq_zero (by simp)]
    simp [registration]
  | @decided now p' r decision source _ pd hc _ hdata =>
    have hclose := openCount_erase hdata (Table.mem_iff_lookup.mpr ⟨pd, hc.lookup⟩) p
    rw [announcedOf_announce, hclose]
    simp [registration]
  | @late now p' r source _ pd hlook _ hdata =>
    have hclose := openCount_erase hdata (Table.mem_iff_lookup.mpr ⟨pd, hlook⟩) p
    rw [announcedOf_announce, hclose]
    simp [registration]
  | @swept now known =>
    rw [maintain_count]
    simp [registration]

theorem announcedCount_snoc (p : String) (tr : List (Transition GroupLead Input))
    (t : Transition GroupLead Input) :
    announcedCount p (tr ++ [t]) = announcedCount p tr + announcedOf p (t.pre.step t.label).2 := by
  rw [announcedCount, List.flatMap_append, List.countP_append, announcedCount, announcedOf]
  simp [announces]

theorem registeredCount_snoc (p : String) (tr : List (Transition GroupLead Input))
    (t : Transition GroupLead Input) :
    registeredCount p (tr ++ [t]) = registeredCount p tr
      + if (registration t.pre t.label).map Prod.fst = some p then 1 else 0 := by
  rw [registeredCount, List.countP_append]
  exact congrArg _ (registeredCount_singleton p _)

/-! ### Whole runs -/

/-- A component announces a proposal at most as often as it has registered it;
one that is still open has one announcement to come. -/
theorem announced_le_registered (h₀ : s₀.proposeData = ∅) (h : Run next s₀ tr s) (p : String) :
    announcedCount p tr + openCount p s ≤ registeredCount p tr := by
  induction h with
  | nil => simp [announcedCount, openCount, registeredCount, h₀]
  | @snoc tr s s' l _ hs ih =>
    have hcall := step_count s l p
    rw [← next_eq_some.mp hs] at hcall
    rw [announcedCount_snoc, registeredCount_snoc]
    split at hcall
    · simp only [*, if_true]
      omega
    · simp only [*, if_false]
      omega

/-- A proposal registered at most once is announced or open exactly as often as
it was registered. -/
theorem announced_eq_registered (h₀ : s₀.proposeData = ∅) (h : Run next s₀ tr s)
    (honce : registeredCount p tr ≤ 1) :
    announcedCount p tr + openCount p s = registeredCount p tr := by
  induction h with
  | nil => simp [announcedCount, openCount, registeredCount, h₀]
  | @snoc tr s s' l _ hs ih =>
    have hcall := step_count s l p
    rw [← next_eq_some.mp hs] at hcall
    rw [registeredCount_snoc] at honce
    have hbefore := ih (by omega)
    rw [announcedCount_snoc, registeredCount_snoc]
    by_cases hreg : (registration s l).map Prod.fst = some p
    · -- registered now for the first time, so neither announced nor open before
      simp only [hreg, if_true] at hcall honce ⊢
      omega
    · simp only [hreg, if_false] at hcall honce ⊢
      omega

/-- A proposal is registered from a call that brings it, by a component that
gives its own id as the leader's. -/
theorem registration_eq_some {nodes : Finset String}
    (h : registration gl i = some (p, nodes)) :
    gl.getLeaderId = gl.componentId ∧
      ((∃ now known tsca, i = .actionPropose now known p tsca) ∨
        ∃ now known isAction frame, i = .propose now known isAction p frame) := by
  rw [registration.eq_def] at h
  split at h
  · split at h
    · simp at h
    · rename_i hl
      split at h
      · simp at h
      · rw [Option.some_inj, Prod.mk.injEq] at h
        obtain ⟨rfl, -⟩ := h
        exact ⟨not_not.mp hl, .inl ⟨_, _, _, rfl⟩⟩
  · split at h
    · simp at h
    · rename_i hl
      rw [Option.some_inj, Prod.mk.injEq] at h
      obtain ⟨rfl, -⟩ := h
      exact ⟨not_not.mp hl, .inr ⟨_, _, _, _, rfl⟩⟩
  · simp at h

/-- The ids of the proposals that reach the component, in order. -/
def proposeIds (tr : List (Transition GroupLead Input)) : List String :=
  tr.filterMap fun t =>
    match t.label with
    | .actionPropose _ _ proposeId _ => some proposeId
    | .propose _ _ _ proposeId _ => some proposeId
    | _ => none

/-- A proposal is registered at most as often as its id was proposed. -/
theorem registered_le_proposeIds (p : String) (tr : List (Transition GroupLead Input)) :
    registeredCount p tr ≤ (proposeIds tr).count p := by
  rw [registeredCount, proposeIds, List.count, List.countP_filterMap]
  refine List.countP_mono_left fun t _ hr => ?_
  obtain ⟨⟨p', nodes⟩, hreg, hp⟩ := Option.map_eq_some_iff.mp (of_decide_eq_true hr)
  obtain rfl : p' = p := hp
  obtain ⟨-, ⟨now, known, tsca, hl⟩ | ⟨now, known, isAction, frame, hl⟩⟩ :=
    registration_eq_some hreg
  · simp [hl]
  · simp [hl]

/-- **Every proposal is decided once.**  In a run of a `GroupLead` in which the
ids of the proposals are pairwise distinct, a registered proposal is open and
has not been announced, or it is not open and has been announced exactly once;
what was not registered has not been announced. -/
theorem decided_once {id : ComponentUuid} {start : ℤ} {timeo : ElectionTimeo}
    (h : Run next (init id start timeo) tr s) (hdistinct : (proposeIds tr).Nodup) :
    (∀ p, (∃ t ∈ tr, Registers p t) →
      p ∈ s.proposeData ∧ announcedCount p tr = 0 ∨
        p ∉ s.proposeData ∧ announcedCount p tr = 1) ∧
    ∀ p, (¬ ∃ t ∈ tr, Registers p t) → announcedCount p tr = 0 := by
  have honce : ∀ p, registeredCount p tr ≤ 1 := fun p =>
    le_trans (registered_le_proposeIds p tr) (List.nodup_iff_count_le_one.mp hdistinct p)
  have hcount : ∀ p, announcedCount p tr + openCount p s = registeredCount p tr :=
    fun p => announced_eq_registered rfl h (honce p)
  constructor
  · rintro p ⟨t, ht, hr⟩
    have hpos : 0 < registeredCount p tr :=
      List.countP_pos_iff.mpr ⟨t, ht, decide_eq_true hr⟩
    have hp := hcount p
    have hone := honce p
    by_cases hopen : p ∈ s.proposeData
    · left
      rw [openCount, if_pos hopen] at hp
      exact ⟨hopen, by omega⟩
    · right
      rw [openCount, if_neg hopen] at hp
      exact ⟨hopen, by omega⟩
  · intro p hnone
    have hzero : registeredCount p tr = 0 := by
      rw [registeredCount, List.countP_eq_zero]
      exact fun t ht hr => hnone ⟨t, ht, of_decide_eq_true hr⟩
    have hp := hcount p
    omega

/-- `a` registers `p` and `q`; `p` is accepted by `b` and `c`, and `q` stays
open. -/
theorem decided_once_two_proposals :
    ∃ tr s, Run next (init compA 0 shortTimeo) tr s ∧ (proposeIds tr).Nodup ∧
      announcedCount "p" tr = 1 ∧ "q" ∈ s.proposeData ∧
      (∀ p, (∃ t ∈ tr, Registers p t) →
        p ∈ s.proposeData ∧ announcedCount p tr = 0 ∨
          p ∉ s.proposeData ∧ announcedCount p tr = 1) ∧
      ∀ p, (¬ ∃ t ∈ tr, Registers p t) → announcedCount p tr = 0 := by
  obtain ⟨tr, s, hrun, hdistinct, hp, hq⟩ :=
    exists_run_of_replay next (init compA 0 shortTimeo)
      (fun tr s => (proposeIds tr).Nodup ∧ announcedCount "p" tr = 1 ∧ "q" ∈ s.proposeData)
      (proposedInputs ++
        [.propose (315 * milliseconds) ((∅ : KnownNodes).insert "b" (.ofCount 0 11000)) false "q"
          none,
        .vote (320 * milliseconds) "p" .accepted "c"]) (by decide)
  exact ⟨tr, s, hrun, hdistinct, hp, hq, decided_once hrun hdistinct⟩

end GroupLead

end Riaps
