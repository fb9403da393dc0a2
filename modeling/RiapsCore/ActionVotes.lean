/-
One vote in progress per action.

The guard of `OnActionProposeFromClient` looks the action up in `m_actionData`,
an index beside `m_proposeData` whose entry is overwritten by the next proposal
for the action.  `OnVote` erases the entry by the action's name when it closes
a proposal, and so it may erase the entry of a later one (`ClosesOther`): the
guard then lets a second vote start.  As long as that does not happen the index
backs every vote in progress:

* `step_action` — what one call can do to the two tables;
* `indexed_run` — the record that the index holds for an action expires no
  earlier than any proposal for it that is in progress;
* `one_vote_per_action` — hence at most one is in progress.
-/
import RiapsCore.Decisions

open Runs

namespace Riaps

namespace GroupLead

variable {gl gl' s : GroupLead} {i : Input} {now : ℤ} {p p' a : String}
  {tr : List (Transition GroupLead Input)} {t : Transition GroupLead Input}

/-- The action that a call proposes. -/
def proposedAction : Input → Option String
  | .actionPropose _ _ _ tsca => some tsca.actionId
  | _ => none

/-- The action that the proposal `p`, as last registered, is about; `none` for
a proposed value. -/
def votedAction (p : String) (tr : List (Transition GroupLead Input)) : Option String :=
  tr.foldl (fun acc t => if Registers p t then proposedAction t.label else acc) none

/-- The vote on `p`, a proposal of the action `a`, is in progress: `p` is open
and its deadline has not passed. -/
def InProgress (tr : List (Transition GroupLead Input)) (gl : GroupLead) (now : ℤ)
    (p a : String) : Prop :=
  votedAction p tr = some a ∧
    ∃ pd ∈ gl.proposeData.lookup p, ¬ pd.proposeDeadline.isTimeout now

instance : Decidable (InProgress tr gl now p a) :=
  inferInstanceAs (Decidable (_ ∧ _))

/-- The proposal that a call of `OnVote` closes, late or by a majority, with its
record. -/
def closes (gl : GroupLead) : Input → Option (String × ProposeData)
  | .vote now proposeId result source =>
    (gl.proposeData.lookup proposeId).bind fun pd =>
      if pd.proposeDeadline.isTimeout now then some (proposeId, pd)
      else if source ∉ pd.nodesInVote then none
      else
        let pd := pd.count source result
        if pd.majority ≤ pd.accepted.toNat ∨ pd.majority ≤ pd.rejected.toNat then
          some (proposeId, pd)
        else none
  | _ => none

/-- The call closes a proposal whose record names an action that another
proposal in progress is about. -/
def ClosesOther (tr : List (Transition GroupLead Input)) (gl : GroupLead) (i : Input) : Prop :=
  ∃ c ∈ closes gl i, c.2.isAction = true ∧
    ∃ p' ∈ gl.proposeData.keys, p' ≠ c.1 ∧ InProgress tr gl i.now p' c.2.actionId

instance : Decidable (ClosesOther tr gl i) :=
  inferInstanceAs (Decidable (∃ c ∈ closes gl i, _))

theorem votedAction_snoc (p : String) (tr : List (Transition GroupLead Input))
    (t : Transition GroupLead Input) :
    votedAction p (tr ++ [t])
      = if Registers p t then proposedAction t.label else votedAction p tr := by
  rw [votedAction, List.foldl_append]
  rfl

/-! ### What a call does to the two tables -/

/-- Everything a call can do to `m_proposeData` and `m_actionData`. -/
inductive ActionStep (gl : GroupLead) : Input → GroupLead → Prop
  | kept {i : Input} {gl' : GroupLead} :
      registration gl i = none → gl'.actionData = gl.actionData →
      (∀ p, ∀ pd' ∈ gl'.proposeData.lookup p,
        ∃ pd ∈ gl.proposeData.lookup p, pd'.proposeDeadline = pd.proposeDeadline) →
      ActionStep gl i gl'
  | value {i : Input} {gl' : GroupLead} {p : String} {nodes : Finset String} {pd : ProposeData} :
      registration gl i = some (p, nodes) → proposedAction i = none →
      gl'.proposeData = gl.proposeData.insert p pd → gl'.actionData = gl.actionData →
      ActionStep gl i gl'
  | action {i : Input} {gl' : GroupLead} {p a : String} {nodes : Finset String}
      {pd : ProposeData} :
      registration gl i = some (p, nodes) → proposedAction i = some a →
      (∀ pa ∈ gl.actionData.lookup a, pa.proposeDeadline.isTimeout i.now) →
      gl'.proposeData = gl.proposeData.insert p pd →
      gl'.actionData = gl.actionData.insert a pd → ActionStep gl i gl'
  | closed {i : Input} {p : String} {pd : ProposeData} :
      closes gl i = some (p, pd) → registration gl i = none →
      ActionStep gl i (gl.eraseProposal p pd)

/-- A call that leaves both tables alone. -/
theorem ActionStep.same (hreg : registration gl i = none)
    (hdata : gl'.proposeData = gl.proposeData) (haction : gl'.actionData = gl.actionData) :
    ActionStep gl i gl' := by
  refine .kept hreg haction fun p pd hpd => ?_
  rw [hdata] at hpd
  exact ⟨pd, hpd, rfl⟩

theorem update_action (gl : GroupLead) (now : ℤ) (known : KnownNodes) :
    ActionStep gl (.update now known) (gl.update now known).1 := by
  rw [update]
  rcases hs : gl.currentState with _ | _ | _
  · simp only
    split
    · simp only [becomeCandidate, changeLeader_eq]
      exact .same rfl rfl rfl
    · exact .same rfl rfl rfl
  · simp only
    split
    · exact .same rfl rfl rfl
    · exact .same rfl rfl rfl
  · simp only
    split
    · exact .same rfl rfl rfl
    · refine .kept rfl rfl fun p pd hpd => ?_
      exact ⟨pd, (Table.lookup_retain.mp hpd).1, rfl⟩

theorem updateMessage_action (gl : GroupLead) (now : ℤ) (timeo : ElectionTimeo)
    (m : LeaderElection) :
    ActionStep gl (.message now timeo m) (gl.updateMessage now timeo m).1 := by
  obtain ⟨hdata, haction, -⟩ := updateMessage_frame gl now timeo m
  exact .same rfl hdata haction

theorem onActionProposeFromClient_action (gl : GroupLead) (now : ℤ) (known : KnownNodes)
    (proposeId : String) (tsca : TimeSyncCoordA) :
    ActionStep gl (.actionPropose now known proposeId tsca)
      (gl.onActionProposeFromClient now known proposeId tsca).1 := by
  rw [onActionProposeFromClient]
  by_cases hl : gl.getLeaderId ≠ gl.componentId
  · rw [if_pos hl]
    exact .same (by rw [registration, if_pos hl]) rfl rfl
  by_cases ha : (gl.actionData.lookup tsca.actionId).any
      (fun pd => ¬ pd.proposeDeadline.isTimeout now)
  · rw [if_neg hl, if_pos ha]
    exact .same (by rw [registration, if_neg hl, if_pos ha]) rfl rfl
  · rw [if_neg hl, if_neg ha]
    refine .action (by rw [registration, if_neg hl, if_neg ha]) rfl ?_ rfl rfl
    intro pa hpa
    rw [Option.mem_def] at hpa
    rw [hpa, Option.any_some] at ha
    show pa.proposeDeadline.isTimeout now
    simpa using ha

theorem onProposeFromClient_action (gl : GroupLead) (now : ℤ) (known : KnownNodes)
    (isAction : Bool) (proposeId : String) (frame : Option Frame) :
    ActionStep gl (.propose now known isAction proposeId frame)
      (gl.onProposeFromClient now known isAction proposeId frame).1 := by
  rw [onProposeFromClient]
  by_cases hl : gl.getLeaderId ≠ gl.componentId
  · rw [if_pos hl]
    exact .same (by rw [registration, if_pos hl]) rfl rfl
  · rw [if_neg hl]
    exact .value (by rw [registration, if_neg hl]) rfl rfl rfl

theorem onVote_action (gl : GroupLead) (now : ℤ) (proposeId : String) (result : VoteResults)
    (source : String) :
    ActionStep gl (.vote now proposeId result source)
      (gl.onVote now proposeId result source).1 := by
  rw [onVote]
  rcases hpd : gl.proposeData.lookup proposeId with _ | pd
  · exact .same rfl rfl rfl
  by_cases hd : pd.proposeDeadline.isTimeout now
  · simp only [hd, if_true]
    exact .closed (by simp [closes, hpd, hd]) rfl
  by_cases hv : source ∉ pd.nodesInVote
  · simp only [hd, hv, if_false, if_true, not_false_eq_true]
    exact .same rfl rfl rfl
  by_cases ha : (pd.count source result).majority ≤ (pd.count source result).accepted.toNat
  · simp only [hd, hv, ha, if_false, if_true]
    exact .closed (by simp [closes, hpd, hd, not_not.mp hv, ha]) rfl
  by_cases hr : (pd.count source result).majority ≤ (pd.count source result).rejected.toNat
  · simp only [hd, hv, ha, hr, if_false, if_true]
    exact .closed (by simp [closes, hpd, hd, not_not.mp hv, hr]) rfl
  · simp only [hd, hv, ha, hr, if_false]
    refine .kept rfl rfl fun p pd' hpd' => ?_
    by_cases hp : p = proposeId
    · subst hp
      rw [Option.mem_def, AList.lookup_insert, Option.some_inj] at hpd'
      exact ⟨pd, hpd, by rw [← hpd', count_proposeDeadline]⟩
    · rw [Option.mem_def, AList.lookup_insert_ne hp] at hpd'
      exact ⟨pd', hpd', rfl⟩

theorem step_action (gl : GroupLead) (i : Input) : ActionStep gl i (gl.step i).1 := by
  cases i with
  | update now known => exact update_action gl now known
  | message now timeo m => exact updateMessage_action gl now timeo m
  | actionPropose now known proposeId tsca =>
    exact onActionProposeFromClient_action gl now known proposeId tsca
  | propose now known isAction proposeId frame =>
    exact onProposeFromClient_action gl now known isAction proposeId frame
  | vote now proposeId result source => exact onVote_action gl now proposeId result source

/-! ### The index backs the votes in progress -/

/-- Every proposal in progress at `now` is backed by the index, and it is the
only one for its action. -/
structure Indexed (tr : List (Transition GroupLead Input)) (gl : GroupLead) (now : ℤ) :
    Prop where
  backed : ∀ p a, votedAction p tr = some a → ∀ pd ∈ gl.proposeData.lookup p,
    now ≤ pd.proposeDeadline.endPoint → ∃ pa ∈ gl.actionData.lookup a,
      pd.proposeDeadline.endPoint ≤ pa.proposeDeadline.endPoint
  unique : ∀ p p' a, InProgress tr gl now p a → InProgress tr gl now p' a → p = p'

theorem InProgress.earlier {now' : ℤ} (h : InProgress tr gl now' p a) (hle : now ≤ now') :
    InProgress tr gl now p a := by
  obtain ⟨hvoted, pd, hpd, htime⟩ := h
  refine ⟨hvoted, pd, hpd, ?_⟩
  rw [Timeout.isTimeout_iff] at htime ⊢
  omega

theorem Indexed.later {now' : ℤ} (h : Indexed tr gl now) (hle : now ≤ now') :
    Indexed tr gl now' := by
  constructor
  · intro p a hvoted pd hpd htime
    exact h.backed p a hvoted pd hpd (by omega)
  · intro p p' a hp hp'
    exact h.unique p p' a (hp.earlier hle) (hp'.earlier hle)

/-- When the index has nothing in time for `a`, no proposal for `a` is in
progress. -/
theorem Indexed.not_inProgress (h : Indexed tr gl now)
    (hindex : ∀ pa ∈ gl.actionData.lookup a, pa.proposeDeadline.isTimeout now) :
    ¬ InProgress tr gl now p a := by
  rintro ⟨hvoted, pd, hpd, htime⟩
  rw [Timeout.isTimeout_iff, not_lt] at htime
  obtain ⟨pa, hpa, hle⟩ := h.backed p a hvoted pd hpd htime
  have hexpired := hindex pa hpa
  rw [Timeout.isTimeout_iff] at hexpired
  omega

/-- A step that adds no proposal in progress and keeps the index where one is
keeps the invariant. -/
theorem Indexed.mono {tr' : List (Transition GroupLead Input)} (h : Indexed tr gl now)
    (hback : ∀ p a, votedAction p tr' = some a → ∀ pd' ∈ gl'.proposeData.lookup p,
      now ≤ pd'.proposeDeadline.endPoint →
        votedAction p tr = some a ∧ gl'.actionData.lookup a = gl.actionData.lookup a ∧
          ∃ pd ∈ gl.proposeData.lookup p, pd'.proposeDeadline = pd.proposeDeadline) :
    Indexed tr' gl' now := by
  constructor
  · intro p a hvoted pd' hpd' htime
    obtain ⟨hvoted', haction, pd, hpd, hdl⟩ := hback p a hvoted pd' hpd' htime
    rw [haction, hdl]
    rw [hdl] at htime
    exact h.backed p a hvoted' pd hpd htime
  · have hbefore : ∀ p a, InProgress tr' gl' now p a → InProgress tr gl now p a := by
      rintro p a ⟨hvoted, pd', hpd', htime⟩
      obtain ⟨hvoted', -, pd, hpd, hdl⟩ := hback p a hvoted pd' hpd' (not_lt.mp htime)
      rw [hdl] at htime
      exact ⟨hvoted', pd, hpd, htime⟩
    intro p p' a hp hp'
    exact h.unique p p' a (hbefore p a hp) (hbefore p' a hp')

/-- Registering a proposal for an action of which the index has nothing in
time. -/
theorem Indexed.action {q b : String} {nodes : Finset String} {pd : ProposeData}
    (h : Indexed tr gl i.now) (hreg : registration gl i = some (q, nodes))
    (hact : proposedAction i = some b)
    (hguard : ∀ pa ∈ gl.actionData.lookup b, pa.proposeDeadline.isTimeout i.now)
    (hdata : gl'.proposeData = gl.proposeData.insert q pd)
    (haction : gl'.actionData = gl.actionData.insert b pd) :
    Indexed (tr ++ [⟨gl, i, gl'⟩]) gl' i.now := by
  -- what is voted on now: the new proposal, or an old one of another action
  have hold : ∀ p a, votedAction p (tr ++ [⟨gl, i, gl'⟩]) = some a → p ≠ q →
      votedAction p tr = some a := by
    intro p a hvoted hp
    rwa [votedAction_snoc, if_neg fun hr => hp ((registers_iff hreg).mp hr).symm] at hvoted
  have hnew : ∀ a, votedAction q (tr ++ [⟨gl, i, gl'⟩]) = some a → a = b := by
    intro a hvoted
    rw [votedAction_snoc, if_pos ((registers_iff hreg).mpr rfl), hact] at hvoted
    exact (Option.some_inj.mp hvoted).symm
  have hother : ∀ p a, InProgress (tr ++ [⟨gl, i, gl'⟩]) gl' i.now p a → p ≠ q →
      InProgress tr gl i.now p a := by
    rintro p a ⟨hvoted, pd', hpd', htime⟩ hp
    rw [hdata, AList.lookup_insert_ne hp] at hpd'
    exact ⟨hold p a hvoted hp, pd', hpd', htime⟩
  have hnone : ∀ p, p ≠ q → ¬ InProgress (tr ++ [⟨gl, i, gl'⟩]) gl' i.now p b := by
    intro p hp hin
    exact h.not_inProgress hguard (hother p b hin hp)
  constructor
  · intro p a hvoted pd' hpd' htime
    by_cases hp : p = q
    · subst hp
      obtain rfl := hnew a hvoted
      rw [hdata, Option.mem_def, AList.lookup_insert, Option.some_inj] at hpd'
      subst hpd'
      exact ⟨pd, by rw [haction, Option.mem_def, AList.lookup_insert], le_refl _⟩
    · have ha : a ≠ b := by
        rintro rfl
        exact hnone p hp ⟨hvoted, pd', hpd', not_lt.mpr htime⟩
      rw [hdata, AList.lookup_insert_ne hp] at hpd'
      rw [haction, AList.lookup_insert_ne ha]
      exact h.backed p a (hold p a hvoted hp) pd' hpd' htime
  · intro p p' a hin hin'
    by_cases hp : p = q <;> by_cases hp' : p' = q
    · rw [hp, hp']
    · subst hp
      obtain rfl := hnew a hin.1
      exact absurd hin' (hnone p' hp')
    · subst hp'
      obtain rfl := hnew a hin'.1
      exact absurd hin (hnone p hp)
    · exact h.unique p p' a (hother p a hin hp) (hother p' a hin' hp')

/-- Closing a proposal, where the index entry that is erased by name backs no
other. -/
theorem Indexed.closed {q : String} {pd : ProposeData} (h : Indexed tr gl i.now)
    (hclose : closes gl i = some (q, pd)) (hreg : registration gl i = none)
    (hcl : ¬ ClosesOther tr gl i) :
    Indexed (tr ++ [⟨gl, i, gl.eraseProposal q pd⟩]) (gl.eraseProposal q pd) i.now := by
  refine h.mono fun p a hvoted pd' hpd' htime => ?_
  rw [votedAction_snoc, if_neg (not_registers hreg)] at hvoted
  obtain ⟨hp, hlook⟩ := Table.lookup_erase.mp hpd'
  refine ⟨hvoted, ?_, pd', hlook, rfl⟩
  by_cases hact : pd.isAction = true
  · -- erased by name: not the name of a vote in progress
    have ha : a ≠ pd.actionId := by
      rintro rfl
      refine hcl ⟨(q, pd), hclose, hact, p, ?_, hp, hvoted, pd', hlook, not_lt.mpr htime⟩
      exact AList.mem_keys.mpr (Table.mem_iff_lookup.mpr ⟨pd', hlook⟩)
    simp only [eraseProposal, hact, if_true]
    exact AList.lookup_erase_ne ha
  · simp [eraseProposal, hact]

/-- **One call.** -/
theorem Indexed.step (h : Indexed tr gl i.now) (hcl : ¬ ClosesOther tr gl i)
    (hs : ActionStep gl i gl') : Indexed (tr ++ [⟨gl, i, gl'⟩]) gl' i.now := by
  cases hs with
  | kept hreg haction hdata =>
    refine h.mono fun p a hvoted pd' hpd' _ => ?_
    rw [votedAction_snoc, if_neg (not_registers hreg)] at hvoted
    exact ⟨hvoted, by rw [haction], hdata p pd' hpd'⟩
  | @value _ q nodes pd hreg hval hdata haction =>
    refine h.mono fun p a hvoted pd' hpd' _ => ?_
    rw [votedAction_snoc] at hvoted
    by_cases hq : q = p
    · rw [if_pos ((registers_iff hreg).mpr hq), hval] at hvoted
      simp at hvoted
    · rw [if_neg fun hr => hq ((registers_iff hreg).mp hr)] at hvoted
      rw [hdata, AList.lookup_insert_ne (Ne.symm hq)] at hpd'
      exact ⟨hvoted, by rw [haction], pd', hpd', rfl⟩
  | action hreg hact hguard hdata haction => exact h.action hreg hact hguard hdata haction
  | closed hclose hreg => exact h.closed hclose hreg hcl

/-- **Whole runs.** -/
theorem indexed_run {id : ComponentUuid} {start : ℤ} {timeo : ElectionTimeo}
    (h : Run next (init id start timeo) tr s) (hclock : ClockFrom Input.now start tr)
    (hcl : Along (fun past t => ¬ ClosesOther past t.pre t.label) tr)
    (hnow : ∀ t ∈ tr, t.label.now ≤ now) : Indexed tr s now := by
  induction h generalizing now with
  | nil => exact ⟨by simp [votedAction], by simp [InProgress, votedAction]⟩
  | @snoc tr s s' l _ hs ih =>
    rw [along_snoc] at hcl
    have hbefore : Indexed tr s l.now :=
      ih hclock.left hcl.1 fun t ht => hclock.le_of_split ht
    have hafter : Indexed (tr ++ [⟨s, l, s'⟩]) s' l.now := by
      refine hbefore.step hcl.2 ?_
      rw [next_eq_some.mp hs]
      exact step_action s l
    exact hafter.later (hnow ⟨s, l, s'⟩ (by simp))

/-- **One vote in progress per action.**  In a run in which no vote closes a
proposal while another one for the action in its record is in progress, at most
one proposal for each action is in progress, at the time of the last call and
later. -/
theorem one_vote_per_action {id : ComponentUuid} {start : ℤ} {timeo : ElectionTimeo}
    (h : Run next (init id start timeo) tr s) (hclock : ClockFrom Input.now start tr)
    (hcl : Along (fun past t => ¬ ClosesOther past t.pre t.label) tr)
    (hnow : ∀ t ∈ tr, t.label.now ≤ now) :
    ∀ a p p', InProgress tr s now p a → InProgress tr s now p' a → p = p' :=
  fun a p p' hp hp' => (indexed_run h hclock hcl hnow).unique p p' a hp hp'

/-- The elected `a` starts a vote on the action `x` and, once its deadline has
passed and before it is swept out, a second one. -/
def supersededInputs : List Input :=
  let known := (∅ : KnownNodes).insert "b" (.ofCount 0 11000)
  electedInputs ++
    [.actionPropose (220 * milliseconds) known "p" ⟨"x", {}⟩,
      .actionPropose (1221 * milliseconds) known "q" ⟨"x", {}⟩]

/-- The expired proposal is swept out before a vote on it comes. -/
theorem one_vote_per_action_swept :
    ∃ tr s, Run next (init compA 0 shortTimeo) tr s ∧
      InProgress tr s (1231 * milliseconds) "q" "x" ∧
      ∀ a p p', InProgress tr s (1231 * milliseconds) p a →
        InProgress tr s (1231 * milliseconds) p' a → p = p' := by
  obtain ⟨tr, s, hrun, hclock, hcl, hnow, hq⟩ :=
    exists_run_of_replay next (init compA 0 shortTimeo)
      (fun tr s =>
        ClockFrom Input.now 0 tr ∧ Along (fun past t => ¬ ClosesOther past t.pre t.label) tr ∧
          (∀ t ∈ tr, t.label.now ≤ 1231 * milliseconds) ∧
          InProgress tr s (1231 * milliseconds) "q" "x")
      (supersededInputs ++
        [.update (1225 * milliseconds) ∅, .update (1226 * milliseconds) ∅,
        .vote (1230 * milliseconds) "p" .accepted "b",
        .actionPropose (1231 * milliseconds) ∅ "r" ⟨"x", {}⟩]) (by decide)
  exact ⟨tr, s, hrun, hq, one_vote_per_action hrun hclock hcl hnow⟩

/-- A late vote on the expired proposal erases the entry of the second one, and
a third is registered beside it. -/
theorem two_votes_on_one_action :
    ∃ tr s, Run next (init compA 0 shortTimeo) tr s ∧ ClockFrom Input.now 0 tr ∧
      (proposeIds tr).Nodup ∧ (∀ t ∈ tr, t.label.now ≤ 1231 * milliseconds) ∧
      InProgress tr s (1231 * milliseconds) "q" "x" ∧
      InProgress tr s (1231 * milliseconds) "r" "x" :=
  exists_run_of_replay next (init compA 0 shortTimeo)
    (fun tr s =>
      ClockFrom Input.now 0 tr ∧ (proposeIds tr).Nodup ∧
        (∀ t ∈ tr, t.label.now ≤ 1231 * milliseconds) ∧
        InProgress tr s (1231 * milliseconds) "q" "x" ∧
        InProgress tr s (1231 * milliseconds) "r" "x")
    (supersededInputs ++
      [.vote (1230 * milliseconds) "p" .accepted "b",
        .actionPropose (1231 * milliseconds) ∅ "r" ⟨"x", {}⟩]) (by decide)

end GroupLead

end Riaps
