/-
What an answer of the validator means.

An entry becomes validated by a verified reply only, stops being so when the
node is asked to identify itself again, and is dropped or asked again once its
check period is over.  The period is at most sixty seconds and starts with the
request:

* `Run.since` at the validated entry gives the reply that has validated it;
* `checkPeriod_le` — the check period of an entry ends at most sixty seconds
  after the latest call;
* `isValid_genuine` — an address is valid only after a verified reply since the
  last request, at most sixty seconds ago.
-/
import RiapsCore.Validator

open Runs

namespace Riaps

namespace DiscoveryValidator

variable {env : ValidatorEnv} {v v' s : DiscoveryValidator} {l : Timed} {a : String}
  {now now₀ : ℤ} {draw : ℕ} {endpoint : String} {period : CheckPeriod} {node : NodeInfo}
  {tr past : List (Transition DiscoveryValidator Timed)}
  {t : Transition DiscoveryValidator Timed}

/-- The validator holds a validated entry for the address. -/
def Validated (a : String) (v : DiscoveryValidator) : Prop :=
  ∃ node, v.clusterNodes.lookup a = some node ∧ node.validated = true

/-! ### One call -/

/-- A positive answer comes from a validated entry whose check period is not
over. -/
theorem isValid_true {r : IsValidResult} (hsec : v.hasSecurity = true) (hnow : 0 < now)
    (h : v.isValid env now period a = .ok r) (htrue : r.answer = true) :
    r.identifies = false ∧ ∃ node, v.clusterNodes.lookup a = some node ∧
      node.validated = true ∧ ¬ node.checkPeriod.isTimeout now := by
  rcases isValid_cases h with ⟨hno, -⟩ | ⟨-, rfl | rfl⟩
  · rw [hsec] at hno
    cases hno
  · cases htrue
  · rcases checkNode_cases v hnow period a with ⟨node, hnode, hto, hr⟩ | ⟨count, -, hr⟩
    · rw [hr] at htrue ⊢
      exact ⟨rfl, node, hnode, htrue, hto⟩
    · rw [hr] at htrue
      cases htrue

theorem call_of_identifies (h : identifies env v l = some a) :
    ∃ period, l.call = .isValid a period := by
  rcases l with ⟨now, call⟩
  cases call with
  | isValid b period =>
    simp only [identifies] at h
    split at h
    · cases h
    · split at h
      · rw [← Option.some_inj.mp h]
        exact ⟨period, rfl⟩
      · cases h
  | replyAll arrived => cases h

theorem EntryStep.entered (h : EntryStep env a v l v') (hpre : ¬ Validated a v)
    (hpost : Validated a v') :
    verifiedReply env l = some a ∧ ∃ node, v.clusterNodes.lookup a = some node ∧
      v'.clusterNodes.lookup a = some { node with validated := true } := by
  obtain ⟨node', hnode', hval⟩ := hpost
  cases h with
  | kept hsame _ => exact absurd ⟨node', hsame ▸ hnode', hval⟩ hpre
  | dropped hgone _ =>
    rw [hgone] at hnode'
    cases hnode'
  | asked _ hasked _ =>
    rw [hasked, Option.some_inj] at hnode'
    rw [← hnode'] at hval
    cases hval
  | validated hreply hnode hpost _ => exact ⟨hreply, _, hnode, hpost⟩

/-- While an entry is validated, it stays what it is. -/
theorem EntryStep.unchanged (h : EntryStep env a v l v') (hpre : Validated a v)
    (hpost : Validated a v') :
    identifies env v l ≠ some a ∧ v'.clusterNodes.lookup a = v.clusterNodes.lookup a := by
  obtain ⟨node', hnode', hval⟩ := hpost
  cases h with
  | kept hsame hne => exact ⟨hne, hsame⟩
  | dropped hgone _ =>
    rw [hgone] at hnode'
    cases hnode'
  | asked _ hasked _ =>
    rw [hasked, Option.some_inj] at hnode'
    rw [← hnode'] at hval
    cases hval
  | @validated l node v' hreply hnode hpost hne =>
    obtain ⟨old, hold, holdval⟩ := hpre
    rw [hnode, Option.some_inj] at hold
    refine ⟨hne, ?_⟩
    rw [hpost, hnode, hold]
    rcases old with ⟨checkPeriod, validated⟩
    rw [show validated = true from holdval]

theorem next_hasSecurity (h : next env v l = some v') : v'.hasSecurity = v.hasSecurity := by
  rcases l with ⟨now, call⟩
  cases call with
  | isValid b period =>
    rcases hr : v.isValid env now period b with _ | r
    · simp [next, hr] at h
    · obtain rfl : r.validator = v' := by simpa [next, hr] using h
      exact isValid_hasSecurity hr
  | replyAll arrived =>
    obtain rfl := Option.some_inj.mp h
    exact replyAll_hasSecurity env v arrived

/-! ### Runs -/

/-- The check periods end at most sixty seconds after the latest call. -/
theorem checkPeriod_le {bound : ℤ}
    (h : Run (next env) (initWithSecurity env now₀ draw endpoint) tr s)
    (hclock : ∀ t ∈ tr, 0 < t.label.now ∧ t.label.now ≤ bound) (a : String) (node : NodeInfo)
    (hnode : s.clusterNodes.lookup a = some node) :
    node.checkPeriod.endPoint ≤ bound + 60 * seconds := by
  have hinv : ∀ a node, s.clusterNodes.lookup a = some node →
      node.checkPeriod.endPoint ≤ bound + 60 * seconds ∧ node.checkPeriod.timeout ≤ 60 := by
    refine (h.invariant (fun v => ∀ a node, v.clusterNodes.lookup a = some node →
      node.checkPeriod.endPoint ≤ bound + 60 * seconds ∧ node.checkPeriod.timeout ≤ 60)
      (fun _ l => 0 < l.now ∧ l.now ≤ bound) ?_ ?_ hclock).1
    · intro a node hnode
      cases hnode
    · rintro v l v' ⟨hpos, hle⟩ hv hs a node hnode
      cases next_entry hs hpos a with
      | kept hsame _ => exact hv a node (hsame ▸ hnode)
      | dropped hgone _ =>
        rw [hgone] at hnode
        cases hnode
      | @asked now period count _ hcount hasked _ =>
        rw [hasked, Option.some_inj] at hnode
        have hcount60 : count ≤ 60 := by
          rcases hcount with rfl | ⟨old, hold, rfl⟩
          · exact period.2.2
          · exact (hv a old hold).2
        rw [← hnode]
        refine ⟨?_, hcount60⟩
        have hle' : now ≤ bound := hle
        show now + count * seconds ≤ bound + 60 * seconds
        rw [seconds]
        omega
      | @validated _ old _ _ hold hpost _ =>
        rw [hpost, Option.some_inj] at hnode
        rw [← hnode]
        exact hv a old hold
  exact (hinv a node hnode).1

theorem hasSecurity_run (h : Run (next env) (initWithSecurity env now₀ draw endpoint) tr s) :
    s.hasSecurity = true := by
  induction h with
  | nil => rfl
  | snoc _ hs ih => rw [next_hasSecurity hs, ih]

/-- An entry that stays validated stays what it is. -/
theorem lookup_of_validated (h : Run (next env) v tr s) (hpos : ∀ w ∈ tr, 0 < w.label.now)
    (hval : ∀ w ∈ tr, Validated a w.pre ∧ Validated a w.post) :
    s.clusterNodes.lookup a = v.clusterNodes.lookup a := by
  induction h with
  | nil => rfl
  | @snoc tr s s' l _ hs ih =>
    have hlast : (⟨s, l, s'⟩ : Transition DiscoveryValidator Timed) ∈ tr ++ [⟨s, l, s'⟩] :=
      List.mem_append_right _ (List.mem_singleton.mpr rfl)
    have hstep := next_entry hs (hpos _ hlast) a
    rw [(hstep.unchanged (hval _ hlast).1 (hval _ hlast).2).2]
    exact ih (fun w hw => hpos w (List.mem_append_left _ hw))
      fun w hw => hval w (List.mem_append_left _ hw)

/-- Whoever has an entry was asked to identify itself. -/
theorem exists_identifies (h : Run (next env) (initWithSecurity env now₀ draw endpoint) tr s)
    (hpos : ∀ w ∈ tr, 0 < w.label.now) (hnode : s.clusterNodes.lookup a = some node) :
    ∃ w ∈ tr, identifies env w.pre w.label = some a := by
  have hnone : ¬ ∃ node, (initWithSecurity env now₀ draw endpoint).clusterNodes.lookup a
      = some node := by
    rintro ⟨node, hnode⟩
    cases hnode
  obtain ⟨tr₁, w, tr₂, rfl, hpre, hpost, -⟩ :=
    h.since (fun v => ∃ node, v.clusterNodes.lookup a = some node) hnone ⟨node, hnode⟩
  have hmem : w ∈ tr₁ ++ w :: tr₂ := List.mem_append_right _ List.mem_cons_self
  refine ⟨w, hmem, ?_⟩
  obtain ⟨new, hnew⟩ := hpost
  have hstep := next_entry (h.step_of_mem hmem) (hpos w hmem) a
  generalize w.label = l at hstep
  cases hstep with
  | kept hsame _ => exact absurd ⟨new, hsame ▸ hnew⟩ hpre
  | dropped hgone _ =>
    rw [hgone] at hnew
    cases hnew
  | asked _ _ hasks => exact hasks
  | validated _ hold _ _ => exact absurd ⟨_, hold⟩ hpre

/-- A validated entry goes back to a verified reply, and its check period to a
request before the reply. -/
theorem exists_verifiedReply (hnow₀ : 0 < now₀)
    (h : Run (next env) (initWithSecurity env now₀ draw endpoint) past s)
    (hclock : ClockFrom Timed.now now₀ past) (hnode : s.clusterNodes.lookup a = some node)
    (hval : node.validated = true) :
    ∃ past₁ u past₂, past = past₁ ++ u :: past₂ ∧ verifiedReply env u.label = some a ∧
      (∃ w ∈ past₁, identifies env w.pre w.label = some a) ∧
      (∀ w ∈ past₂, identifies env w.pre w.label ≠ some a) ∧
      node.checkPeriod.endPoint ≤ u.label.now + 60 * seconds := by
  have hpos : ∀ w ∈ past, 0 < w.label.now := by
    intro w hw
    exact lt_of_lt_of_le hnow₀ (hclock.start_le hw)
  have hinit : ¬ Validated a (initWithSecurity env now₀ draw endpoint) := by
    rintro ⟨node, hnode, -⟩
    cases hnode
  obtain ⟨past₁, u, past₂, rfl, hpre, hpost, hsince⟩ :=
    h.since (Validated a) hinit ⟨node, hnode, hval⟩
  obtain ⟨hbefore, hs, hafter⟩ := h.at_split
  have hmem : u ∈ past₁ ++ u :: past₂ := List.mem_append_right _ List.mem_cons_self
  have hlater : ∀ w ∈ past₂, w ∈ past₁ ++ u :: past₂ :=
    fun w hw => List.mem_append_right _ (List.mem_cons_of_mem u hw)
  obtain ⟨hreply, old, hold, hnew⟩ := (next_entry hs (hpos u hmem) a).entered hpre hpost
  refine ⟨past₁, u, past₂, rfl, hreply, ?_, ?_, ?_⟩
  · exact exists_identifies hbefore (fun w hw => hpos w (List.mem_append_left _ hw)) hold
  · intro w hw
    have hstep := next_entry (h.step_of_mem (hlater w hw)) (hpos w (hlater w hw)) a
    exact (hstep.unchanged (hsince w hw).1 (hsince w hw).2).1
  · -- the entry has not changed since the reply
    have hsame := lookup_of_validated hafter (fun w hw => hpos w (hlater w hw)) hsince
    rw [hnew, hnode, Option.some_inj] at hsame
    rw [hsame]
    refine checkPeriod_le hbefore (fun w hw => ?_) a old hold
    exact ⟨hpos w (List.mem_append_left _ hw), hclock.le_of_split hw⟩

/-- **Validation is genuine and fresh.**  With security on and at non-decreasing
positive clock times, `IsValid(a)` answers `true` only if a verified reply naming
`a` has been received after the last identify request to `a`, at most sixty
seconds ago.  The answer is `false` on the first call for an address, and when
the check period of its entry is over. -/
theorem isValid_genuine (hnow₀ : 0 < now₀)
    (h : Run (next env) (initWithSecurity env now₀ draw endpoint) (past ++ [t]) s)
    (hclock : ClockFrom Timed.now now₀ (past ++ [t]))
    (hcall : t.label.call = .isValid a period) {r : IsValidResult}
    (hr : t.pre.isValid env t.label.now period a = .ok r) :
    (r.answer = true → ∃ past₁ u past₂, past = past₁ ++ u :: past₂ ∧
      verifiedReply env u.label = some a ∧
      (∃ w ∈ past₁, identifies env w.pre w.label = some a) ∧
      (∀ w ∈ past₂ ++ [t], identifies env w.pre w.label ≠ some a) ∧
      t.label.now - u.label.now ≤ 60 * seconds) ∧
    ((∀ w ∈ past, ∀ p, w.label.call ≠ .isValid a p) → r.answer = false) ∧
    (∀ node, t.pre.clusterNodes.lookup a = some node →
      node.checkPeriod.isTimeout t.label.now → r.answer = false) := by
  obtain ⟨hrun, -, -⟩ := h.last
  have hpos : 0 < t.label.now := lt_of_lt_of_le hnow₀ (hclock.start_le (by simp))
  have htrue : r.answer = true → r.identifies = false ∧
      ∃ node, t.pre.clusterNodes.lookup a = some node ∧ node.validated = true ∧
        ¬ node.checkPeriod.isTimeout t.label.now :=
    isValid_true (hasSecurity_run hrun) hpos hr
  have hgenuine : r.answer = true → ∃ past₁ u past₂, past = past₁ ++ u :: past₂ ∧
      verifiedReply env u.label = some a ∧
      (∃ w ∈ past₁, identifies env w.pre w.label = some a) ∧
      (∀ w ∈ past₂ ++ [t], identifies env w.pre w.label ≠ some a) ∧
      t.label.now - u.label.now ≤ 60 * seconds := by
    intro hanswer
    obtain ⟨hno, node, hnode, hval, hto⟩ := htrue hanswer
    obtain ⟨past₁, u, past₂, rfl, hreply, hasked, hnone, hend⟩ :=
      exists_verifiedReply hnow₀ hrun hclock.left hnode hval
    refine ⟨past₁, u, past₂, rfl, hreply, hasked, ?_, ?_⟩
    · intro w hw
      rcases List.mem_append.mp hw with hw | hw
      · exact hnone w hw
      · rw [List.mem_singleton.mp hw, identifies, hcall]
        simp [hr, hno]
    · rw [Timeout.isTimeout_iff, not_lt] at hto
      omega
  refine ⟨hgenuine, ?_, ?_⟩
  · intro hfirst
    by_contra hanswer
    obtain ⟨past₁, u, past₂, rfl, -, ⟨w, hw, hasked⟩, -⟩ := hgenuine (eq_true_of_ne_false hanswer)
    obtain ⟨p, hp⟩ := call_of_identifies hasked
    exact hfirst w (List.mem_append_left _ hw) p hp
  · intro node hnode hto
    by_contra hanswer
    obtain ⟨-, node', hnode', -, hto'⟩ := htrue (eq_true_of_ne_false hanswer)
    rw [hnode, Option.some_inj] at hnode'
    exact hto' (hnode' ▸ hto)

/-! ### A concrete run -/

/-- The toy key, and an `inet_pton` that knows one address. -/
def toyEnv : ValidatorEnv := ⟨DhtData.toyKey, fun address => address = "10.0.0.2"⟩

/-- The address of another node's validator. -/
def otherNode : String := "tcp://10.0.0.2:5000"

/-- What the other node replies. -/
def otherReply : Arrived := .reply otherNode (DhtData.toyKey.sign 0 (StdString.toBlob otherNode))

/-- The shortest draw. -/
def shortPeriod : CheckPeriod := ⟨45, le_rfl, by decide⟩

/-- A node that has replied is valid. -/
theorem isValid_genuine_reply :
    ∃ past t s, Run (next toyEnv) (initWithSecurity toyEnv 1 0 "tcp://10.0.0.1:5000")
        (past ++ [t]) s ∧
      (∃ r, t.pre.isValid toyEnv t.label.now shortPeriod otherNode = .ok r ∧ r.answer = true) ∧
      ∃ past₁ u past₂, past = past₁ ++ u :: past₂ ∧
        verifiedReply toyEnv u.label = some otherNode ∧
        t.label.now - u.label.now ≤ 60 * seconds := by
  obtain ⟨past, t, rest, s, hrun, hlabel, hrest, hclock, hanswer⟩ :=
    exists_run_split_of_replay (next toyEnv) (initWithSecurity toyEnv 1 0 "tcp://10.0.0.1:5000")
      (fun past t rest =>
        rest.length = 0 ∧ ClockFrom Timed.now 1 (past ++ [t]) ∧
          ((t.pre.isValid toyEnv t.label.now shortPeriod otherNode).toOption.map
            IsValidResult.answer) = some true)
      [⟨1000, .isValid otherNode shortPeriod⟩, ⟨2000, .replyAll otherReply⟩]
      ⟨3000, .isValid otherNode shortPeriod⟩ [] (by decide)
  obtain rfl := List.length_eq_zero_iff.mp hrest
  rcases hr : t.pre.isValid toyEnv t.label.now shortPeriod otherNode with e | r
  · simp [hr, Except.toOption] at hanswer
  · have htrue : r.answer = true := by simpa [hr, Except.toOption] using hanswer
    have hcall : t.label.call = .isValid otherNode shortPeriod := by rw [hlabel]
    obtain ⟨past₁, u, past₂, hpast, hreply, -, -, hfresh⟩ :=
      (isValid_genuine (by decide) hrun hclock hcall hr).1 htrue
    exact ⟨past, t, s, hrun, ⟨r, hr, htrue⟩, past₁, u, past₂, hpast, hreply, hfresh⟩

end DiscoveryValidator

end Riaps
