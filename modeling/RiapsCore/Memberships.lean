/-
Membership follows join and leave.

The functions that change `groups_` find a group through `operator<`, and
`IsMemberOf` compares with `operator==`.  Both see the same keys, because the
order is total (`cmp_eq`); the four observers then agree with the keys:

* `observes_keys` — what the observers say about any group, in any state;
* `membership_iff` — along a run, the keys are the groups last joined, and
  `LeaveGroup` does what it says, iff every call of the rvalue overload of
  `LeaveGroup`, which joins, fails to join.
-/
import RiapsCore.ComponentBase
import RiapsCore.Runs
import Mathlib.Data.String.Basic

open Runs

namespace Riaps

namespace GroupId

/-- Strings compared by `<` alone. -/
theorem ite_lt_eq_compare (a b : String) :
    (if a < b then Ordering.lt else if b < a then .gt else .eq) = compare a b := by
  show _ = compareOfLessAndEq a b
  rw [compareOfLessAndEq]
  rcases lt_trichotomy a b with h | h | h
  · simp [h]
  · simp [h]
  · simp [h, h.ne', h.not_gt]

/-- The order of the map is the lexicographic one on the two fields. -/
theorem cmp_eq : cmp = compareLex (compareOn groupTypeId) (compareOn groupName) := by
  funext a b
  show _ = (compare a.groupTypeId b.groupTypeId).then (compare a.groupName b.groupName)
  rw [cmp, lt, lt, ← ite_lt_eq_compare a.groupTypeId, ← ite_lt_eq_compare a.groupName]
  by_cases h : a.groupTypeId = b.groupTypeId
  · simp [h]
  · rcases lt_or_gt_of_ne h with hlt | hlt
    · simp [h, hlt]
    · simp [h, Ne.symm h, hlt, hlt.not_gt]

instance : Std.TransCmp cmp := by
  rw [cmp_eq]
  infer_instance

/-- Two ids that are the same key are equal. -/
instance : Std.LawfulEqCmp cmp where
  compare_self := Std.ReflCmp.compare_self
  eq_of_compare := by
    intro a b h
    rw [cmp_eq] at h
    obtain ⟨htype, hname⟩ := Ordering.then_eq_eq.mp h
    rcases a with ⟨type, name⟩
    rcases b with ⟨type', name'⟩
    have htype' : type = type' := Std.LawfulEqCmp.eq_of_compare htype
    have hname' : name = name' := Std.LawfulEqCmp.eq_of_compare hname
    rw [htype', hname']

end GroupId

/-- The calls that change the groups of a component; `newGroup` is what
`InitGroup()` gives if the call gets there. -/
inductive MembershipCall where
  | join (groupId : GroupId) (newGroup : Option GroupHandle)
  | joinRvalue (groupId : GroupId) (newGroup : Option GroupHandle)
  | leave (groupId : GroupId)
  | leaveRvalue (groupId : GroupId) (newGroup : Option GroupHandle)

inductive Change where
  | join
  | leave
deriving DecidableEq, Repr

namespace MembershipCall

def groupId : MembershipCall → GroupId
  | .join groupId _ | .joinRvalue groupId _ | .leave groupId | .leaveRvalue groupId _ => groupId

/-- What the call is for, by its name. -/
def change : MembershipCall → Change
  | .join _ _ | .joinRvalue _ _ => .join
  | .leave _ | .leaveRvalue _ _ => .leave

end MembershipCall

namespace ComponentBase

/-- Perform one call: its return value and the new state. -/
def call (c : ComponentBase) : MembershipCall → Bool × ComponentBase
  | .join groupId newGroup => c.joinGroup groupId newGroup
  | .joinRvalue groupId newGroup => c.joinGroupRvalue groupId newGroup
  | .leave groupId => c.leaveGroup groupId
  | .leaveRvalue groupId newGroup => c.leaveGroupRvalue groupId newGroup

/-- The step function of runs of calls: every call is possible. -/
def next (c : ComponentBase) (l : MembershipCall) : Option ComponentBase := some (c.call l).2

/-- The last change of the membership in `g` by a call that returned `true`. -/
def lastChange (g : GroupId) (tr : List (Transition ComponentBase MembershipCall)) :
    Option Change :=
  tr.foldl (fun acc t =>
    if t.label.groupId = g ∧ (t.pre.call t.label).1 = true then some t.label.change else acc) none

/-- The observers all say that the component is a member of the groups in `S`. -/
structure ObservedAs (c : ComponentBase) (S : GroupId → Prop) : Prop where
  isMemberOf : ∀ g, c.isMemberOf g = true ↔ S g
  getGroupMemberships : ∀ g, g ∈ c.getGroupMemberships ↔ S g
  getGroupMembershipsByType : ∀ groupType g,
    g ∈ c.getGroupMembershipsByType groupType ↔ S g ∧ g.groupTypeId = groupType
  getGroupById : ∀ g, (c.getGroupById g).isSome = true ↔ S g

/-- The call `t` after `tr` leaves the component in the groups that were last
joined, and does what its name says when it is a `LeaveGroup`. -/
structure Follows (tr : List (Transition ComponentBase MembershipCall))
    (t : Transition ComponentBase MembershipCall) : Prop where
  keys : ∀ g, g ∈ t.post.groups.keys ↔ lastChange g (tr ++ [t]) = some .join
  returned : t.label.change = .leave →
    ((t.pre.call t.label).1 = true ↔ t.label.groupId ∈ t.pre.groups.keys)
  adds_none : t.label.change = .leave → ∀ g ∈ t.post.groups.keys, g ∈ t.pre.groups.keys
  observed : ObservedAs t.post fun g => lastChange g (tr ++ [t]) = some .join

/-- A call of the rvalue overload of `LeaveGroup` is for a group that the
component is not in and cannot join. -/
def FailsToJoin (c : ComponentBase) : MembershipCall → Prop
  | .leaveRvalue groupId newGroup => groupId ∉ c.groups ∧ newGroup = none
  | _ => True

instance (c : ComponentBase) : ∀ l, Decidable (FailsToJoin c l)
  | .leaveRvalue groupId newGroup =>
    inferInstanceAs (Decidable (groupId ∉ c.groups ∧ newGroup = none))
  | .join _ _ | .joinRvalue _ _ | .leave _ => .isTrue trivial

variable {c : ComponentBase} {l : MembershipCall}
  {tr : List (Transition ComponentBase MembershipCall)}
  {t : Transition ComponentBase MembershipCall}

/-- What the observers say is what the map holds. -/
theorem observes_keys (c : ComponentBase) : ObservedAs c (· ∈ c.groups) where
  isMemberOf g := by
    rw [isMemberOf, List.any_eq_true]
    constructor
    · rintro ⟨g', hg', heq⟩
      rw [← of_decide_eq_true heq]
      exact Std.TreeMap.mem_keys.mp hg'
    · intro hg
      exact ⟨g, Std.TreeMap.mem_keys.mpr hg, decide_eq_true rfl⟩
  getGroupMemberships g := Std.TreeMap.mem_keys
  getGroupMembershipsByType groupType g := by
    rw [getGroupMembershipsByType, List.mem_filter, Std.TreeMap.mem_keys, decide_eq_true_eq]
  getGroupById g := Std.TreeMap.isSome_getElem?_iff_mem

theorem ObservedAs.congr {S S' : GroupId → Prop} (h : ObservedAs c S) (hS : ∀ g, S g ↔ S' g) :
    ObservedAs c S' := by
  have heq : S = S' := funext fun g => propext (hS g)
  rwa [heq] at h

/-! ### One call -/

/-- A call that returns `true` has made the change it is named for, in its own
group, and one that returns `false` has made none. -/
def Effective (c : ComponentBase) (l : MembershipCall) : Prop :=
  if (c.call l).1 = true then
    ∀ g, g ∈ (c.call l).2.groups ↔ if g = l.groupId then l.change = .join else g ∈ c.groups
  else (c.call l).2 = c

theorem joinGroup_effective (c : ComponentBase) (groupId : GroupId)
    (newGroup : Option GroupHandle) :
    Effective c (.join groupId newGroup) := by
  rw [Effective, call, joinGroup.eq_def]
  split
  · rw [if_neg (by simp)]
  · cases newGroup with
    | none => rw [if_neg (by simp)]
    | some group =>
      rw [if_pos rfl]
      intro g
      show g ∈ c.groups.insert groupId group ↔ _
      rw [Std.TreeMap.mem_insert, Std.LawfulEqCmp.compare_eq_iff_eq]
      show _ ↔ if g = groupId then Change.join = Change.join else _
      by_cases hg : g = groupId
      · simp [hg]
      · simp [hg, Ne.symm hg]

theorem leaveGroup_effective (c : ComponentBase) (groupId : GroupId) :
    Effective c (.leave groupId) := by
  rw [Effective, call, leaveGroup]
  split
  · rw [if_pos rfl]
    intro g
    show g ∈ c.groups.erase groupId ↔ _
    rw [Std.TreeMap.mem_erase, ne_eq, Std.LawfulEqCmp.compare_eq_iff_eq]
    show _ ↔ if g = groupId then Change.leave = Change.join else _
    by_cases hg : g = groupId
    · simp [hg]
    · simp [hg, Ne.symm hg]
  · rw [if_neg (by simp)]

/-- A call of the rvalue overload of `LeaveGroup` that fails to join does
nothing. -/
theorem leaveGroupRvalue_idle {groupId : GroupId} {newGroup : Option GroupHandle}
    (h : FailsToJoin c (.leaveRvalue groupId newGroup)) :
    c.call (.leaveRvalue groupId newGroup) = (false, c) := by
  show c.joinGroup groupId newGroup = _
  rw [joinGroup.eq_def, if_neg h.1, h.2]

theorem call_effective (h : FailsToJoin c l) : Effective c l := by
  cases l with
  | join groupId newGroup => exact joinGroup_effective c groupId newGroup
  | joinRvalue groupId newGroup => exact joinGroup_effective c groupId newGroup
  | leave groupId => exact leaveGroup_effective c groupId
  | leaveRvalue groupId newGroup =>
    rw [Effective, leaveGroupRvalue_idle h]
    rw [if_neg (by simp)]

/-- `LeaveGroup` returns whether the component was in the group. -/
theorem leave_returned (h : FailsToJoin c l) (hl : l.change = .leave) :
    (c.call l).1 = true ↔ l.groupId ∈ c.groups := by
  cases l with
  | join groupId newGroup => simp [MembershipCall.change] at hl
  | joinRvalue groupId newGroup => simp [MembershipCall.change] at hl
  | leave groupId =>
    show (c.leaveGroup groupId).1 = true ↔ groupId ∈ c.groups
    rw [leaveGroup]
    split <;> simp [*]
  | leaveRvalue groupId newGroup =>
    rw [leaveGroupRvalue_idle h]
    show false = true ↔ groupId ∈ c.groups
    simpa using h.1

/-- The rvalue overload of `LeaveGroup` returns the opposite when it joins, and
when there is nothing to join. -/
theorem failsToJoin_of_returned (hl : l.change = .leave)
    (h : (c.call l).1 = true ↔ l.groupId ∈ c.groups) : FailsToJoin c l := by
  cases l with
  | leaveRvalue groupId newGroup =>
    have hret : (c.joinGroup groupId newGroup).1 = true ↔ groupId ∈ c.groups := h
    rw [joinGroup.eq_def] at hret
    by_cases hmem : groupId ∈ c.groups
    · simp [hmem] at hret
    · refine ⟨hmem, ?_⟩
      cases newGroup with
      | none => rfl
      | some group => simp [hmem] at hret
  | _ => trivial

/-! ### Runs -/

/-- The keys are the groups last joined. -/
def Tracks (tr : List (Transition ComponentBase MembershipCall)) (c : ComponentBase) : Prop :=
  ∀ g, g ∈ c.groups ↔ lastChange g tr = some .join

theorem lastChange_snoc (g : GroupId) (tr : List (Transition ComponentBase MembershipCall))
    (t : Transition ComponentBase MembershipCall) :
    lastChange g (tr ++ [t])
      = if t.label.groupId = g ∧ (t.pre.call t.label).1 = true then some t.label.change
        else lastChange g tr := by
  rw [lastChange, List.foldl_append]
  rfl

theorem Tracks.snoc (h : Tracks tr t.pre) (hpost : t.post = (t.pre.call t.label).2)
    (heff : Effective t.pre t.label) : Tracks (tr ++ [t]) t.post := by
  intro g
  rw [hpost, lastChange_snoc]
  by_cases hret : (t.pre.call t.label).1 = true
  · rw [Effective, if_pos hret] at heff
    rw [heff g]
    by_cases hg : g = t.label.groupId
    · rw [if_pos hg, if_pos ⟨hg.symm, hret⟩, Option.some_inj]
    · rw [if_neg hg, if_neg fun hand => hg hand.1.symm]
      exact h g
  · rw [Effective, if_neg hret] at heff
    rw [heff, if_neg fun hand => hret hand.2]
    exact h g

theorem follows_iff (h : Tracks tr t.pre) (hs : next t.pre t.label = some t.post) :
    Follows tr t ↔ FailsToJoin t.pre t.label := by
  have hpost : t.post = (t.pre.call t.label).2 := (Option.some_inj.mp hs).symm
  constructor
  · intro hf
    by_cases hl : t.label.change = .leave
    · have hret := hf.returned hl
      rw [Std.TreeMap.mem_keys] at hret
      exact failsToJoin_of_returned hl hret
    · cases hlabel : t.label with
      | leaveRvalue groupId newGroup => simp [hlabel, MembershipCall.change] at hl
      | _ => trivial
  · intro hfail
    have heff := call_effective hfail
    have hpost' : Tracks (tr ++ [t]) t.post := h.snoc hpost heff
    refine ⟨fun g => ?_, fun hl => ?_, fun hl g hg => ?_, ?_⟩
    · rw [Std.TreeMap.mem_keys]
      exact hpost' g
    · rw [Std.TreeMap.mem_keys]
      exact leave_returned hfail hl
    · rw [Std.TreeMap.mem_keys] at hg ⊢
      rw [hpost] at hg
      by_cases hret : (t.pre.call t.label).1 = true
      · rw [Effective, if_pos hret] at heff
        have hg' := (heff g).mp hg
        split at hg'
        · rw [hl] at hg'
          cases hg'
        · exact hg'
      · rw [Effective, if_neg hret] at heff
        rwa [heff] at hg
    · exact (observes_keys t.post).congr hpost'

/-- **Membership follows join and leave** in every call of a run iff no call of
the rvalue overload of `LeaveGroup` is for a group of the component or joins
one. -/
theorem membership_iff {id : ComponentUuid} {s : ComponentBase}
    (h : Run next ⟨id, ∅⟩ tr s) :
    Along Follows tr ↔ Along (fun _ t => FailsToJoin t.pre t.label) tr := by
  refine h.along_iff Tracks ?_ ?_ ?_ (along_of_forall fun _ _ => trivial)
  · intro g
    simp [lastChange]
  · intro tr t hI _ hs
    exact follows_iff hI hs
  · intro tr t hI _ hs hC
    exact hI.snoc (Option.some_inj.mp hs).symm (call_effective hC)

/-- Joining and leaving by the lvalue overloads, and leaving once more. -/
theorem membership_join_leave :
    ∃ tr s, Run next ⟨GroupLead.compA, ∅⟩ tr s ∧ tr.length = 3 ∧ Along Follows tr := by
  obtain ⟨tr, s, hrun, hlen, hfail⟩ :=
    exists_run_of_replay next ⟨GroupLead.compA, ∅⟩
      (fun tr _ => tr.length = 3 ∧ Along (fun _ t => FailsToJoin t.pre t.label) tr)
      [.join ⟨"T", "g"⟩ (some .solo), .leave ⟨"T", "g"⟩, .leaveRvalue ⟨"T", "g"⟩ none]
      (by decide)
  exact ⟨tr, s, hrun, hlen, (membership_iff hrun).mpr hfail⟩

/-- Leaving a joined group by the rvalue overload returns `false` and keeps the
group. -/
theorem leave_rvalue_keeps_group :
    ∃ tr t, Run next ⟨GroupLead.compA, ∅⟩ (tr ++ [t]) t.post ∧
      t.label.change = .leave ∧ t.label.groupId ∈ t.post.groups.keys ∧
      ¬ Along Follows (tr ++ [t]) := by
  obtain ⟨tr, t, hrun, hl, hret, hpre, hpost⟩ :=
    exists_run_snoc_of_replay next ⟨GroupLead.compA, ∅⟩
      (fun _ t =>
        t.label.change = .leave ∧ (t.pre.call t.label).1 = false ∧
          t.label.groupId ∈ t.pre.groups.keys ∧ t.label.groupId ∈ t.post.groups.keys)
      [.join ⟨"T", "g"⟩ (some .solo)] (.leaveRvalue ⟨"T", "g"⟩ none) (by decide)
  refine ⟨tr, t, hrun, hl, hpost, fun halong => ?_⟩
  have hfollows := (along_snoc.mp halong).2
  have htrue := (hfollows.returned hl).mpr hpre
  rw [hret] at htrue
  cases htrue

end ComponentBase

end Riaps
