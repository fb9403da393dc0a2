/-
A whole group: its components and the messages between them.

Every member runs a `Group`; whatever it publishes on the internal port is
broadcast to all, over channels that keep the order of one sender's messages
and may lose any of them.  A step is a call at one member, the delivery of the
oldest message of a channel, or a loss; a run is any interleaving of these.

What the later files use of it:
* `run_lead` — what one component sees of a run is a run of its `GroupLead`;
* `sent_of_mem_chan`, `sent_of_receive` — a message in flight, and hence a
  message received, was sent by the component whose channel it is in;
* `Sent.lead` — messages of elections and decisions were sent by a call of the
  sender's `GroupLead`.
-/
import RiapsCore.Runs
import RiapsCore.Channels
import RiapsCore.GroupSteps
import RiapsCore.ElectionSteps

open Runs

namespace Riaps

/-- The state of a group: each component's own state, and what is in flight. -/
structure GroupNet where
  node : ComponentUuid → Group
  chan : Channels ComponentUuid GroupMsg

namespace GroupNet

/-- What can happen next in a group. -/
inductive Label where
  | act (c : ComponentUuid) (call : Group.Call)
  | deliver (src dst : ComponentUuid) (now : ℤ) (draws : Draws)
  | lose (src dst : ComponentUuid) (k : ℕ)

/-- `c` handles the event `e`; `chan` are the channels without the message that
`e` may have received. -/
def handle (s : GroupNet) (c : ComponentUuid) (e : Group.Event)
    (chan : Channels ComponentUuid GroupMsg) : Option GroupNet :=
  ((s.node c).step e).map fun r =>
    ⟨Function.update s.node c r.1, chan.broadcast c r.2.sent⟩

/-- One step of a group with the given members. -/
def step (members : Finset ComponentUuid) (s : GroupNet) : Label → Option GroupNet
  | .act c call => if c ∈ members then s.handle c (.call call) s.chan else none
  | .deliver src dst now draws =>
    if src ∈ members ∧ dst ∈ members then
      match s.chan src dst with
      | [] => none
      -- the oldest message first: one sender's messages keep their order
      | m :: _ => s.handle dst (.receive now draws m) (s.chan.remove src dst 0)
    else none
  | .lose src dst k => some { s with chan := s.chan.remove src dst k }

/-- The election and consensus state of one component. -/
def lead (c : ComponentUuid) (s : GroupNet) : GroupLead := (s.node c).groupLeader

/-- Every `GroupLead` is newly constructed and nothing is in flight.  The
membership tables may have any contents. -/
structure Initial (s : GroupNet) : Prop where
  lead : ∀ c, ∃ now timeo, lead c s = GroupLead.init c now timeo
  chan : s.chan = Channels.empty

/-- Who handles what in a step. -/
def eventOf (s : GroupNet) : Label → Option (ComponentUuid × Group.Event)
  | .act c call => some (c, .call call)
  | .deliver src dst now draws =>
    (s.chan src dst).head?.map fun m => (dst, .receive now draws m)
  | .lose _ _ _ => none

/-- What a step looks like to one component. -/
def view (c : ComponentUuid) (s : GroupNet) (l : Label) : Option Group.Event :=
  (eventOf s l).bind fun r => if r.1 = c then some r.2 else none

/-- What a step looks like to the `GroupLead` of one component. -/
def leadView (c : ComponentUuid) (s : GroupNet) (l : Label) : Option GroupLead.Input :=
  (view c s l).bind (s.node c).leadInput

/-- The messages that a step sends. -/
def outputs (s : GroupNet) (l : Label) : List GroupMsg :=
  match eventOf s l with
  | none => []
  | some (c, e) => (((s.node c).step e).map fun r => r.2.sent).getD []

/-- The calls that a component's `GroupLead` has seen along a run. -/
def leadTrace (c : ComponentUuid) (tr : List (Transition GroupNet Label)) :
    List (Transition GroupLead GroupLead.Input) :=
  project (lead c) (leadView c) tr

/-- The component `c` has sent the message `m`. -/
def Sent (tr : List (Transition GroupNet Label)) (c : ComponentUuid) (m : GroupMsg) : Prop :=
  ∃ t ∈ tr, (view c t.pre t.label).isSome ∧ m ∈ outputs t.pre t.label

/-! ### One step -/

variable {members : Finset ComponentUuid} {s s' s₀ : GroupNet} {l : Label} {c : ComponentUuid}
  {tr : List (Transition GroupNet Label)} {m : GroupMsg}

/-- Everything that a step can do. -/
inductive Step (members : Finset ComponentUuid) (s : GroupNet) : Label → GroupNet → Prop
  | acted {c : ComponentUuid} {call : Group.Call} {g : Group} {eff : Effects} :
      c ∈ members → (s.node c).step (.call call) = some (g, eff) →
      Step members s (.act c call) ⟨Function.update s.node c g, s.chan.broadcast c eff.sent⟩
  | delivered {src dst : ComponentUuid} {now : ℤ} {draws : Draws} {m : GroupMsg}
      {rest : List GroupMsg} {g : Group} {eff : Effects} :
      src ∈ members → dst ∈ members → s.chan src dst = m :: rest →
      (s.node dst).step (.receive now draws m) = some (g, eff) →
      Step members s (.deliver src dst now draws)
        ⟨Function.update s.node dst g, (s.chan.remove src dst 0).broadcast dst eff.sent⟩
  | lost {src dst : ComponentUuid} {k : ℕ} :
      Step members s (.lose src dst k) { s with chan := s.chan.remove src dst k }

theorem step_cases (h : step members s l = some s') : Step members s l s' := by
  cases l with
  | act c call =>
    rw [step] at h
    by_cases hc : c ∈ members
    · rw [if_pos hc] at h
      obtain ⟨⟨g, eff⟩, hg, rfl⟩ := Option.map_eq_some_iff.mp h
      exact .acted hc hg
    · rw [if_neg hc] at h
      simp at h
  | deliver src dst now draws =>
    rw [step] at h
    by_cases hc : src ∈ members ∧ dst ∈ members
    · rw [if_pos hc] at h
      rcases hch : s.chan src dst with _ | ⟨m, rest⟩
      · simp [hch] at h
      · rw [hch] at h
        obtain ⟨⟨g, eff⟩, hg, rfl⟩ := Option.map_eq_some_iff.mp h
        exact .delivered hc.1 hc.2 hch hg
    · rw [if_neg hc] at h
      simp at h
  | lose src dst k =>
    obtain rfl := Option.some.inj h
    exact .lost

/-- A step in which somebody handles an event: who, which, and with what
effect. -/
theorem step_of_eventOf {e : Group.Event} (h : step members s l = some s')
    (he : eventOf s l = some (c, e)) :
    c ∈ members ∧ ∃ eff, (s.node c).step e = some (s'.node c, eff) ∧
      outputs s l = eff.sent ∧ ∀ c', c' ≠ c → s'.node c' = s.node c' := by
  have hout : outputs s l = (((s.node c).step e).map fun r => r.2.sent).getD [] := by
    rw [outputs, he]
  cases step_cases h with
  | @acted c' call g eff hc hg =>
    obtain ⟨rfl, rfl⟩ := Prod.mk.inj (Option.some.inj he)
    refine ⟨hc, eff, ?_, ?_, fun c' hne => Function.update_of_ne hne _ _⟩
    · simpa using hg
    · simpa [hg] using hout
  | @delivered src dst now draws m rest g eff _ hc hch hg =>
    rw [eventOf, hch] at he
    obtain ⟨rfl, rfl⟩ := Prod.mk.inj (Option.some.inj he)
    refine ⟨hc, eff, ?_, ?_, fun c' hne => Function.update_of_ne hne _ _⟩
    · simpa using hg
    · simpa [hg] using hout
  | lost => simp [eventOf] at he

theorem view_eq_some {e : Group.Event} : view c s l = some e ↔ eventOf s l = some (c, e) := by
  rw [view]
  constructor
  · intro h
    obtain ⟨⟨c', e'⟩, he, hif⟩ := Option.bind_eq_some_iff.mp h
    by_cases hc : c' = c
    · rw [if_pos hc, Option.some_inj] at hif
      rw [he, hc, ← hif]
    · rw [if_neg hc] at hif
      simp at hif
  · intro h
    simp [h]

theorem eventOf_eq_call {call : Group.Call} (h : eventOf s l = some (c, .call call)) :
    l = .act c call := by
  cases l with
  | act c' call' =>
    obtain ⟨rfl, heq⟩ := Prod.mk.inj (Option.some.inj h)
    rw [Group.Event.call.inj heq]
  | deliver src dst now draws => simp [eventOf] at h
  | lose src dst k => simp [eventOf] at h

/-- Who sees nothing of a step is not changed by it. -/
theorem node_of_view_none (h : step members s l = some s') (hv : view c s l = none) :
    s'.node c = s.node c := by
  rcases he : eventOf s l with _ | ⟨c', e⟩
  · cases step_cases h with
    | acted => simp [eventOf] at he
    | delivered _ _ hch => simp [eventOf, hch] at he
    | lost => rfl
  · obtain ⟨-, eff, -, -, hother⟩ := step_of_eventOf h he
    refine hother c fun hc => ?_
    rw [view, he] at hv
    simp [hc] at hv

/-- A component at whose `GroupLead` no call arrives keeps it as it is. -/
theorem lead_of_leadView_none (h : step members s l = some s') (hv : leadView c s l = none) :
    lead c s' = lead c s := by
  rcases he : view c s l with _ | e
  · rw [lead, lead, node_of_view_none h he]
  · obtain ⟨-, eff, hg, -, -⟩ := step_of_eventOf h (view_eq_some.mp he)
    rw [leadView, he] at hv
    rcases Group.step_lead hg with ⟨i, hi, -, -⟩ | ⟨-, haside⟩
    · rw [Option.bind_some, hi] at hv
      simp at hv
    · exact haside.groupLeader

/-- A call that arrives at a `GroupLead` is performed there, and its messages
are what the step sends. -/
theorem lead_of_leadView {i : GroupLead.Input} (h : step members s l = some s')
    (hv : leadView c s l = some i) :
    lead c s' = ((lead c s).step i).1 ∧ outputs s l = ((lead c s).step i).2 := by
  obtain ⟨e, he, hi⟩ := Option.bind_eq_some_iff.mp hv
  obtain ⟨-, eff, hg, hout, -⟩ := step_of_eventOf h (view_eq_some.mp he)
  rcases Group.step_lead hg with ⟨i', hi', hlead, hsent⟩ | ⟨hnone, -⟩
  · rw [hi, Option.some_inj] at hi'
    subst hi'
    exact ⟨hlead, hout.trans hsent⟩
  · rw [hi] at hnone
    simp at hnone

/-- A step leaves the `GroupLead` of a component alone or is one of the election
steps there. -/
theorem lead_election (h : step members s l = some s') (c : ComponentUuid) :
    lead c s' = lead c s ∨
      ∃ i, leadView c s l = some i ∧
        GroupLead.ElectionStep (lead c s) i (lead c s') (outputs s l) := by
  rcases hv : leadView c s l with _ | i
  · exact .inl (lead_of_leadView_none h hv)
  · obtain ⟨hlead, hout⟩ := lead_of_leadView h hv
    right
    refine ⟨i, rfl, ?_⟩
    rw [hlead, hout]
    exact GroupLead.step_election (lead c s) i

/-! ### Whole runs -/

/-- **What one component sees of a run is a run of its `GroupLead`.** -/
theorem run_lead (h : Run (step members) s₀ tr s) (c : ComponentUuid) :
    Run GroupLead.next (lead c s₀) (leadTrace c tr) (lead c s) := by
  refine h.project (fun s l s' i hs hv => ?_) fun s l s' hs hv => lead_of_leadView_none hs hv
  exact GroupLead.next_eq_some.mpr (lead_of_leadView hs hv).1

theorem step_chan (h : step members s l = some s') {a b : ComponentUuid}
    (hm : m ∈ s'.chan a b) :
    m ∈ s.chan a b ∨ (view a s l).isSome ∧ m ∈ outputs s l := by
  rcases he : eventOf s l with _ | ⟨c, e⟩
  · cases step_cases h with
    | acted => simp [eventOf] at he
    | delivered _ _ hch => simp [eventOf, hch] at he
    | lost => exact .inl (Channels.mem_of_mem_remove hm)
  · -- what is new in a channel of `a` was sent by `a` in this step
    have hsent : a = c → (view a s l).isSome := by
      rintro rfl
      rw [view_eq_some.mpr he]
      rfl
    cases step_cases h with
    | @acted c' call g eff hc hg =>
      obtain ⟨rfl, rfl⟩ := Prod.mk.inj (Option.some.inj he)
      rcases Channels.mem_broadcast.mp hm with hold | ⟨ha, hnew⟩
      · exact .inl hold
      · exact .inr ⟨hsent ha, by simpa [outputs, he, hg] using hnew⟩
    | @delivered src dst now draws m' rest g eff _ hc hch hg =>
      have he' := he
      rw [eventOf, hch] at he'
      obtain ⟨rfl, rfl⟩ := Prod.mk.inj (Option.some.inj he')
      rcases Channels.mem_broadcast.mp hm with hold | ⟨ha, hnew⟩
      · exact .inl (Channels.mem_of_mem_remove hold)
      · exact .inr ⟨hsent ha, by simpa [outputs, he, hg] using hnew⟩
    | lost => simp [eventOf] at he

theorem Sent.mono (h : Sent tr c m) (tr' : List (Transition GroupNet Label)) :
    Sent (tr ++ tr') c m := by
  obtain ⟨t, ht, hv, hm⟩ := h
  exact ⟨t, List.mem_append_left _ ht, hv, hm⟩

/-- **A message in flight was sent by the owner of the channel.** -/
theorem sent_of_mem_chan (h₀ : Initial s₀) (h : Run (step members) s₀ tr s)
    {a b : ComponentUuid} (hm : m ∈ s.chan a b) : Sent tr a m := by
  induction h with
  | nil =>
    rw [h₀.chan] at hm
    simp [Channels.empty] at hm
  | @snoc tr s s' l _ hs ih =>
    rcases step_chan hs hm with hold | ⟨hv, hnew⟩
    · exact (ih hold).mono _
    · exact ⟨⟨s, l, s'⟩, by simp, hv, hnew⟩

/-- A received message was sent by the component it came from. -/
theorem sent_of_receive (h₀ : Initial s₀) (h : Run (step members) s₀ tr s) {now : ℤ}
    {draws : Draws} (hv : view c s l = some (.receive now draws m)) : ∃ src, Sent tr src m := by
  have he := view_eq_some.mp hv
  cases l with
  | act c' call => simp [eventOf] at he
  | deliver src dst now' draws' =>
    obtain ⟨m', hm', heq⟩ := Option.map_eq_some_iff.mp he
    simp only [Prod.mk.injEq, Group.Event.receive.injEq] at heq
    obtain ⟨-, -, -, rfl⟩ := heq
    exact ⟨src, sent_of_mem_chan h₀ h (List.mem_of_mem_head? hm')⟩
  | lose src dst k => simp [eventOf] at he

/-- Only members send. -/
theorem Sent.mem_members (h : Run (step members) s₀ tr s) (hs : Sent tr c m) : c ∈ members := by
  obtain ⟨t, ht, hv, -⟩ := hs
  obtain ⟨e, he⟩ := Option.isSome_iff_exists.mp hv
  exact (step_of_eventOf (h.step_of_mem ht) (view_eq_some.mp he)).1

/-- **Elections and decisions speak through the `GroupLead`**: such a message
is the output of a call that the sender's `GroupLead` has seen. -/
theorem Sent.lead (h : Run (step members) s₀ tr s) (hs : Sent tr c m)
    (hm : Group.LeadMessage m) :
    ∃ t ∈ tr, ∃ i, leadView c t.pre t.label = some i ∧
      m ∈ ((GroupNet.lead c t.pre).step i).2 := by
  obtain ⟨t, ht, hv, hout⟩ := hs
  obtain ⟨e, he⟩ := Option.isSome_iff_exists.mp hv
  obtain ⟨-, eff, hg, heff, -⟩ := step_of_eventOf (h.step_of_mem ht) (view_eq_some.mp he)
  rw [heff] at hout
  rcases Group.step_lead hg with ⟨i, hi, -, hsent⟩ | ⟨-, haside⟩
  · refine ⟨t, ht, i, ?_, ?_⟩
    · rw [leadView, he, Option.bind_some, hi]
    · rwa [hsent] at hout
  · exact ((haside.sent m hout).not_leadMessage hm).elim

theorem lead_componentId (h₀ : Initial s₀) (h : Run (step members) s₀ tr s)
    (c : ComponentUuid) : (GroupNet.lead c s).componentId = c := by
  induction h with
  | nil =>
    obtain ⟨now, timeo, hinit⟩ := h₀.lead c
    rw [hinit]
    rfl
  | @snoc tr s s' l _ hs ih =>
    rcases hv : leadView c s l with _ | i
    · rw [lead_of_leadView_none hs hv, ih]
    · rw [(lead_of_leadView hs hv).1, GroupLead.step_componentId, ih]

/-! ### A group of three for concrete runs -/

open GroupLead (compA compB compC shortTimeo)

/-- The members. -/
def trio : Finset ComponentUuid := {compA, compB, compC}

/-- The other two members. -/
def peers (c : ComponentUuid) : List String :=
  ["a", "b", "c"].filter (· ≠ c)

/-- First election timeouts of 150, 200 and 250 ms. -/
def firstTimeo (c : ComponentUuid) : ElectionTimeo :=
  if c = compA then shortTimeo else if c = compB then ⟨200, by decide⟩ else ⟨250, by decide⟩

/-- The group at time 0, when `c` has heard from the components `known c`. -/
def startTrio (known : ComponentUuid → List String) : GroupNet where
  node c := { Group.initGroup c 0 (firstTimeo c) true [] with
    knownNodes := (known c).foldl (fun table id => table.insert id (Timeout.ofCount 0 20000)) ∅ }
  chan := Channels.empty

theorem initial_startTrio (known : ComponentUuid → List String) : Initial (startTrio known) :=
  ⟨fun c => ⟨0, firstTimeo c, rfl⟩, rfl⟩

/-- `c` finds no message at the given millisecond. -/
def pollAt (c : ComponentUuid) (time : ℤ) : Label := .act c (.poll (time * milliseconds))

/-- The oldest message from `src` reaches `dst` at the given millisecond. -/
def deliverAt (src dst : ComponentUuid) (time : ℤ) : Label :=
  .deliver src dst (time * milliseconds) ⟨shortTimeo, shortNodeTimeo, false⟩

end GroupNet

end Riaps
