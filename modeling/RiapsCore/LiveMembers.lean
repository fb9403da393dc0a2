/-
Which members a group counts.

A heartbeat should keep its sender in the membership table for at least the
smallest value of `timeout_distribution_`, 11000 ms.  The first heartbeat of a
component builds a new timeout and does that; a later one goes through
`Timeout::Reset(int64_t)`, which leaves the end point of the stored timeout
alone, so the sender expires when its first heartbeat does.

* `alive_iff` — an entry is counted for the next 11000 ms, whatever else is
  called, iff its end point is that far away;
* `alive_heartBeat_iff` — hence a heartbeat keeps its sender counted iff the
  sender was unknown or its entry lasts that long anyway;
* `heartBeat_alive_iff` — the same for all heartbeats of a run;
* `run_table` — the table of a component in a group goes through such runs, so
  that a first heartbeat keeps its sender counted there (`first_heartBeat_counted`).
-/
import RiapsCore.GroupNet

open Runs

namespace Riaps

namespace KnownNodes

variable {known s : KnownNodes} {c : String} {entry : Timeout milliseconds}

/-- At `now` the component is in `GetKnownComponents()` and is one of the
records `GetMemberCount()` counts. -/
def Counted (known : KnownNodes) (c : String) (now : ℤ) : Prop :=
  c ∈ known.getKnownComponents now ∧ c ∈ (known.getMemberCount now).2

/-- Whatever calls follow the table `known` of time `start`, other than a
heartbeat of `c`, the component `c` is counted until 11000 ms later. -/
def Alive (known : KnownNodes) (c : String) (start : ℤ) : Prop :=
  ∀ tr s, Run next known tr s → ClockFrom Call.now start tr →
    (∀ t ∈ tr, ∀ now timeo, t.label ≠ .heartBeat now timeo c) →
    ∀ now, start ≤ now → (∀ t ∈ tr, t.label.now ≤ now) → now ≤ start + 11000 * milliseconds →
      s.Counted c now

theorem counted_iff {now : ℤ} :
    known.Counted c now ↔ ∃ t, known.lookup c = some t ∧ now ≤ t.endPoint := by
  rw [Counted, mem_getKnownComponents, getMemberCount_snd, and_self, mem_live]

/-- A call before the end point of `c`'s entry keeps the entry, unless it is a
heartbeat of `c`. -/
theorem lookup_call {l : Call} (hc : known.lookup c = some entry)
    (hl : ∀ now timeo, l ≠ .heartBeat now timeo c) (hnow : l.now ≤ entry.endPoint) :
    (known.call l).lookup c = some entry := by
  cases l with
  | heartBeat now timeo source =>
    have hne : c ≠ source := fun h => hl now timeo (by rw [h])
    exact (lookup_heartBeat_ne hne).trans hc
  | getMemberCount now => exact lookup_live.mpr ⟨hc, hnow⟩
  | getKnownComponents now => exact hc

theorem lookup_run {tr : List (Transition KnownNodes Call)} (h : Run next known tr s)
    (hc : known.lookup c = some entry)
    (hl : ∀ t ∈ tr, ∀ now timeo, t.label ≠ .heartBeat now timeo c)
    (hnow : ∀ t ∈ tr, t.label.now ≤ entry.endPoint) : s.lookup c = some entry := by
  induction h with
  | nil => exact hc
  | @snoc tr s s' l _ hs ih =>
    have hlast : (⟨s, l, s'⟩ : Transition KnownNodes Call) ∈ tr ++ [⟨s, l, s'⟩] := by simp
    have hlook := ih (fun t ht => hl t (List.mem_append_left _ ht))
      fun t ht => hnow t (List.mem_append_left _ ht)
    rw [next, Option.some_inj] at hs
    rw [← hs]
    exact lookup_call hlook (hl _ hlast) (hnow _ hlast)

/-- **The end point of the entry decides.** -/
theorem alive_iff (hc : known.lookup c = some entry) (start : ℤ) :
    known.Alive c start ↔ start + 11000 * milliseconds ≤ entry.endPoint := by
  constructor
  · intro halive
    have hclock : ClockFrom Call.now start ([] : List (Transition KnownNodes Call)) := by
      simp [ClockFrom]
    have hms : milliseconds = 1000000 := rfl
    -- look at the table once, at the very end of the 11000 ms
    have hcount := halive [] known .nil hclock (by simp) (start + 11000 * milliseconds)
      (by omega) (by simp) (by omega)
    obtain ⟨t, ht, hle⟩ := counted_iff.mp hcount
    rw [hc, Option.some_inj] at ht
    rwa [ht]
  · -- no call before the end point takes the entry out
    intro hfar tr s hrun _ hl now _ hlast hnow
    have hearly : ∀ t ∈ tr, t.label.now ≤ entry.endPoint := by
      intro t ht
      have := hlast t ht
      omega
    exact counted_iff.mpr ⟨entry, lookup_run hrun hc hl hearly, by omega⟩

/-- After a heartbeat of `c` at `now`, the component `c` is counted for 11000
ms, whatever else is called, iff it was not in the table or the end point of
its entry is that far away. -/
theorem alive_heartBeat_iff (known : KnownNodes) (c : String) (now : ℤ) (timeo : NodeTimeo) :
    (known.heartBeat now timeo c).Alive c now ↔
      ∀ t, known.lookup c = some t → now + 11000 * milliseconds ≤ t.endPoint := by
  have hself := lookup_heartBeat_self known now timeo c
  rcases hc : known.lookup c with _ | t
  · rw [hc] at hself
    rw [alive_iff hself]
    -- a new entry ends at least 11000 ms after `now`
    have htimeo := timeo.property.1
    simp only [Timeout.ofCount_endPoint, milliseconds, reduceCtorEq, false_implies,
      implies_true, iff_true]
    omega
  · rw [hc] at hself
    rw [alive_iff hself]
    simp

/-- **When live members are counted.**  Along a run of calls on an initially
empty table, every heartbeat keeps its sender counted for 11000 ms, whatever
else is called, iff each time the sender was not in the table or its entry
lasted that long anyway. -/
theorem heartBeat_alive_iff {tr : List (Transition KnownNodes Call)} (h : Run next ∅ tr s) :
    (∀ t ∈ tr, ∀ now timeo c, t.label = .heartBeat now timeo c → t.post.Alive c now) ↔
      ∀ t ∈ tr, ∀ now timeo c, t.label = .heartBeat now timeo c →
        ∀ entry, t.pre.lookup c = some entry → now + 11000 * milliseconds ≤ entry.endPoint := by
  have heach : ∀ t ∈ tr, ∀ now timeo c, t.label = .heartBeat now timeo c →
      (t.post.Alive c now ↔ ∀ entry, t.pre.lookup c = some entry →
        now + 11000 * milliseconds ≤ entry.endPoint) := by
    intro t ht now timeo c hl
    have hpost : t.post = t.pre.heartBeat now timeo c := by
      have hs := h.step_of_mem ht
      rw [next, hl, Option.some_inj] at hs
      exact hs.symm
    rw [hpost]
    exact alive_heartBeat_iff t.pre c now timeo
  constructor
  · intro halive t ht now timeo c hl
    exact (heach t ht now timeo c hl).mp (halive t ht now timeo c hl)
  · intro hfar t ht now timeo c hl
    exact (heach t ht now timeo c hl).mpr (hfar t ht now timeo c hl)

/-- A first heartbeat meets the condition. -/
theorem heartBeat_alive_iff_first :
    ∃ tr s timeo, Run next ∅ tr s ∧ (∃ t ∈ tr, t.label = .heartBeat 0 timeo "b") ∧
      ((∀ t ∈ tr, ∀ now timeo c, t.label = .heartBeat now timeo c → t.post.Alive c now) ↔
        ∀ t ∈ tr, ∀ now timeo c, t.label = .heartBeat now timeo c →
          ∀ entry, t.pre.lookup c = some entry →
            now + 11000 * milliseconds ≤ entry.endPoint) := by
  set timeo : NodeTimeo := ⟨11000, by decide⟩
  have hrun := Run.snoc (.nil : Run next ∅ [] _) (l := .heartBeat 0 timeo "b") rfl
  exact ⟨_, _, timeo, hrun, ⟨_, List.mem_singleton.mpr rfl, rfl⟩, heartBeat_alive_iff hrun⟩

/-- `b` sends heartbeats at 0 s and at 10 s; at 12 s it is no longer counted. -/
theorem not_alive_after_second_heartBeat :
    ∃ known : KnownNodes, ∃ timeo : NodeTimeo,
      known = (∅ : KnownNodes).heartBeat 0 timeo "b" ∧
        ¬ (known.heartBeat (10000 * milliseconds) timeo "b").Alive "b" (10000 * milliseconds) ∧
        ¬ (known.heartBeat (10000 * milliseconds) timeo "b").Counted "b"
          (12000 * milliseconds) := by
  set timeo : NodeTimeo := ⟨11000, by decide⟩
  set known : KnownNodes := (∅ : KnownNodes).heartBeat 0 timeo "b"
  -- the entry still has the end point of the first heartbeat
  have hlook : (known.heartBeat (10000 * milliseconds) timeo "b").lookup "b"
      = some (.ofCount 0 11000) := by decide
  refine ⟨known, timeo, rfl, ?_, ?_⟩
  · rw [alive_iff hlook]
    decide
  · rw [counted_iff, hlook]
    rintro ⟨t, ht, hle⟩
    rw [Option.some_inj] at ht
    rw [← ht] at hle
    revert hle
    decide

end KnownNodes

/-! ### The table of a component in a group -/

namespace GroupNet

variable {members : Finset ComponentUuid} {s s₀ : GroupNet} {c : ComponentUuid}
  {tr tr₁ tr₂ : List (Transition GroupNet Label)} {t : Transition GroupNet Label}

/-- The membership table of one component. -/
def table (c : ComponentUuid) (s : GroupNet) : KnownNodes := (s.node c).knownNodes

/-- What a step looks like to the membership table of one component. -/
def tableView (c : ComponentUuid) (s : GroupNet) (l : Label) : Option KnownNodes.Call :=
  (view c s l).bind (s.node c).tableCall

/-- The calls that a component's table has seen along a run. -/
def tableTrace (c : ComponentUuid) (tr : List (Transition GroupNet Label)) :
    List (Transition KnownNodes KnownNodes.Call) :=
  project (table c) (tableView c) tr

/-- **What the table of one component sees of a run is a run of calls on it.** -/
theorem run_table (h : Run (step members) s₀ tr s) (c : ComponentUuid) :
    Run KnownNodes.next (table c s₀) (tableTrace c tr) (table c s) := by
  refine h.project (fun s l s' call hs hv => ?_) fun s l s' hs hv => ?_
  · obtain ⟨e, he, hcall⟩ := Option.bind_eq_some_iff.mp hv
    obtain ⟨-, eff, hg, -, -⟩ := step_of_eventOf hs (view_eq_some.mp he)
    rw [KnownNodes.next, table, table, Group.knownNodes_of_tableCall hg hcall]
  · rcases he : view c s l with _ | e
    · rw [table, table, node_of_view_none hs he]
    · obtain ⟨-, eff, hg, -, -⟩ := step_of_eventOf hs (view_eq_some.mp he)
      refine Group.knownNodes_of_tableCall_none hg ?_
      rwa [tableView, he, Option.bind_some] at hv

/-- In a run of a group, the first heartbeat of `u` that reaches `c` keeps `u`
counted there for 11000 ms, whatever happens meanwhile in the group. -/
theorem first_heartBeat_counted {start now : ℤ} {timeo : NodeTimeo} {u : String}
    (h : Run (step members) s₀ (tr₁ ++ t :: tr₂) s)
    (hv : tableView c t.pre t.label = some (.heartBeat start timeo u))
    (hnew : u ∉ table c t.pre)
    (hclock : ClockFrom KnownNodes.Call.now start (tableTrace c tr₂))
    (hother : ∀ w ∈ tableTrace c tr₂, ∀ now timeo, w.label ≠ .heartBeat now timeo u)
    (hstart : start ≤ now) (hlast : ∀ w ∈ tableTrace c tr₂, w.label.now ≤ now)
    (hnow : now ≤ start + 11000 * milliseconds) : (table c s).Counted u now := by
  obtain ⟨-, hs, hrun⟩ := h.at_split
  have hpost : table c t.post = (table c t.pre).heartBeat start timeo u := by
    obtain ⟨e, he, hcall⟩ := Option.bind_eq_some_iff.mp hv
    obtain ⟨-, eff, hg, -, -⟩ := step_of_eventOf hs (view_eq_some.mp he)
    exact Group.knownNodes_of_tableCall hg hcall
  have halive : (table c t.post).Alive u start := by
    rw [hpost, KnownNodes.alive_heartBeat_iff]
    intro entry hentry
    exact absurd (Table.mem_iff_lookup.mpr ⟨entry, hentry⟩) hnew
  exact halive _ _ (run_table hrun c) hclock hother now hstart hlast hnow

end GroupNet

end Riaps
