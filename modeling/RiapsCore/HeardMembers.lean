/-
Whom a component counts as a member of its group.

`known_nodes_` is filled by heartbeats and emptied when an entry has expired and
somebody counts.  An entry keeps the end point of the heartbeat that made it, at
most 20000 ms later.  So there are no ghosts in a table that starts empty:

* `KnownNodes.EndsAt.call` — a call keeps the end point of what it keeps;
* `counted_was_heard` — a counted component is a member of the group, it has sent a
  heartbeat, and that heartbeat arrived at most 20000 ms before.
-/
import RiapsCore.LiveMembers

open Runs

namespace Riaps

/-! ### One table -/

namespace KnownNodes

variable {known s : KnownNodes} {u : String}

/-- The entry of `u` ends at `endPoint`. -/
def EndsAt (known : KnownNodes) (u : String) (endPoint : ℤ) : Prop :=
  ∃ t, known.lookup u = some t ∧ t.endPoint = endPoint

/-- A call that leaves `u` in the table leaves the end point of its entry. -/
theorem EndsAt.call {endPoint : ℤ} {l : Call} (h : known.EndsAt u endPoint)
    (hmem : u ∈ known.call l) : (known.call l).EndsAt u endPoint := by
  obtain ⟨t, ht, hend⟩ := h
  cases l with
  | heartBeat now timeo source =>
    by_cases hu : u = source
    · subst hu
      refine ⟨_, lookup_heartBeat_self known now timeo u, ?_⟩
      rw [ht]
      exact hend
    · exact ⟨t, (lookup_heartBeat_ne hu).trans ht, hend⟩
  | getMemberCount now =>
    obtain ⟨t', ht', hle⟩ := mem_live.mp hmem
    rw [ht, Option.some_inj] at ht'
    subst ht'
    exact ⟨t, lookup_live.mpr ⟨ht, hle⟩, hend⟩
  | getKnownComponents now => exact ⟨t, ht, hend⟩

/-- Only a heartbeat of `u` brings it into the table. -/
theorem heartBeat_of_enters {l : Call} (hpre : u ∉ known) (hpost : u ∈ known.call l) :
    ∃ now timeo, l = .heartBeat now timeo u ∧
      (known.call l).EndsAt u (now + timeo * milliseconds) := by
  cases l with
  | heartBeat now timeo source =>
    rcases mem_heartBeat.mp hpost with rfl | hold
    · refine ⟨now, timeo, rfl, _, lookup_heartBeat_self known now timeo u, ?_⟩
      have hnone : known.lookup u = none := AList.lookup_eq_none.mpr hpre
      rw [hnone]
      exact Timeout.ofCount_endPoint now timeo
    · exact absurd hold hpre
  | getMemberCount now =>
    obtain ⟨t, ht, -⟩ := mem_live.mp hpost
    exact absurd (Table.mem_iff_lookup.mpr ⟨t, ht⟩) hpre
  | getKnownComponents now => exact absurd hpost hpre

end KnownNodes

/-! ### The table of a component in a group -/

namespace GroupNet

open GroupLead (compA compB)

variable {members : Finset ComponentUuid} {s s' s₀ : GroupNet} {l : Label} {c : ComponentUuid}
  {tr : List (Transition GroupNet Label)} {u : String} {now : ℤ}

/-- A step leaves the table of a component alone or is a call on it. -/
theorem table_step (h : step members s l = some s') (c : ComponentUuid) :
    table c s' = table c s ∨
      ∃ call, tableView c s l = some call ∧ table c s' = (table c s).call call := by
  rcases he : view c s l with _ | e
  · left
    rw [table, table, node_of_view_none h he]
  · obtain ⟨-, eff, hg, -, -⟩ := step_of_eventOf h (view_eq_some.mp he)
    rcases hcall : (s.node c).tableCall e with _ | call
    · exact .inl (Group.knownNodes_of_tableCall_none hg hcall)
    · right
      refine ⟨call, ?_, Group.knownNodes_of_tableCall hg hcall⟩
      rw [tableView, he, Option.bind_some, hcall]

/-- A heartbeat that reaches the table was sent by the component it names. -/
theorem sent_of_heartBeat (h₀ : Initial s₀) (h : Run (step members) s₀ tr s) {timeo : NodeTimeo}
    (hv : tableView c s l = some (.heartBeat now timeo u)) :
    ∃ v ∈ members, (v : String) = u ∧ ∃ m hb, Sent tr v m ∧ m.heartBeat = some hb ∧
      hb.sourceComponentId = u := by
  obtain ⟨e, he, hcall⟩ := Option.bind_eq_some_iff.mp hv
  rw [Group.tableCall.eq_def] at hcall
  split at hcall
  · split at hcall <;> simp at hcall
  · simp at hcall
  · rename_i now' draws m
    obtain ⟨hb, hhb, heq⟩ := Option.map_eq_some_iff.mp hcall
    have hid : hb.sourceComponentId = u := (KnownNodes.Call.heartBeat.inj heq).2.2
    obtain ⟨v, hsent⟩ := sent_of_receive h₀ h he
    refine ⟨v, hsent.mem_members h, ?_, m, hb, hsent, hhb, hid⟩
    -- a group sends heartbeats under its own id only
    obtain ⟨t, ht, hview, hm⟩ := hsent
    obtain ⟨e', he'⟩ := Option.isSome_iff_exists.mp hview
    obtain ⟨-, eff, hg, hout, -⟩ := step_of_eventOf (h.step_of_mem ht) (view_eq_some.mp he')
    rw [hout] at hm
    have hsource := Group.heartBeat_of_step hg hm hhb
    obtain ⟨tr₁, tr₂, rfl⟩ := List.append_of_mem ht
    have hcid : (t.pre.node v).parentComponentId = v := lead_componentId h₀ h.at_split.1 v
    rw [← hid, hsource, hcid]
  · simp at hcall

/-- **No ghosts.**  A component that is counted at `now`, in a table that was empty
at the start, is a member of the group: a heartbeat that it has sent itself made
its entry, arrived at most 20000 ms before `now`, and the entry has been in the
table since then. -/
theorem counted_was_heard (h₀ : Initial s₀) (hempty : table c s₀ = ∅)
    (h : Run (step members) s₀ tr s) (hc : (table c s).Counted u now) :
    ∃ tr₁ t tr₂ start timeo, tr = tr₁ ++ t :: tr₂ ∧
      tableView c t.pre t.label = some (.heartBeat start timeo u) ∧
      now ≤ start + 20000 * milliseconds ∧
      (∀ w ∈ tr₂, u ∈ table c w.pre ∧ u ∈ table c w.post) ∧
      ∃ v ∈ members, (v : String) = u ∧ ∃ m hb, Sent tr₁ v m ∧ m.heartBeat = some hb ∧
        hb.sourceComponentId = u := by
  obtain ⟨entry, hentry, hle⟩ := KnownNodes.counted_iff.mp hc
  have hinit : ¬ u ∈ table c s₀ := by
    rw [hempty]
    exact AList.notMem_empty u
  obtain ⟨tr₁, t, tr₂, rfl, hpre, hpost, hall⟩ :=
    h.since (fun s => u ∈ table c s) hinit (Table.mem_iff_lookup.mpr ⟨entry, hentry⟩)
  obtain ⟨h₁, hstep, h₂⟩ := h.at_split
  rcases table_step hstep c with hsame | ⟨call, hcall, htable⟩
  · rw [hsame] at hpost
    exact absurd hpost hpre
  rw [htable] at hpost
  obtain ⟨start, timeo, rfl, hends⟩ := KnownNodes.heartBeat_of_enters hpre hpost
  rw [← htable] at hends
  refine ⟨tr₁, t, tr₂, start, timeo, rfl, hcall, ?_, hall, sent_of_heartBeat h₀ h₁ hcall⟩
  -- the entry has kept the end point of this heartbeat
  obtain ⟨entry', hentry', hend⟩ : (table c s).EndsAt u (start + timeo * milliseconds) := by
    refine (h₂.invariant (fun s => (table c s).EndsAt u (start + timeo * milliseconds))
      (fun s l => ∀ s', step members s l = some s' → u ∈ table c s') hends ?_ ?_).1
    · intro s l s' hC hI hs
      rcases table_step hs c with hsame | ⟨call, -, htable⟩
      · rw [hsame]
        exact hI
      · have hmem := hC s' hs
        rw [htable] at hmem ⊢
        exact hI.call hmem
    · intro w hw s' hs'
      have heq := h₂.step_of_mem hw
      rw [hs', Option.some_inj] at heq
      rw [heq]
      exact (hall w hw).2
  rw [hentry, Option.some_inj] at hentry'
  rw [← hentry'] at hend
  have hmul : (timeo : ℤ) * milliseconds ≤ 20000 * milliseconds :=
    Int.mul_le_mul_of_nonneg_right timeo.property.2 (by decide)
  omega

/-- `b` has heard a ping of `a`. -/
theorem counted_was_heard_ping :
    ∃ tr s, Run (step trio) (startTrio fun _ => []) tr s ∧
      (table compB s).Counted "a" (1000 * milliseconds) ∧
      ∃ tr₁ t tr₂ start timeo, tr = tr₁ ++ t :: tr₂ ∧
        tableView compB t.pre t.label = some (.heartBeat start timeo "a") ∧
        1000 * milliseconds ≤ start + 20000 * milliseconds ∧
        (∀ w ∈ tr₂, "a" ∈ table compB w.pre ∧ "a" ∈ table compB w.post) ∧
        ∃ v ∈ trio, (v : String) = "a" ∧ ∃ m hb, Sent tr₁ v m ∧ m.heartBeat = some hb ∧
          hb.sourceComponentId = "a" := by
  obtain ⟨tr, s, hrun, hlook⟩ :=
    exists_run_of_replay (step trio) (startTrio fun _ => [])
      (fun _ s => (table compB s).lookup "a" = some (.ofCount (20 * milliseconds) 11000))
      [.act compA (.ping 0), deliverAt compA compB 20] (by decide)
  have hcounted : (table compB s).Counted "a" (1000 * milliseconds) :=
    KnownNodes.counted_iff.mpr ⟨_, hlook, by decide⟩
  exact ⟨tr, s, hrun, hcounted,
    counted_was_heard (initial_startTrio fun _ => []) rfl hrun hcounted⟩

end GroupNet

end Riaps
