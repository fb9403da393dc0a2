/-
Endpoints of zombies are not handed out.

A zombie list stamps its endpoints in `zombie_services_`, and both forwarding
paths skip an endpoint that is there.  `MaintainZombieList()` drops an endpoint
when its stamp is more than fifteen minutes old, and a stamp is only ever
replaced by a later one:

* `Marked.step` — an iteration within the fifteen minutes keeps the mark;
* `endpoint_notMem` — no update is made from an endpoint in the table;
* `zombie_not_handed_out` — so none is made within fifteen minutes.
-/
import RiapsCore.DiscoveryLoop

open Runs

namespace Riaps

/-- The zombie list that has arrived; other messages carry none. -/
def Ready.zombies : Ready → List String
  | .dhtUpdate (some (.zombieList zombies)) => zombies
  | _ => []

namespace DiscoveryLoop

open DiscoveryMessageHandler

variable {H : Type*} {dht : OpenDht H} {s s₀ s' : DiscoveryLoop H} {it : Iteration}
  {zombies : Table String ℕ} {e : String} {m : ℕ}
  {tr₁ tr₂ : List (Transition (DiscoveryLoop H) Iteration)}
  {u : Transition (DiscoveryLoop H) Iteration}

/-- The endpoint was stamped at `m` or later. -/
def Marked (e : String) (m : ℕ) (zombies : Table String ℕ) : Prop :=
  ∃ stamp, zombies.lookup e = some stamp ∧ m ≤ stamp

/-! ### The table -/

theorem lookup_markZombies (clock : ℕ) (list : List String) (zombies : Table String ℕ)
    (e : String) :
    (markZombies clock list zombies).lookup e
      = if e ∈ list then some clock else zombies.lookup e := by
  rw [markZombies]
  induction list generalizing zombies with
  | nil => rfl
  | cons z list ih =>
    rw [List.foldl_cons, ih]
    by_cases hlist : e ∈ list
    · rw [if_pos hlist, if_pos (List.mem_cons_of_mem z hlist)]
    · rw [if_neg hlist]
      by_cases hz : e = z
      · rw [hz, AList.lookup_insert, if_pos List.mem_cons_self]
      · rw [AList.lookup_insert_ne hz, if_neg (by simp [hz, hlist])]

/-- Within the lifetime a purge keeps the mark. -/
theorem Marked.maintainZombieList (h : Marked e m zombies) {clock : ℕ}
    (hclock : clock ≤ m + 900000) : Marked e m (maintainZombieList clock zombies) := by
  obtain ⟨stamp, hstamp, hm⟩ := h
  refine ⟨stamp, Table.lookup_retain.mpr ⟨hstamp, ?_⟩, hm⟩
  rw [decide_eq_true_eq]
  omega

theorem Marked.markZombies (h : Marked e m zombies) {clock : ℕ} (hclock : m ≤ clock)
    (list : List String) : Marked e m (markZombies clock list zombies) := by
  rw [Marked, lookup_markZombies]
  by_cases he : e ∈ list
  · rw [if_pos he]
    exact ⟨clock, rfl, hclock⟩
  · rw [if_neg he]
    exact h

/-! ### The forwarding paths -/

theorem notMem_of_readEndpoint {hp : String × Int32} (h : readEndpoint zombies e = some hp) :
    e ∉ zombies :=
  (readEndpoint_eq_some_iff.mp h).1

theorem endpoint_notMem_handleDhtGet {d : DiscoveryMessageHandler H} {g : ProviderListGet}
    {p : PortSend} (hp : p ∈ d.handleDhtGet zombies g) : p.endpoint ∉ zombies := by
  obtain ⟨_, hread⟩ := mem_handleDhtGet hp
  exact notMem_of_readEndpoint hread

theorem endpoint_notMem_handleDhtUpdate {d : DiscoveryMessageHandler H} {v : ProviderListUpdate}
    {p : PortSend} (hp : p ∈ d.handleDhtUpdate zombies v) : p.endpoint ∉ zombies := by
  obtain ⟨_, hread⟩ := mem_handleDhtUpdate hp
  exact notMem_of_readEndpoint hread

/-! ### One iteration -/

/-- The periodic work keeps the mark within the lifetime. -/
theorem Marked.maintain (h : Marked e m s.zombieServices) {start : ℕ}
    (hstart : start ≤ m + 900000) :
    Marked e m (s.maintain dht start).1.zombieServices := by
  rw [DiscoveryLoop.maintain]
  dsimp only
  split
  · exact h.maintainZombieList hstart
  · exact h

variable [DecidableEq H]

/-- What the handling of a message does to the table. -/
theorem handle_zombieServices {clock : ℕ} {which : Ready} {q : DiscoveryLoop H × LoopEffects H}
    (h : s.handle dht clock which = some q) :
    q.1.zombieServices = markZombies clock which.zombies s.zombieServices := by
  cases handled h with
  | pipe command => cases command <;> rfl
  | message message => cases message <;> rfl
  | request hr => rfl
  | unreadable => rfl
  | timeout => rfl

/-- **An iteration within the lifetime keeps the mark.** -/
theorem Marked.step (h : Marked e m s.zombieServices) (hs : next dht s it = some s')
    (hstart : it.start ≤ m + 900000) (hclock : m ≤ it.clock) :
    Marked e m s'.zombieServices := by
  obtain ⟨r, hr, rfl⟩ := Option.map_eq_some_iff.mp hs
  obtain ⟨q, hq, rfl⟩ := iterate_eq_some hr
  rw [handle_zombieServices hq]
  exact (h.maintain hstart).markZombies hclock _

/-- A zombie list sets the mark. -/
theorem marked_of_mem_zombies (hs : next dht s it = some s') (he : e ∈ it.which.zombies) :
    Marked e it.clock s'.zombieServices := by
  obtain ⟨r, hr, rfl⟩ := Option.map_eq_some_iff.mp hs
  obtain ⟨q, hq, rfl⟩ := iterate_eq_some hr
  refine ⟨it.clock, ?_, le_rfl⟩
  rw [handle_zombieServices hq, lookup_markZombies, if_pos he]

/-- No update is made from an endpoint in the table. -/
theorem endpoint_notMem {clock : ℕ} {which : Ready} {q : DiscoveryLoop H × LoopEffects H}
    (h : s.handle dht clock which = some q) {p : PortSend} (hp : p ∈ q.2.ports) :
    p.endpoint ∉ s.zombieServices := by
  cases handled h with
  | pipe command => cases command <;> cases hp
  | message message =>
    cases message with
    | providerUpdate v => exact endpoint_notMem_handleDhtUpdate hp
    | providerGet g => exact endpoint_notMem_handleDhtGet hp
    | zombieList list => cases hp
    | groupUpdate v => cases hp
  | request hr => cases hp
  | unreadable => cases hp
  | timeout => cases hp

/-! ### Runs -/

/-- **Zombies are not handed out.**  At non-decreasing clock times, after a
zombie list with the endpoint `e` has been processed at the time `m`, no
iteration up to `m` and fifteen minutes makes an update from `e`. -/
theorem zombie_not_handed_out {clock₀ : ℕ}
    (h : Run (next dht) s₀ (tr₁ ++ u :: tr₂) s)
    (hclock : ReadingsFrom Iteration.readings clock₀ (tr₁ ++ u :: tr₂))
    (he : e ∈ u.label.which.zombies) :
    ∀ t ∈ tr₂, t.label.clock ≤ u.label.clock + 900000 →
      ∀ r, t.pre.iterate dht t.label = some r → ∀ p ∈ r.2.ports, p.endpoint ≠ e := by
  intro t ht hle r hr p hp heq
  obtain ⟨-, hmark, hrest⟩ := h.at_split
  obtain ⟨tr₃, tr₄, rfl⟩ := List.append_of_mem ht
  have hclock' : ReadingsFrom Iteration.readings clock₀ (u :: (tr₃ ++ t :: tr₄)) := hclock.right
  have hcond : ∀ v ∈ tr₃, v.label.start ≤ u.label.clock + 900000 ∧
      u.label.clock ≤ v.label.clock := by
    intro v hv
    have hbefore : v.label.start ≤ t.label.clock := by
      have hsplit : ReadingsFrom Iteration.readings clock₀ ((u :: tr₃) ++ t :: tr₄) := hclock'
      exact hsplit.le_of_split (List.mem_cons_of_mem u hv) v.label.start_mem_readings
        t.label.clock_mem_readings
    refine ⟨hbefore.trans hle, ?_⟩
    exact hclock'.le_of_cons (List.mem_append_left _ hv) u.label.clock_mem_readings
      v.label.clock_mem_readings
  have hstart : t.label.start ≤ t.label.clock := by
    have hpair := hclock'.of_mem (List.mem_cons_of_mem u ht)
    rw [Iteration.readings, List.pairwise_cons] at hpair
    exact hpair.1 _ List.mem_cons_self
  -- the mark is there when the iteration `t` starts, and still after its purge
  have hbefore : Marked e u.label.clock t.pre.zombieServices := by
    obtain ⟨hrun, -, -⟩ := hrest.at_split
    refine (hrun.invariant (fun s => Marked e u.label.clock s.zombieServices)
      (fun _ it => it.start ≤ u.label.clock + 900000 ∧ u.label.clock ≤ it.clock)
      (marked_of_mem_zombies hmark he) ?_ hcond).1
    intro s it s' hit hs hstep
    exact hs.step hstep hit.1 hit.2
  obtain ⟨stamp, hstamp, -⟩ : Marked e u.label.clock
      (t.pre.maintain dht t.label.start).1.zombieServices := hbefore.maintain (hstart.trans hle)
  obtain ⟨q, hq, rfl⟩ := iterate_eq_some hr
  rw [← heq] at hstamp
  exact endpoint_notMem hq hp (Table.mem_iff_lookup.mpr ⟨stamp, hstamp⟩)

/-- A client of a service with two providers: the update that would hand out
the one that is a zombie hands out the other only. -/
theorem zombie_not_handed_out_two_providers :
    ∃ tr₁ u tr₂ s, Run (next plainDht) (init "mac" "10.0.0.1" 0) (tr₁ ++ u :: tr₂) s ∧
      u.label.clock = 30000 ∧
      (∃ t ∈ tr₂, t.label.clock = 900000 ∧
        (t.pre.iterate plainDht t.label).map (fun r => r.2.ports.length) = some 1) ∧
      ∀ t ∈ tr₂, t.label.clock ≤ u.label.clock + 900000 →
        ∀ r, t.pre.iterate plainDht t.label = some r →
          ∀ p ∈ r.2.ports, p.endpoint ≠ "10.0.0.2:5555" := by
  obtain ⟨tr₁, u, tr₂, s, hrun, -, ⟨hu, ht⟩, hclock, he⟩ :=
    exists_run_split_of_replay (next plainDht) (init "mac" "10.0.0.1" 0)
      (fun tr₁ u tr₂ =>
        (u.label.clock = 30000 ∧
          (∃ t ∈ tr₂, t.label.clock = 900000 ∧
            (t.pre.iterate plainDht t.label).map (fun r => r.2.ports.length) = some 1)) ∧
          ReadingsFrom Iteration.readings 0 (tr₁ ++ u :: tr₂) ∧
          "10.0.0.2:5555" ∈ u.label.which.zombies)
      [⟨0, 0, 0, .riaps (.actorReg actorA bound)⟩,
        ⟨10, 10, 10, .riaps (.serviceLookup ⟨⟨"app", "Msg", .req, .global⟩, ⟨"h", "A", "i", "p"⟩⟩)⟩]
      ⟨30000, 30000, 30000, .dhtUpdate (some (.zombieList ["10.0.0.2:5555"]))⟩
      [⟨900000, 900000, 900000, .dhtUpdate (some (.providerUpdate
        ⟨"/app/Msg/rep", ["10.0.0.2:5555", "10.0.0.3:5555"]⟩))⟩] (by decide)
  exact ⟨tr₁, u, tr₂, s, hrun, hu, ht, zombie_not_handed_out hrun hclock he⟩

end DiscoveryLoop

end Riaps
