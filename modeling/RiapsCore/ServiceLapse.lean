/-
How long a registered service stays in the hash table.

OpenDHT drops a value ten minutes after its put, and `RenewServices()` puts a
service again when its time stamp is more than ten minutes old.  The stamp of a
registration is read before the put, and that of a renewal is the time of the
renewal: from the first renewal on, every put is gone before the next one.

* `renewalPuts_eq` — the renewals of a service in a run are those of a lease
  whose polls are the iterations of the loop;
* `no_lapse_iff` — so a service is there without a gap for less than twenty
  minutes, and only if its first renewal is in time.
-/
import RiapsCore.DiscoveryLoop
import RiapsCore.Leases
import RiapsCore.ServiceRenewal
import Mathlib.Algebra.Group.Nat.Defs

open Runs

namespace Riaps

namespace DiscoveryLoop

open DiscoveryMessageHandler

variable {H : Type*} {dht : OpenDht H} {s s₀ s' : DiscoveryLoop H} {it : Iteration}
  {mac host : String} {pid : Int32} {i clock₀ : ℕ}
  {tr past later : List (Transition (DiscoveryLoop H) Iteration)}
  {reg : Transition (DiscoveryLoop H) Iteration}

/-- The lifetime of a `DhtData` value (`DhtData::TYPE`), in milliseconds. -/
def dhtDataLifetime : ℕ := 600000

section

variable [DecidableEq H]

/-- The iteration renews the `i`-th service that the process has registered: it
is due, and its address is put into the hash table. -/
def RenewsService (dht : OpenDht H) (pid : Int32) (i : ℕ)
    (t : Transition (DiscoveryLoop H) Iteration) : Bool :=
  ((t.pre.handler.checkins pid)[i]?).any fun c => due t.label.start c ∧
    .put (dht.get c.key) (.address c.value) ∈ (t.pre.maintain dht t.label.start).2

/-- The times at which the service is put again. -/
def renewalPuts (dht : OpenDht H) (pid : Int32) (i : ℕ)
    (tr : List (Transition (DiscoveryLoop H) Iteration)) : List ℕ :=
  (tr.filter (RenewsService dht pid i)).map fun t => t.label.start

end

/-! ### The entry of a service -/

/-- The `i`-th service of the process has the time stamp `stamp`. -/
def Stamp (pid : Int32) (i stamp : ℕ) (s : DiscoveryLoop H) : Prop :=
  ∃ c, (s.handler.checkins pid)[i]? = some c ∧ c.createdTime = UInt64.ofNat stamp ∧
    c.timeout = 600000

/-- The test of the renewal, without wrap-around. -/
theorem due_iff {c : ServiceCheckin} {stamp clock : ℕ} (hc : c.createdTime = UInt64.ofNat stamp)
    (ht : c.timeout = 600000) (hle : stamp ≤ clock) (hrange : clock < 2 ^ 63) :
    due clock c = true ↔ stamp + dhtDataLifetime < clock := by
  rw [due, decide_eq_true_eq, ht, hc, gt_iff_lt, UInt64.lt_iff_toNat_lt, UInt64.toNat_sub,
    UInt64.toNat_ofNat', UInt64.toNat_ofNat', dhtDataLifetime]
  have h600 : (600000 : UInt64).toNat = 600000 := rfl
  omega

theorem maintain_checkins (s : DiscoveryLoop H) (dht : OpenDht H) (start : ℕ) (pid : Int32) :
    (s.maintain dht start).1.handler.checkins pid
      = if s.Renews start then (s.handler.checkins pid).map (renewed start)
        else s.handler.checkins pid := by
  rw [maintain]
  dsimp only
  split
  · exact renewServices_checkins s.handler dht start pid
  · rfl

variable [DecidableEq H]

/-- Handling a message only adds entries. -/
theorem handle_checkins {clock : ℕ} {which : Ready} {q : DiscoveryLoop H × LoopEffects H}
    (h : s.handle dht clock which = some q) (pid : Int32) :
    ∃ new, q.1.handler.checkins pid = s.handler.checkins pid ++ new := by
  have hsame : ∀ l : List ServiceCheckin, ∃ new, l = l ++ new :=
    fun l => ⟨[], (List.append_nil l).symm⟩
  cases handled h with
  | pipe command => cases command <;> exact hsame _
  | message message => cases message <;> exact hsame _
  | @request request r hr =>
    have hnext : DiscoveryMessageHandler.next dht s.handler ⟨clock, request.event⟩ = some r.1 := by
      rw [DiscoveryMessageHandler.next, hr]
      rfl
    generalize hl : (⟨clock, request.event⟩ : Stamped) = l at hnext
    cases next_checkins hnext with
    | registered hkv hcheckins hdb =>
      rw [hcheckins]
      split
      · exact ⟨_, rfl⟩
      · exact hsame _
    | unregistered hcheckins hdb =>
      rw [hcheckins]
      exact hsame _
    -- no request is the periodic renewal
    | renewed hcheckins hdb => cases request <;> cases hl
    | other hreg hunreg hcheckins hdb =>
      rw [hcheckins]
      exact hsame _
  | unreadable => exact hsame _
  | timeout => exact hsame _

/-- An iteration renews the entry when its stamp is too old, and keeps it
otherwise. -/
theorem Stamp.step {stamp : ℕ} (h : Stamp pid i stamp s) (hs : next dht s it = some s')
    (hlast : s.lastServiceCheckin ≤ stamp) (hle : stamp ≤ it.start) (hrange : it.start < 2 ^ 63) :
    (RenewsService dht pid i ⟨s, it, s'⟩ = true ↔ stamp + dhtDataLifetime < it.start) ∧
      Stamp pid i (if stamp + dhtDataLifetime < it.start then it.start else stamp) s' := by
  obtain ⟨c, hc, hcreated, htimeout⟩ := h
  have hdue := due_iff hcreated htimeout hle hrange
  -- the period of the check is shorter than that of the renewal
  have hrenews : stamp + dhtDataLifetime < it.start → s.Renews it.start := by
    intro hlate
    have hperiod : serviceCheckPeriod.toNat = 20000 := rfl
    rw [dhtDataLifetime] at hlate
    rw [Renews, hperiod]
    omega
  constructor
  · rw [RenewsService, hc, Option.any_some, decide_eq_true_eq, hdue]
    refine and_iff_left_of_imp fun hlate => ?_
    rw [maintain, if_pos (hrenews hlate)]
    exact put_mem_renewServices (List.mem_of_getElem? hc) (hdue.mpr hlate)
  · obtain ⟨r, hr, rfl⟩ := Option.map_eq_some_iff.mp hs
    obtain ⟨q, hq, rfl⟩ := iterate_eq_some hr
    obtain ⟨new, hnew⟩ := handle_checkins hq pid
    have hentry : ((s.maintain dht it.start).1.handler.checkins pid)[i]?
        = some (if stamp + dhtDataLifetime < it.start then renewed it.start c else c) := by
      rw [maintain_checkins]
      by_cases hlate : stamp + dhtDataLifetime < it.start
      · rw [if_pos (hrenews hlate), if_pos hlate, List.getElem?_map, hc, Option.map_some]
      · rw [if_neg hlate]
        have hkept : renewed it.start c = c := by
          rw [renewed, if_neg (mt hdue.mp hlate)]
        split
        · rw [List.getElem?_map, hc, Option.map_some, hkept]
        · exact hc
    refine ⟨if stamp + dhtDataLifetime < it.start then renewed it.start c else c, ?_, ?_, ?_⟩
    · rw [hnew]
      exact List.getElem?_append_left (List.getElem?_eq_some_iff.mp hentry).1 ▸ hentry
    · by_cases hlate : stamp + dhtDataLifetime < it.start
      · rw [if_pos hlate, if_pos hlate, renewed, if_pos (hdue.mpr hlate)]
      · rw [if_neg hlate, if_neg hlate]
        exact hcreated
    · split
      · rw [renewed_timeout]
        exact htimeout
      · exact htimeout

theorem next_lastServiceCheckin (hs : next dht s it = some s') :
    s'.lastServiceCheckin = s.lastServiceCheckin := by
  obtain ⟨r, hr, rfl⟩ := Option.map_eq_some_iff.mp hs
  obtain ⟨q, hq, rfl⟩ := iterate_eq_some hr
  have hkept : (s.maintain dht it.start).1.lastServiceCheckin = s.lastServiceCheckin := rfl
  rw [← hkept]
  have hhandled := handled hq
  generalize it.which = which at hhandled
  cases hhandled with
  | pipe command => cases command <;> rfl
  | message message => cases message <;> rfl
  | request hr => rfl
  | unreadable => rfl
  | timeout => rfl

/-! ### Runs -/

/-- The service is renewed like a lease that the iterations poll. -/
theorem renewalPuts_eq {stamp : ℕ} (h : Run (next dht) s tr s') (hstamp : Stamp pid i stamp s)
    (hlast : s.lastServiceCheckin ≤ stamp) (hclock : ReadingsFrom Iteration.readings stamp tr)
    (hrange : ∀ t ∈ tr, t.label.start < 2 ^ 63) :
    renewalPuts dht pid i tr
      = Leases.renewals dhtDataLifetime stamp (tr.map fun t => t.label.start) := by
  induction tr generalizing s stamp with
  | nil => rfl
  | cons t tr ih =>
    obtain ⟨rfl, hs, hrun⟩ := h.head
    have hle : stamp ≤ t.label.start :=
      hclock.start_le List.mem_cons_self t.label.start_mem_readings
    obtain ⟨hrenews, hstamp'⟩ := hstamp.step hs hlast hle (hrange t List.mem_cons_self)
    have hlast' := next_lastServiceCheckin hs
    have hrange' : ∀ u ∈ tr, u.label.start < 2 ^ 63 :=
      fun u hu => hrange u (List.mem_cons_of_mem t hu)
    rw [List.map_cons, Leases.renewals]
    by_cases hlate : stamp + dhtDataLifetime < t.label.start
    · rw [if_pos hlate] at hstamp' ⊢
      have ih' := ih hrun hstamp' (by omega) (hclock.after t.label.start_mem_readings) hrange'
      rw [← ih', renewalPuts, List.filter_cons_of_pos (hrenews.mpr hlate)]
      rfl
    · rw [if_neg hlate] at hstamp' ⊢
      have hclock' : ReadingsFrom Iteration.readings stamp ([t] ++ tr) := hclock
      have ih' := ih hrun hstamp' (by omega) hclock'.right hrange'
      rw [← ih', renewalPuts, List.filter_cons_of_neg (mt hrenews.mp hlate)]
      rfl

/-- The process has registered a service, and up to `T` one of the puts of this
service is less than ten minutes old at every instant from the first put on. -/
def NoLapse (dht : OpenDht H) (pid : Int32) (reg : Transition (DiscoveryLoop H) Iteration)
    (later : List (Transition (DiscoveryLoop H) Iteration)) (T : ℕ) : Prop :=
  ∀ x, reg.label.put ≤ x → x ≤ T →
    ∃ p ∈ reg.label.put :: renewalPuts dht pid (reg.pre.handler.checkins pid).length later,
      p ≤ x ∧ x < p + dhtDataLifetime

/-- A registration adds an entry with the time stamp of the handler. -/
theorem stamp_of_serviceReg {req : ServiceRegReq} {putOk : Bool}
    (hs : next dht s it = some s') (hreg : it.which = .riaps (.serviceReg req putOk)) :
    Stamp req.pid (s.handler.checkins req.pid).length it.clock s' := by
  obtain ⟨r, hr, rfl⟩ := Option.map_eq_some_iff.mp hs
  obtain ⟨q, hq, rfl⟩ := iterate_eq_some hr
  rw [hreg] at hq
  obtain ⟨o, ho, rfl⟩ := Option.map_eq_some_iff.mp hq
  obtain ⟨kv, -, rfl⟩ := Option.map_eq_some_iff.mp ho
  have hlen : (s.handler.checkins req.pid).length
      = ((s.maintain dht it.start).1.handler.checkins req.pid).length := by
    rw [maintain_checkins]
    split
    · rw [List.length_map]
    · rfl
  refine ⟨⟨kv.1, kv.2, UInt64.ofNat it.clock, 10 * 60 * 1000⟩, ?_, rfl, rfl⟩
  rw [insert_checkins, if_pos rfl, hlen, List.getElem?_concat_length]

/-- The stamps of the loop are not after the stamps of the services. -/
theorem lastServiceCheckin_run (h : Run (next dht) (init mac host clock₀) tr s) :
    s.lastServiceCheckin = clock₀ := by
  induction h with
  | nil => rfl
  | snoc _ hs ih => rw [next_lastServiceCheckin hs, ih]

/-- The puts of a registered service are the grants of a lease. -/
theorem puts_eq (h : Run (next dht) (init mac host clock₀) (past ++ reg :: later) s)
    (hclock : ReadingsFrom Iteration.readings clock₀ (past ++ reg :: later))
    (hrange : ∀ t ∈ past ++ reg :: later, t.label.start < 2 ^ 63)
    {req : ServiceRegReq} {putOk : Bool}
    (hreg : reg.label.which = .riaps (.serviceReg req putOk)) :
    renewalPuts dht req.pid (reg.pre.handler.checkins req.pid).length later
      = Leases.renewals dhtDataLifetime reg.label.clock (later.map fun t => t.label.start) := by
  obtain ⟨hpast, hs, hrun⟩ := h.at_split
  have hfrom : clock₀ ≤ reg.label.clock :=
    hclock.start_le (List.mem_append_right _ List.mem_cons_self) reg.label.clock_mem_readings
  refine renewalPuts_eq hrun (stamp_of_serviceReg hs hreg) ?_
    (hclock.right.after reg.label.clock_mem_readings) fun t ht => hrange t (by simp [ht])
  rw [next_lastServiceCheckin hs, lastServiceCheckin_run hpast]
  exact hfrom

/-- **When a service does not lapse.**  In every run of the loop with clock
readings in order, a registered service is in the hash table at every instant
from its first put to `T` iff `T` is less than ten minutes after that put, or the
first iteration that starts more than ten minutes after the time stamp of the
registration starts no later than ten minutes after the put, and `T` is less than
ten minutes after it. -/
theorem no_lapse_iff (h : Run (next dht) (init mac host clock₀) (past ++ reg :: later) s)
    (hclock : ReadingsFrom Iteration.readings clock₀ (past ++ reg :: later))
    (hrange : ∀ t ∈ past ++ reg :: later, t.label.start < 2 ^ 63)
    {req : ServiceRegReq} {putOk : Bool}
    (hreg : reg.label.which = .riaps (.serviceReg req putOk)) (T : ℕ) :
    NoLapse dht req.pid reg later T ↔
      T < reg.label.put + dhtDataLifetime ∨
      ∃ n, (later.map fun t => t.label.start).find?
          (fun n => decide (reg.label.clock + dhtDataLifetime < n)) = some n ∧
        n ≤ reg.label.put + dhtDataLifetime ∧ T < n + dhtDataLifetime := by
  have hputs := puts_eq h hclock hrange hreg
  have hpolls : ∀ n ∈ later.map (fun t => t.label.start), reg.label.put ≤ n := by
    intro n hn
    obtain ⟨t, ht, rfl⟩ := List.mem_map.mp hn
    exact hclock.right.le_of_cons ht reg.label.put_mem_readings t.label.start_mem_readings
  rw [NoLapse, hputs]
  exact Leases.held_iff hpolls

/-! ### Concrete runs -/

/-- A publisher of the process 7. -/
def publisher : ServiceRegReq where
  path := ⟨"app", "Msg", .pub, .global⟩
  host := "10.0.0.1"
  port := 5555
  pid := 7

/-- An iteration in which nothing has arrived. -/
def idle (start : ℕ) : Iteration := ⟨start, start, start, .timeout⟩

/-- The service is there in the first seconds. -/
theorem no_lapse_first_seconds :
    ∃ past reg later s, Run (next plainDht) (init "mac" "10.0.0.1" 0) (past ++ reg :: later) s ∧
      reg.label.put = 3500 ∧ NoLapse plainDht 7 reg later 9000 := by
  obtain ⟨past, reg, later, s, hrun, hlabel, hclock, hrange⟩ :=
    exists_run_split_of_replay (next plainDht) (init "mac" "10.0.0.1" 0)
      (fun past reg later =>
        ReadingsFrom Iteration.readings 0 (past ++ reg :: later) ∧
          (∀ t ∈ past ++ reg :: later, t.label.start < 2 ^ 63))
      [] ⟨3000, 3000, 3500, .riaps (.serviceReg publisher true)⟩ [idle 6000, idle 9000] (by decide)
  have hreg : reg.label.which = .riaps (.serviceReg publisher true) := by rw [hlabel]
  have hput : reg.label.put = 3500 := by rw [hlabel]
  refine ⟨past, reg, later, s, hrun, hput, ?_⟩
  refine (no_lapse_iff hrun hclock hrange hreg 9000).mpr (.inl ?_)
  rw [hput, dhtDataLifetime]
  omega

/-- Consecutive iterations start at most `REGULAR_MAINTAIN_PERIOD` apart. -/
def Paced (clock₀ : ℕ) (tr : List (Transition (DiscoveryLoop H) Iteration)) : Prop :=
  (clock₀ :: tr.map fun t => t.label.start).IsChain fun a b => b ≤ a + 3000

/-- The loop can go on with nothing to do, every three seconds. -/
theorem exists_idle_run (dht : OpenDht H) (n start : ℕ) (s : DiscoveryLoop H)
    (hs : s.terminated = false) :
    ∃ tr s', Run (next dht) s tr s' ∧ Paced start tr ∧
      ReadingsFrom Iteration.readings start tr ∧
      (∀ t ∈ tr, t.label.which = .timeout ∧ t.label.start ≤ start + 3000 * n) ∧
      (0 < n → ∃ t ∈ tr, t.label.start = start + 3000 * n) := by
  induction n generalizing start s with
  | zero => exact ⟨[], s, .nil, .singleton _, by simp [ReadingsFrom], by simp, by simp⟩
  | succ n ih =>
    have hnext : next dht s (idle (start + 3000)) = some (s.maintain dht (start + 3000)).1 := by
      simp [next, iterate, hs, idle, handle]
    obtain ⟨tr, s', hrun, hpaced, hclock, hidle, hlast⟩ :=
      ih (start + 3000) (s.maintain dht (start + 3000)).1 hs
    refine ⟨_, s', .cons hnext hrun, .cons_cons le_rfl hpaced, ?_, ?_, ?_⟩
    · refine hclock.cons_now ?_ (Nat.le_add_right start 3000)
      simp [idle, Iteration.readings]
    · refine List.forall_mem_cons.mpr ⟨⟨rfl, ?_⟩, fun t ht => ⟨(hidle t ht).1, ?_⟩⟩
      · dsimp only [idle]
        omega
      · have hle := (hidle t ht).2
        omega
    · intro _
      rcases Nat.eq_zero_or_pos n with rfl | hn
      · exact ⟨_, List.mem_cons_self, rfl⟩
      · obtain ⟨t, ht, heq⟩ := hlast hn
        exact ⟨t, List.mem_cons_of_mem _ ht, by omega⟩

/-- A publisher registers, and the loop then finds nothing to do every three
seconds: ten minutes after the put it is not in the hash table. -/
theorem service_lapses :
    ∃ past reg later s, Run (next plainDht) (init "mac" "10.0.0.1" 0) (past ++ reg :: later) s ∧
      ReadingsFrom Iteration.readings 0 (past ++ reg :: later) ∧
      Paced 0 (past ++ reg :: later) ∧
      reg.label = ⟨3000, 3000, 3000, .riaps (.serviceReg publisher true)⟩ ∧
      (∀ t ∈ later, t.label.which = .timeout) ∧ (∃ t ∈ later, t.label.start = 606000) ∧
      ¬ NoLapse plainDht 7 reg later 603000 := by
  let it : Iteration := ⟨3000, 3000, 3000, .riaps (.serviceReg publisher true)⟩
  obtain ⟨s, hs, hterminated⟩ : ∃ s, next plainDht (init "mac" "10.0.0.1" 0) it = some s ∧
      s.terminated = false := ⟨_, rfl, rfl⟩
  obtain ⟨later, s', hrun, hpaced, hclock, hidle, hlast⟩ :=
    exists_idle_run plainDht 201 3000 s hterminated
  have hrun' : Run (next plainDht) (init "mac" "10.0.0.1" 0)
      ([] ++ ⟨init "mac" "10.0.0.1" 0, it, s⟩ :: later) s' := .cons hs hrun
  have hclock' : ReadingsFrom Iteration.readings 0
      ([] ++ ⟨init "mac" "10.0.0.1" 0, it, s⟩ :: later) := by
    refine hclock.cons_now ?_ (Nat.zero_le 3000)
    simp [it, Iteration.readings]
  have hrange : ∀ t ∈ [] ++ ⟨init "mac" "10.0.0.1" 0, it, s⟩ :: later,
      t.label.start < 2 ^ 63 := by
    refine List.forall_mem_cons.mpr ⟨by simp [it], fun t ht => ?_⟩
    have hle := (hidle t ht).2
    omega
  obtain ⟨u, hu, hstart⟩ := hlast (by omega)
  refine ⟨[], ⟨init "mac" "10.0.0.1" 0, it, s⟩, later, s', hrun', hclock', ?_, rfl,
    fun t ht => (hidle t ht).1, ⟨u, hu, by omega⟩, ?_⟩
  · exact .cons_cons (by simp [it]) hpaced
  · intro hno
    obtain ⟨p, hp, hle, hlt⟩ := hno 603000 (by simp [it]) le_rfl
    rw [dhtDataLifetime] at hlt
    rcases List.mem_cons.mp hp with rfl | hp
    · dsimp only [it] at hlt
      omega
    · -- a renewal comes later
      have hputs := puts_eq hrun' hclock' hrange rfl
      rw [publisher] at hputs
      rw [hputs] at hp
      have hlate := Leases.lt_of_mem_renewals hp
      simp only [it, dhtDataLifetime] at hlate
      omega

end DiscoveryLoop

end Riaps
