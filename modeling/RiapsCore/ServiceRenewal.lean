/-
Renewal of the services of a process that is gone.

`RenewServices()` puts every service of `service_checkins_` into the hash table
again when ten minutes have passed.  Unregistering an actor, and purging one
whose process is dead, erase the names of the actor and leave the services of
its process where they are:

* `length_checkins` — a process has one entry for each registration it has made;
* `exists_renewal` — an entry is due at some later time, whatever the time is;
* `never_renewed_iff` — so after an unregistration or a purge, no registration
  of the process is renewed again iff it had made none.
-/
import RiapsCore.DiscoverySteps
import RiapsCore.Runs

open Runs

namespace Riaps

namespace DiscoveryMessageHandler

variable {H : Type*} {dht : OpenDht H} {d d' s : DiscoveryMessageHandler H}
  {l : Stamped} {pid : Int32} {mac host : String}
  {tr : List (Transition (DiscoveryMessageHandler H) Stamped)}
  {t : Transition (DiscoveryMessageHandler H) Stamped}

/-- The event registers a service of the process. -/
def RegistersService (pid : Int32) (l : Stamped) : Prop :=
  match l.event with
  | .serviceReg req _ => req.pid = pid
  | _ => False

instance (pid : Int32) : ∀ l, Decidable (RegistersService pid l)
  | ⟨_, .serviceReg req _⟩ => inferInstanceAs (Decidable (req.pid = pid))
  | ⟨_, .actorReg _ _⟩ | ⟨_, .actorUnreg _ _⟩ | ⟨_, .serviceLookup _⟩ | ⟨_, .groupJoin _⟩
  | ⟨_, .renewServices⟩ => .isFalse id

/-- How many services the process has registered. -/
def registrations (pid : Int32) (tr : List (Transition (DiscoveryMessageHandler H) Stamped)) : ℕ :=
  tr.countP fun t => RegistersService pid t.label

/-- The process whose actor an event unregisters with the reply OK, or purges
because it is dead. -/
def unregisteredPid (dht : OpenDht H) (d : DiscoveryMessageHandler H) (l : Stamped) :
    Option Int32 :=
  match l.event with
  | .actorUnreg req failed =>
    if (d.handleActorUnreg dht req failed).2.any fun o => o matches .reply (.actorUnreg .ok _) then
      some req.pid
    else none
  | .actorReg req answers =>
    (d.clients.lookup (clientKeyBase req.appName req.actorName)).bind fun actor =>
      if answers.isRunning actor.pid then none else some actor.pid
  | _ => none

/-- The transition is a `RenewServices()` that puts the `i`-th service of the
process into the hash table again. -/
def Renews (dht : OpenDht H) (pid : Int32) (i : ℕ)
    (t : Transition (DiscoveryMessageHandler H) Stamped) : Prop :=
  match t.label.event with
  | .renewServices => ∃ s ∈ (t.pre.checkins pid)[i]?, due t.label.clock s = true ∧
      .put (dht.get s.key) (.address s.value) ∈ (t.pre.renewServices dht t.label.clock).2
  | _ => False

/-! ### The entries of a process -/

theorem CheckinStep.length (h : CheckinStep d l d') (pid : Int32) :
    (d'.checkins pid).length
      = (d.checkins pid).length + if RegistersService pid l then 1 else 0 := by
  cases h with
  | @registered clock req putOk kv _ hkv hcheckins hdb =>
    rw [hcheckins]
    by_cases hp : req.pid = pid
    · have hreg : RegistersService pid ⟨clock, .serviceReg req putOk⟩ := hp
      rw [if_pos hp.symm, if_pos hreg, List.length_append]
      rfl
    · have hreg : ¬ RegistersService pid ⟨clock, .serviceReg req putOk⟩ := hp
      rw [if_neg (Ne.symm hp), if_neg hreg]
      rfl
  | unregistered hcheckins hdb =>
    rw [hcheckins]
    rfl
  | renewed hcheckins hdb =>
    rw [hcheckins, List.length_map]
    rfl
  | other hreg hunreg hcheckins hdb =>
    have hnot : ¬ RegistersService pid l := by
      rw [RegistersService]
      split
      · rename_i req putOk hl
        exact absurd hl (hreg req putOk)
      · exact id
    rw [hcheckins, if_neg hnot]
    rfl

/-- An unregistration or a purge registers nothing. -/
theorem not_registersService_of_unregistered (h : unregisteredPid dht d l = some pid)
    (p : Int32) : ¬ RegistersService p l := by
  rw [unregisteredPid] at h
  rw [RegistersService]
  split
  · rename_i hl
    simp [hl] at h
  · exact id

/-! ### Renewal -/

/-- At some time after `clock` a given entry is due. -/
theorem exists_due (c : ServiceCheckin) (htimeout : c.timeout = 600000) (clock : ℕ) :
    ∃ clock', clock ≤ clock' ∧ due clock' c = true := by
  refine ⟨clock * 2 ^ 64 + (c.createdTime.toNat + 600001), by omega, ?_⟩
  rw [due, decide_eq_true_eq, htimeout, gt_iff_lt, UInt64.lt_iff_toNat_lt, UInt64.toNat_sub,
    UInt64.toNat_ofNat']
  have hlt := c.createdTime.toNat_lt
  have h600 : (600000 : UInt64).toNat = 600000 := rfl
  omega

/-- Renewing puts the address of every entry that is due. -/
theorem put_mem_renewServices {clock : ℕ} {c : ServiceCheckin} (hc : c ∈ d.checkins pid)
    (hdue : due clock c = true) :
    .put (dht.get c.key) (.address c.value) ∈ (d.renewServices dht clock).2 := by
  rw [checkins] at hc
  rcases hlook : d.serviceCheckins.lookup pid with _ | services
  · simp [hlook] at hc
  · rw [hlook, Option.getD_some] at hc
    refine List.mem_flatMap.mpr ⟨⟨pid, services⟩, AList.mem_lookup_iff.mp hlook, ?_⟩
    exact List.mem_map.mpr ⟨c, List.mem_filter.mpr ⟨hc, hdue⟩, rfl⟩

/-! ### Runs -/

variable [DecidableEq H]

theorem length_checkins (h : Run (next dht) (init mac host) tr s) (pid : Int32) :
    (s.checkins pid).length = registrations pid tr := by
  induction h with
  | nil => rfl
  | @snoc tr s s' l _ hs ih =>
    rw [(next_checkins hs).length pid, ih, registrations, registrations, List.countP_append,
      List.countP_singleton]
    simp

/-- Every entry has the timeout of ten minutes. -/
theorem timeout_checkins (h : Run (next dht) (init mac host) tr s) :
    ∀ pid, ∀ c ∈ s.checkins pid, c.timeout = 600000 := by
  induction h with
  | nil =>
    intro pid c hc
    exact absurd hc List.not_mem_nil
  | @snoc tr s s' l _ hs ih =>
    intro pid c hc
    cases next_checkins hs with
    | registered hkv hcheckins hdb =>
      rw [hcheckins] at hc
      split at hc
      · rcases List.mem_append.mp hc with hc | hc
        · exact ih pid c hc
        · rw [List.mem_singleton.mp hc]
          rfl
      · exact ih pid c hc
    | unregistered hcheckins hdb =>
      rw [hcheckins] at hc
      exact ih pid c hc
    | @renewed clock _ hcheckins hdb =>
      rw [hcheckins] at hc
      obtain ⟨c', hc', rfl⟩ := List.mem_map.mp hc
      rw [renewed_timeout]
      exact ih pid c' hc'
    | other hreg hunreg hcheckins hdb =>
      rw [hcheckins] at hc
      exact ih pid c hc

/-- From `d` on, none of the first `n` registrations of the process is renewed,
whatever is requested and at whatever times. -/
def NeverRenewed (dht : OpenDht H) (d : DiscoveryMessageHandler H) (clock : ℕ) (pid : Int32)
    (n : ℕ) : Prop :=
  ∀ tr s, Run (next dht) d tr s → ClockFrom Stamped.clock clock tr →
    ∀ t ∈ tr, ∀ i < n, ¬ Renews dht pid i t

/-- An entry is renewed by a later `RenewServices()`. -/
theorem exists_renewal (dht : OpenDht H) {i : ℕ} {c : ServiceCheckin}
    (hc : (d.checkins pid)[i]? = some c) (htimeout : c.timeout = 600000) (clock : ℕ) :
    ∃ tr s, Run (next dht) d tr s ∧ ClockFrom Stamped.clock clock tr ∧
      ∃ t ∈ tr, Renews dht pid i t := by
  obtain ⟨clock', hle, hdue⟩ := exists_due c htimeout clock
  let t : Transition (DiscoveryMessageHandler H) Stamped :=
    ⟨d, ⟨clock', .renewServices⟩, (d.renewServices dht clock').1⟩
  have hrun : Run (next dht) d [t] t.post := .snoc .nil rfl
  refine ⟨[t], t.post, hrun, ?_, t, List.mem_singleton.mpr rfl, ?_⟩
  · simp [ClockFrom, t, hle]
  · exact ⟨c, hc, hdue, put_mem_renewServices (List.mem_of_getElem? hc) hdue⟩

/-- **When unregistered services stay unregistered.**  After an unregistration
with the reply OK, or the purge of a dead process, no later `RenewServices()`
renews a registration that the process has made before iff it has made none. -/
theorem never_renewed_iff (h : Run (next dht) (init mac host) (tr ++ [t]) s)
    (hpid : unregisteredPid dht t.pre t.label = some pid) :
    NeverRenewed dht s t.label.clock pid (registrations pid tr) ↔
      ∀ u ∈ tr, ¬ RegistersService pid u.label := by
  constructor
  · intro hnever u hu hreg
    have hpos : 0 < registrations pid tr :=
      List.countP_pos_iff.mpr ⟨u, hu, decide_eq_true hreg⟩
    have hlen : (s.checkins pid).length = registrations pid tr := by
      rw [length_checkins h pid, registrations, List.countP_append, List.countP_singleton,
        if_neg (by simpa using not_registersService_of_unregistered hpid pid)]
      rfl
    -- the first registration of the process is renewed later
    have hlt : 0 < (s.checkins pid).length := by omega
    have hentry : (s.checkins pid)[0]? = some (s.checkins pid)[0] := List.getElem?_eq_getElem hlt
    have htimeout := timeout_checkins h pid _ (List.getElem_mem hlt)
    obtain ⟨tr', s', hrun, hclock, u', hu', hrenews⟩ :=
      exists_renewal dht hentry htimeout t.label.clock
    exact hnever tr' s' hrun hclock u' hu' 0 hpos hrenews
  · intro hnone tr' s' _ _ u _ i hi
    have hzero : registrations pid tr = 0 := by
      rw [registrations, List.countP_eq_zero]
      exact fun u hu hreg => hnone u hu (of_decide_eq_true hreg)
    omega

/-! ### Concrete runs -/

/-- The actor `A` has registered nothing; another process has. -/
theorem never_renewed_other_process :
    ∃ tr t, Run (next plainDht) (init "mac" "10.0.0.1") (tr ++ [t]) t.post ∧
      unregisteredPid plainDht t.pre t.label = some 7 ∧ registrations 8 tr = 1 ∧
      NeverRenewed plainDht t.post t.label.clock 7 (registrations 7 tr) := by
  obtain ⟨tr, t, hrun, hpid, hother, hnone⟩ :=
    exists_run_snoc_of_replay (next plainDht) (init "mac" "10.0.0.1")
      (fun tr t =>
        unregisteredPid plainDht t.pre t.label = some 7 ∧ registrations 8 tr = 1 ∧
          ∀ u ∈ tr, ¬ RegistersService 7 u.label)
      [⟨0, .actorReg actorA bound⟩, ⟨10, .serviceReg (responseService 8 "10.0.0.2") true⟩]
      ⟨20, .actorUnreg actorA ∅⟩ (by decide)
  exact ⟨tr, t, hrun, hpid, hother, (never_renewed_iff hrun hpid).mpr hnone⟩

/-- The service of the unregistered process 7 is put into the hash table again
ten minutes later. -/
theorem unregistered_service_renewed :
    ∃ tr t, Run (next plainDht) (init "mac" "10.0.0.1") (tr ++ [t]) t.post ∧
      ClockFrom Stamped.clock 0 (tr ++ [t]) ∧ unregisteredPid plainDht t.pre t.label = some 7 ∧
      ¬ NeverRenewed plainDht t.post t.label.clock 7 (registrations 7 tr) := by
  obtain ⟨tr, t, hrun, hclock, hpid, hone, hentry⟩ :=
    exists_run_snoc_of_replay (next plainDht) (init "mac" "10.0.0.1")
      (fun tr t =>
        ClockFrom Stamped.clock 0 (tr ++ [t]) ∧
          unregisteredPid plainDht t.pre t.label = some 7 ∧ registrations 7 tr = 1 ∧
          (t.post.checkins 7)[0]? = some ⟨"/app/Msg/rep", "10.0.0.1:5555", 10, 600000⟩)
      [⟨0, .actorReg actorA bound⟩, ⟨10, .serviceReg (responseService 7 "10.0.0.1") true⟩]
      ⟨20, .actorUnreg actorA ∅⟩ (by decide)
  refine ⟨tr, t, hrun, hclock, hpid, fun hnever => ?_⟩
  obtain ⟨tr', s', hrun', hclock', u, hu, hrenews⟩ :=
    exists_renewal plainDht hentry rfl t.label.clock
  exact hnever tr' s' hrun' hclock' u hu 0 (by omega) hrenews

end DiscoveryMessageHandler

end Riaps
