/-
What an event does to the state of the handler.

`Stepped` lists the handlers that an event can end in, and `next_cases` shows that
there is nothing else.  `CheckinStep` says what this does to the registered
services and to the database: a registration appends to the services of its
process, an unregistration deletes keys from the database and leaves the services
alone, a renewal touches only the times, and the other requests touch neither
(`next_checkins`).
-/
import RiapsCore.Discovery

namespace Riaps

namespace DiscoveryMessageHandler

variable {H : Type*} {dht : OpenDht H} {d d' : DiscoveryMessageHandler H} {l : Stamped}

/-- Everything an event can do to `service_checkins_` and the database. -/
inductive CheckinStep (d : DiscoveryMessageHandler H) :
    Stamped → DiscoveryMessageHandler H → Prop
  | registered {clock : ℕ} {req : ServiceRegReq} {putOk : Bool} {kv : String × String}
      {d' : DiscoveryMessageHandler H} :
      d.buildInsertKeyValuePair req.path req.host req.port = some kv →
      (∀ pid, d'.checkins pid = if pid = req.pid then
        d.checkins pid ++ [{ key := kv.1, value := kv.2, createdTime := UInt64.ofNat clock }]
        else d.checkins pid) →
      d'.db = (if req.path.kind = .rep ∧ putOk then d.db.put kv.1 kv.2 else d.db) →
      CheckinStep d ⟨clock, .serviceReg req putOk⟩ d'
  | unregistered {clock : ℕ} {req : ActorReq} {failed : Finset ℕ}
      {d' : DiscoveryMessageHandler H} :
      (∀ pid, d'.checkins pid = d.checkins pid) →
      d'.db = delServices d.db failed (d.checkins req.pid) →
      CheckinStep d ⟨clock, .actorUnreg req failed⟩ d'
  | renewed {clock : ℕ} {d' : DiscoveryMessageHandler H} :
      (∀ pid, d'.checkins pid = (d.checkins pid).map (renewed clock)) → d'.db = d.db →
      CheckinStep d ⟨clock, .renewServices⟩ d'
  | other {l : Stamped} {d' : DiscoveryMessageHandler H} :
      (∀ req putOk, l.event ≠ .serviceReg req putOk) →
      (∀ req failed, l.event ≠ .actorUnreg req failed) →
      (∀ pid, d'.checkins pid = d.checkins pid) → d'.db = d.db → CheckinStep d l d'

@[simp] theorem renewed_key (clock : ℕ) (c : ServiceCheckin) : (renewed clock c).key = c.key := by
  rw [renewed]
  split <;> rfl

@[simp] theorem renewed_timeout (clock : ℕ) (c : ServiceCheckin) :
    (renewed clock c).timeout = c.timeout := by
  rw [renewed]
  split <;> rfl

/-- A registration of an actor changes the table of actors and the group listeners
and nothing else. -/
theorem handleActorReg_eq (d : DiscoveryMessageHandler H) (dht : OpenDht H) (req : ActorReq)
    (answers : ActorRegAnswers) :
    ∃ clients listeners, (d.handleActorReg dht req answers).1
      = { d with clients := clients, groupListeners := listeners } := by
  rw [handleActorReg]
  split
  · exact ⟨_, _, rfl⟩
  · split
    · exact ⟨_, _, rfl⟩
    · exact ⟨_, _, rfl⟩

theorem renewServices_checkins (d : DiscoveryMessageHandler H) (dht : OpenDht H) (clock : ℕ)
    (pid : Int32) :
    (d.renewServices dht clock).1.checkins pid = (d.checkins pid).map (renewed clock) := by
  rw [checkins, renewServices, Table.lookup_mapValues, checkins]
  cases d.serviceCheckins.lookup pid with
  | none => rfl
  | some services => rfl

theorem insert_checkins (d : DiscoveryMessageHandler H) (p : Int32)
    (services : List ServiceCheckin) (db : Lmdb) (pid : Int32) :
    checkins { d with db := db, serviceCheckins := d.serviceCheckins.insert p services } pid
      = if pid = p then services else d.checkins pid := by
  rw [checkins]
  by_cases hp : pid = p
  · subst hp
    rw [if_pos rfl, AList.lookup_insert, Option.getD_some]
  · rw [if_neg hp, AList.lookup_insert_ne hp, checkins]

variable [DecidableEq H]

/-- The handlers that an event ends in. -/
inductive Stepped (dht : OpenDht H) (d : DiscoveryMessageHandler H) :
    Stamped → DiscoveryMessageHandler H → Prop
  | actorReg {clock : ℕ} {req : ActorReq} {answers : ActorRegAnswers} :
      Stepped dht d ⟨clock, .actorReg req answers⟩ (d.handleActorReg dht req answers).1
  | actorUnreg {clock : ℕ} {req : ActorReq} {failed : Finset ℕ} :
      Stepped dht d ⟨clock, .actorUnreg req failed⟩ (d.handleActorUnreg dht req failed).1
  | serviceReg {clock : ℕ} {req : ServiceRegReq} {putOk : Bool}
      {r : DiscoveryMessageHandler H × List (Outgoing H)} :
      d.handleServiceReg dht clock req putOk = some r →
      Stepped dht d ⟨clock, .serviceReg req putOk⟩ r.1
  | serviceLookup {clock : ℕ} {req : ServiceLookupReq}
      {r : DiscoveryMessageHandler H × List (Outgoing H)} :
      d.handleServiceLookup dht req = some r → Stepped dht d ⟨clock, .serviceLookup req⟩ r.1
  | groupJoin {clock : ℕ} {req : GroupJoinReq} :
      Stepped dht d ⟨clock, .groupJoin req⟩ (d.handleGroupJoin dht req).1
  | renewServices {clock : ℕ} :
      Stepped dht d ⟨clock, .renewServices⟩ (d.renewServices dht clock).1

/-- **Every event ends in its handler.** -/
theorem next_cases (h : next dht d l = some d') : Stepped dht d l d' := by
  obtain ⟨r, hstep, rfl⟩ := Option.map_eq_some_iff.mp h
  rcases l with ⟨clock, event⟩
  cases event with
  | actorReg req answers =>
    obtain rfl := Option.some_inj.mp hstep
    exact .actorReg
  | actorUnreg req failed =>
    obtain rfl := Option.some_inj.mp hstep
    exact .actorUnreg
  | serviceReg req putOk => exact .serviceReg hstep
  | serviceLookup req => exact .serviceLookup hstep
  | groupJoin req =>
    obtain rfl := Option.some_inj.mp hstep
    exact .groupJoin
  | renewServices =>
    obtain rfl := Option.some_inj.mp hstep
    exact .renewServices

/-- **Every event is one of the listed steps** on the services. -/
theorem next_checkins (h : next dht d l = some d') : CheckinStep d l d' := by
  cases next_cases h with
  | @actorReg clock req answers =>
    obtain ⟨clients, listeners, heq⟩ := handleActorReg_eq d dht req answers
    rw [heq]
    exact .other (by simp) (by simp) (fun _ => rfl) rfl
  | actorUnreg => exact .unregistered (fun _ => rfl) rfl
  | @serviceReg clock req putOk r hr =>
    obtain ⟨kv, hkv, rfl⟩ := Option.map_eq_some_iff.mp hr
    refine .registered hkv (fun pid => ?_) rfl
    rw [insert_checkins]
    by_cases hp : pid = req.pid
    · rw [if_pos hp, if_pos hp, hp]
    · rw [if_neg hp, if_neg hp]
  | serviceLookup hr =>
    obtain ⟨key, -, rfl⟩ := Option.map_eq_some_iff.mp hr
    exact .other (by simp) (by simp) (fun _ => rfl) rfl
  | groupJoin => exact .other (by simp) (by simp) (fun _ => rfl) rfl
  | @renewServices clock => exact .renewed (renewServices_checkins d dht clock) rfl

end DiscoveryMessageHandler

end Riaps
