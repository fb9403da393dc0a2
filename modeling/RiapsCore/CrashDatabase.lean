/-
The database against crashes and the live response services.

`HandleServiceReg` saves the address of a response service under its key, and
`HandleActorUnreg` deletes the keys of all services that its process has
registered.  A key belongs to an application and a message type, not to a
process, and `Lmdb::Del` deletes every value of it: unregistering one process
also deletes what others have under its keys.

* `mem_delServices` — what the deletions leave;
* `mirrors_iff` — along a run in which the database never fails, it holds
  exactly the addresses of the live response services iff no process is
  unregistered while another has a live one under a key of its own.
-/
import RiapsCore.DiscoverySteps
import RiapsCore.Runs

open Runs

namespace Riaps

namespace DiscoveryMessageHandler

variable {H : Type*} {dht : OpenDht H} {d d' s : DiscoveryMessageHandler H} {l : Stamped}
  {mac host : String} {tr : List (Transition (DiscoveryMessageHandler H) Stamped)}
  {t : Transition (DiscoveryMessageHandler H) Stamped}

/-- The response service that a transition registers: process, key and value. -/
def repRegistration (t : Transition (DiscoveryMessageHandler H) Stamped) :
    Option (Int32 × String × String) :=
  match t.label.event with
  | .serviceReg req _ =>
    if req.path.kind = .rep then
      (t.pre.buildInsertKeyValuePair req.path req.host req.port).map fun kv => (req.pid, kv)
    else none
  | _ => none

/-- The process that an event unregisters. -/
def unregPid (l : Stamped) : Option Int32 :=
  match l.event with
  | .actorUnreg req _ => some req.pid
  | _ => none

/-- The response services whose process has not been unregistered since their
registration. -/
def liveRep (tr : List (Transition (DiscoveryMessageHandler H) Stamped)) :
    List (Int32 × String × String) :=
  tr.foldl (fun acc t =>
    acc.filter (fun r => unregPid t.label ≠ some r.1) ++ (repRegistration t).toList) []

/-- The database holds the addresses of the live response services. -/
def Mirrors (tr : List (Transition (DiscoveryMessageHandler H) Stamped))
    (d : DiscoveryMessageHandler H) : Prop :=
  d.db = ((liveRep tr).map Prod.snd).toFinset

/-- No live response service of another process has a key that the unregistered
process has used. -/
def SparesOthers (tr : List (Transition (DiscoveryMessageHandler H) Stamped))
    (t : Transition (DiscoveryMessageHandler H) Stamped) : Prop :=
  ∀ pid ∈ unregPid t.label, ∀ r ∈ liveRep tr, r.1 ≠ pid →
    ∀ c ∈ t.pre.checkins pid, r.2.1 ≠ c.key

-- not the search through all `Int32`
instance : Decidable (SparesOthers tr t) := Option.decidableForallMem (unregPid t.label)

instance : Decidable (Mirrors tr d) := inferInstanceAs (Decidable (_ = _))

/-- Every call of the database in the event succeeds. -/
def LmdbSucceeds (l : Stamped) : Prop :=
  match l.event with
  | .serviceReg _ putOk => putOk = true
  | .actorUnreg _ failed => failed = ∅
  | _ => True

instance : ∀ l, Decidable (LmdbSucceeds l)
  | ⟨_, .serviceReg _ putOk⟩ => inferInstanceAs (Decidable (putOk = true))
  | ⟨_, .actorUnreg _ failed⟩ => inferInstanceAs (Decidable (failed = ∅))
  | ⟨_, .actorReg _ _⟩ | ⟨_, .serviceLookup _⟩ | ⟨_, .groupJoin _⟩ | ⟨_, .renewServices⟩ =>
    .isTrue trivial

theorem liveRep_snoc (tr : List (Transition (DiscoveryMessageHandler H) Stamped))
    (t : Transition (DiscoveryMessageHandler H) Stamped) :
    liveRep (tr ++ [t]) = (liveRep tr).filter (fun r => unregPid t.label ≠ some r.1)
      ++ (repRegistration t).toList := by
  rw [liveRep, List.foldl_append]
  rfl

/-- An event that unregisters nobody keeps what is live. -/
theorem liveRep_snoc_of_none (h : unregPid t.label = none) :
    liveRep (tr ++ [t]) = liveRep tr ++ (repRegistration t).toList := by
  rw [liveRep_snoc, h, List.filter_eq_self.mpr (by simp)]

/-- What is left after deleting the keys of some services. -/
theorem mem_delServices {db : Lmdb} {failed : Finset ℕ} (hok : failed = ∅)
    (services : List ServiceCheckin) (e : String × String) :
    e ∈ delServices db failed services ↔ e ∈ db ∧ ∀ c ∈ services, e.1 ≠ c.key := by
  rw [delServices]
  generalize 0 = n
  induction services generalizing db n with
  | nil => simp
  | cons c services ih =>
    rw [List.zipIdx_cons, List.foldl_cons, if_neg (by simp [hok]), ih, Lmdb.del, Finset.mem_filter,
      List.forall_mem_cons, and_assoc]

/-- The database mirrors what is live, and what is live is under a key of its
process. -/
structure Recorded (tr : List (Transition (DiscoveryMessageHandler H) Stamped))
    (d : DiscoveryMessageHandler H) : Prop where
  mirrors : Mirrors tr d
  keys : ∀ r ∈ liveRep tr, ∃ c ∈ d.checkins r.1, c.key = r.2.1

theorem Mirrors.mem_iff (h : Mirrors tr d) (e : String × String) :
    e ∈ d.db ↔ ∃ r ∈ liveRep tr, r.2 = e := by
  rw [h, List.mem_toFinset, List.mem_map]

/-! ### One event -/

/-- Unregistering a process: the database mirrors what is still live iff
nothing of the others was deleted. -/
theorem mirrors_unregistered {clock : ℕ} {req : ActorReq} {failed : Finset ℕ}
    (hrec : Recorded tr d) (hok : failed = ∅)
    (hdb : d'.db = delServices d.db failed (d.checkins req.pid)) :
    Mirrors (tr ++ [⟨d, ⟨clock, .actorUnreg req failed⟩, d'⟩]) d' ↔
      SparesOthers tr ⟨d, ⟨clock, .actorUnreg req failed⟩, d'⟩ := by
  have hlive : ∀ r, r ∈ liveRep (tr ++ [⟨d, ⟨clock, .actorUnreg req failed⟩, d'⟩]) ↔
      r ∈ liveRep tr ∧ r.1 ≠ req.pid := by
    intro r
    have hreg : repRegistration ⟨d, ⟨clock, .actorUnreg req failed⟩, d'⟩ = none := rfl
    have hunreg : unregPid ⟨clock, .actorUnreg req failed⟩ = some req.pid := rfl
    rw [liveRep_snoc, hreg, hunreg, Option.toList_none, List.append_nil, List.mem_filter]
    simp only [ne_eq, Option.some_inj, decide_eq_true_eq]
    rw [eq_comm]
  have hleft : ∀ e, e ∈ d'.db ↔
      (∃ r ∈ liveRep tr, r.2 = e) ∧ ∀ c ∈ d.checkins req.pid, e.1 ≠ c.key := by
    intro e
    rw [hdb, mem_delServices hok, hrec.mirrors.mem_iff]
  constructor
  · intro hmirrors pid hpid r hr hne c hc hkey
    obtain rfl : req.pid = pid := by simpa [unregPid] using hpid
    -- `r` is still live, and its entry was deleted
    have hmem : r.2 ∈ d'.db := (hmirrors.mem_iff r.2).mpr ⟨r, (hlive r).mpr ⟨hr, hne⟩, rfl⟩
    exact ((hleft r.2).mp hmem).2 c hc hkey
  · intro hspares
    have hspares' : ∀ r ∈ liveRep tr, r.1 ≠ req.pid → ∀ c ∈ d.checkins req.pid, r.2.1 ≠ c.key :=
      hspares req.pid rfl
    rw [Mirrors]
    ext e
    rw [hleft, List.mem_toFinset, List.mem_map]
    constructor
    · rintro ⟨⟨r, hr, rfl⟩, hkeys⟩
      refine ⟨r, (hlive r).mpr ⟨hr, ?_⟩, rfl⟩
      intro hpid
      obtain ⟨c, hc, hkey⟩ := hrec.keys r hr
      rw [hpid] at hc
      exact hkeys c hc hkey.symm
    · rintro ⟨r, hr, rfl⟩
      obtain ⟨hr, hne⟩ := (hlive r).mp hr
      exact ⟨⟨r, hr, rfl⟩, hspares' r hr hne⟩

/-- An event that unregisters nobody keeps the mirror. -/
theorem mirrors_of_none (hrec : Recorded tr t.pre) (hnone : unregPid t.label = none)
    (hdb : t.post.db = (repRegistration t).toList.foldl (fun db r => db.put r.2.1 r.2.2)
      t.pre.db) : Mirrors (tr ++ [t]) t.post := by
  rw [Mirrors, hdb, liveRep_snoc_of_none hnone, hrec.mirrors]
  rcases repRegistration t with _ | r
  · simp
  · ext e
    simp only [Option.toList_some, List.foldl_cons, List.foldl_nil, Lmdb.put, Finset.mem_insert,
      List.mem_toFinset, List.map_append, List.mem_append, List.map_cons, List.map_nil,
      List.mem_singleton]
    exact or_comm

/-- What an event does to the database, and whether it then mirrors what is
live. -/
theorem mirrors_step (hrec : Recorded tr t.pre) (hok : LmdbSucceeds t.label)
    (hs : CheckinStep t.pre t.label t.post) :
    Mirrors (tr ++ [t]) t.post ↔ SparesOthers tr t := by
  rcases t with ⟨d, l, d'⟩
  have hfree : unregPid l = none → SparesOthers tr ⟨d, l, d'⟩ := by
    intro hnone pid hpid
    rw [hnone] at hpid
    cases hpid
  cases hs with
  | @registered clock req putOk kv _ hkv hcheckins hdb =>
    refine iff_of_true (mirrors_of_none hrec rfl ?_) (hfree rfl)
    rw [hdb]
    have hput : putOk = true := hok
    by_cases hrep : req.path.kind = .rep
    · simp [repRegistration, hrep, hput, hkv]
    · simp [repRegistration, hrep]
  | unregistered hcheckins hdb => exact mirrors_unregistered hrec hok hdb
  | renewed hcheckins hdb =>
    refine iff_of_true (mirrors_of_none hrec rfl ?_) (hfree rfl)
    exact hdb
  | other hreg hunreg hcheckins hdb =>
    have hnone : unregPid l = none := by
      rw [unregPid]
      split
      · rename_i req failed hl
        exact absurd hl (hunreg req failed)
      · rfl
    have hnorep : repRegistration ⟨d, l, d'⟩ = none := by
      rw [repRegistration]
      split
      · rename_i req putOk hl
        exact absurd hl (hreg req putOk)
      · rfl
    refine iff_of_true (mirrors_of_none hrec hnone ?_) (hfree hnone)
    rw [hnorep]
    exact hdb

/-- An entry of a process stays, with its key. -/
theorem CheckinStep.key_kept (hs : CheckinStep d l d') {pid : Int32} {c : ServiceCheckin}
    (hc : c ∈ d.checkins pid) : ∃ c' ∈ d'.checkins pid, c'.key = c.key := by
  cases hs with
  | registered hkv hcheckins hdb =>
    refine ⟨c, ?_, rfl⟩
    rw [hcheckins]
    split
    · exact List.mem_append_left _ hc
    · exact hc
  | unregistered hcheckins hdb => exact ⟨c, (hcheckins pid).symm ▸ hc, rfl⟩
  | @renewed clock _ hcheckins hdb =>
    refine ⟨DiscoveryMessageHandler.renewed clock c, ?_, renewed_key clock c⟩
    rw [hcheckins]
    exact List.mem_map_of_mem hc
  | other hreg hunreg hcheckins hdb => exact ⟨c, (hcheckins pid).symm ▸ hc, rfl⟩

/-- A registered response service gets an entry of its process. -/
theorem CheckinStep.key_registered {r : Int32 × String × String}
    (hs : CheckinStep t.pre t.label t.post) (hr : repRegistration t = some r) :
    ∃ c ∈ t.post.checkins r.1, c.key = r.2.1 := by
  rcases t with ⟨d, l, d'⟩
  rw [repRegistration] at hr
  split at hr
  · rename_i req putOk hl
    split at hr
    · obtain ⟨kv, hkv, rfl⟩ := Option.map_eq_some_iff.mp hr
      cases hs with
      | @registered clock req' putOk' kv' _ hkv' hcheckins hdb =>
        obtain ⟨rfl, rfl⟩ : req' = req ∧ putOk' = putOk := by simpa using hl
        rw [hkv] at hkv'
        obtain rfl := Option.some_inj.mp hkv'
        refine ⟨⟨kv.1, kv.2, UInt64.ofNat clock, 10 * 60 * 1000⟩, ?_, rfl⟩
        rw [hcheckins, if_pos rfl]
        exact List.mem_append_right _ (List.mem_singleton.mpr rfl)
      | unregistered => cases hl
      | renewed => cases hl
      | other hreg => exact absurd hl (hreg req putOk)
    · cases hr
  · cases hr

/-- The live services stay under keys of their processes. -/
theorem keys_step (hkeys : ∀ r ∈ liveRep tr, ∃ c ∈ t.pre.checkins r.1, c.key = r.2.1)
    (hs : CheckinStep t.pre t.label t.post) :
    ∀ r ∈ liveRep (tr ++ [t]), ∃ c ∈ t.post.checkins r.1, c.key = r.2.1 := by
  intro r hr
  rw [liveRep_snoc, List.mem_append, List.mem_filter] at hr
  rcases hr with ⟨hr, -⟩ | hr
  · obtain ⟨c, hc, hkey⟩ := hkeys r hr
    obtain ⟨c', hc', hkey'⟩ := hs.key_kept hc
    exact ⟨c', hc', hkey'.trans hkey⟩
  · exact hs.key_registered (Option.mem_toList.mp hr)

/-! ### Runs -/

variable [DecidableEq H]

/-- **When the database mirrors the live response services.**  With every call
of the database succeeding, it does so after each event of a run iff each
unregistration spares the live response services of other processes. -/
theorem mirrors_iff (h : Run (next dht) (init mac host) tr s)
    (hok : ∀ t ∈ tr, LmdbSucceeds t.label) :
    Along (fun past t => Mirrors (past ++ [t]) t.post) tr ↔ Along SparesOthers tr := by
  refine h.along_iff Recorded ?_ ?_ ?_ (along_of_forall hok)
  · refine ⟨rfl, fun r hr => ?_⟩
    exact absurd hr List.not_mem_nil
  · intro tr t hrec hok hs
    exact mirrors_step hrec hok (next_checkins hs)
  · intro tr t hrec hok hs hspares
    have hstep := next_checkins hs
    exact ⟨(mirrors_step hrec hok hstep).mpr hspares, keys_step hrec.keys hstep⟩

/-- Two processes with a response service each, under keys of their own; the
first is unregistered. -/
theorem mirrors_own_keys :
    ∃ tr s, Run (next plainDht) (init "mac" "10.0.0.1") tr s ∧ s.db.card = 1 ∧
      Along (fun past t => Mirrors (past ++ [t]) t.post) tr := by
  obtain ⟨tr, s, hrun, hcard, hok, hspares⟩ :=
    exists_run_of_replay (next plainDht) (init "mac" "10.0.0.1")
      (fun tr s => s.db.card = 1 ∧ (∀ t ∈ tr, LmdbSucceeds t.label) ∧ Along SparesOthers tr)
      [⟨0, .serviceReg (responseService 7 "10.0.0.1") true⟩,
        ⟨10, .serviceReg { responseService 8 "10.0.0.2" with
          path := ⟨"app", "Other", .rep, .global⟩ } true⟩,
        ⟨20, .actorUnreg actorA ∅⟩] (by decide)
  exact ⟨tr, s, hrun, hcard, (mirrors_iff hrun hok).mpr hspares⟩

/-- Two processes with a response service under the same key: unregistering the
first deletes the address of the second. -/
theorem unregistration_deletes_other :
    ∃ tr t, Run (next plainDht) (init "mac" "10.0.0.1") (tr ++ [t]) t.post ∧
      (∀ u ∈ tr ++ [t], LmdbSucceeds u.label) ∧
      ((8 : Int32), "/app/Msg/rep", "10.0.0.2:5555") ∈ liveRep (tr ++ [t]) ∧ t.post.db = ∅ ∧
      ¬ Mirrors (tr ++ [t]) t.post :=
  exists_run_snoc_of_replay (next plainDht) (init "mac" "10.0.0.1")
    (fun tr t =>
      (∀ u ∈ tr ++ [t], LmdbSucceeds u.label) ∧
      ((8 : Int32), "/app/Msg/rep", "10.0.0.2:5555") ∈ liveRep (tr ++ [t]) ∧ t.post.db = ∅ ∧
      ¬ Mirrors (tr ++ [t]) t.post)
    [⟨0, .serviceReg (responseService 7 "10.0.0.1") true⟩,
      ⟨10, .serviceReg (responseService 8 "10.0.0.2") true⟩]
    ⟨20, .actorUnreg actorA ∅⟩ (by decide)

end DiscoveryMessageHandler

end Riaps
