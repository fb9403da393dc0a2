/-
The restart of the discovery service (`DiscoveryMessageHandler::Init()`).

The addresses that are still in the local database belong to services of an
earlier life of the node.  `Init()` takes a snapshot of the database and, for
each entry of it, puts the address under a zombie key and deletes the key of the
entry.  Deleting a key deletes all of its addresses, also those whose turn has
not come yet:

* `Progress` — what the loop has put and what is left in the database, in every
  state in which it can be cut off;
* `recoverySafe_iff` — nothing is lost at any such point iff no key has two
  addresses.
-/
import RiapsCore.Discovery
import RiapsCore.Runs

open Runs

namespace Riaps

/-- A put of `Init()`, with the entry of the database it is made for. -/
structure ZombiePut (H : Type*) where
  service : String × String
  key : H
  value : DhtValue
deriving DecidableEq

/-- The loop of `Init()` over the snapshot: the database, the puts made so far,
the entries that are left, whether the first of them has been put, and whether
an exception has ended the loop. -/
structure Recovery (H : Type*) where
  db : Lmdb
  puts : List (ZombiePut H)
  services : List (String × String)
  putDone : Bool
  failed : Bool

/-- A step of the loop. -/
inductive RecoveryStep where
  | dhtPut
  | del (throws : Bool)
deriving DecidableEq

namespace Recovery

variable {H : Type*}

/-- `DhtPut` of the address under the zombie key it belongs to. -/
def zombiePut (dht : OpenDht H) (d : DiscoveryMessageHandler H) (service : String × String) :
    ZombiePut H :=
  ⟨service, dht.get (d.zombieKey service.2), .address service.2⟩

/-- Before the loop; `services` is what `GetAll()` returns. -/
def init (d : DiscoveryMessageHandler H) (services : List (String × String)) : Recovery H where
  db := d.db
  puts := []
  services := services
  putDone := false
  failed := false

/-- One step of the loop.  `Lmdb::Del` throws before it deletes anything, and
the handler outside the loop catches the exception. -/
def next (dht : OpenDht H) (d : DiscoveryMessageHandler H) (r : Recovery H) (l : RecoveryStep) :
    Option (Recovery H) :=
  match r.services with
  | [] => none
  | service :: rest =>
    if r.failed then none
    else
      match l with
      | .dhtPut =>
        if r.putDone then none
        else some { r with puts := r.puts ++ [zombiePut dht d service], putDone := true }
      | .del throws =>
        if ¬ r.putDone then none
        else if throws then some { r with failed := true }
        else some { r with db := r.db.del service.1, services := rest, putDone := false }

variable {dht : OpenDht H} {d : DiscoveryMessageHandler H} {services : List (String × String)}
  {r r' : Recovery H} {l : RecoveryStep} {tr : List (Transition (Recovery H) RecoveryStep)}

/-- `GetAll()` returns every entry once, in the order of the database. -/
structure Snapshot (d : DiscoveryMessageHandler H) (services : List (String × String)) : Prop where
  nodup : services.Nodup
  mem_iff : ∀ e, e ∈ services ↔ e ∈ d.db

/-- Wherever the loop is cut off, each entry was put under a zombie key or is
still in the database, and when the loop completes, the database is empty and
one put was made for each entry. -/
def RecoverySafe (dht : OpenDht H) (d : DiscoveryMessageHandler H)
    (services : List (String × String)) : Prop :=
  ∀ tr r, Run (next dht d) (init d services) tr r →
    (∀ e ∈ d.db, zombiePut dht d e ∈ r.puts ∨ e ∈ r.db) ∧
    (r.services = [] → r.db = ∅ ∧ r.puts.Nodup ∧
      ∀ p, p ∈ r.puts ↔ ∃ e ∈ d.db, p = zombiePut dht d e)

/-! ### The states of the loop -/

/-- How far the loop is: the entries in `done` have been processed. -/
structure Progress (dht : OpenDht H) (d : DiscoveryMessageHandler H)
    (services done : List (String × String)) (r : Recovery H) : Prop where
  split : services = done ++ r.services
  puts : r.puts = (done ++ if r.putDone then r.services.take 1 else []).map (zombiePut dht d)
  db : ∀ e, e ∈ r.db ↔ e ∈ d.db ∧ ∀ x ∈ done, e.1 ≠ x.1
  pending : r.services = [] → r.putDone = false

theorem progress_init (dht : OpenDht H) (d : DiscoveryMessageHandler H)
    (services : List (String × String)) : Progress dht d services [] (init d services) where
  split := rfl
  puts := rfl
  db := by simp [init]
  pending := fun _ => rfl

/-- Everything a step can do. -/
theorem next_cases (h : next dht d r l = some r') :
    ∃ service rest, r.services = service :: rest ∧
      (r.putDone = false ∧
          r' = { r with puts := r.puts ++ [zombiePut dht d service], putDone := true } ∨
        r' = { r with failed := true } ∨
        r.putDone = true ∧
          r' = { r with db := r.db.del service.1, services := rest, putDone := false }) := by
  rw [next] at h
  split at h
  · cases h
  · rename_i service rest hserv
    refine ⟨service, rest, hserv, ?_⟩
    split at h
    · cases h
    · cases l with
      | dhtPut =>
        dsimp only at h
        split at h
        · cases h
        · rename_i hput
          exact .inl ⟨eq_false_of_ne_true hput, (Option.some_inj.mp h).symm⟩
      | del throws =>
        dsimp only at h
        split at h
        · cases h
        · rename_i hput
          split at h
          · exact .inr (.inl (Option.some_inj.mp h).symm)
          · exact .inr (.inr ⟨not_not.mp hput, (Option.some_inj.mp h).symm⟩)

/-- One step moves the loop forward. -/
theorem Progress.step {done : List (String × String)} (h : Progress dht d services done r)
    (hs : next dht d r l = some r') : ∃ done', Progress dht d services done' r' := by
  obtain ⟨service, rest, hserv, ⟨hput, rfl⟩ | rfl | ⟨hput, rfl⟩⟩ := next_cases hs
  · refine ⟨done, h.split, ?_, h.db, ?_⟩
    · simp [h.puts, hput, hserv]
    · intro hnil
      rw [hserv] at hnil
      cases hnil
  · exact ⟨done, h.split, h.puts, h.db, h.pending⟩
  · refine ⟨done ++ [service], ?_, ?_, ?_, fun _ => rfl⟩
    · rw [h.split, hserv, List.append_assoc]
      rfl
    · simp [h.puts, hput, hserv]
    · intro e
      rw [Lmdb.del, Finset.mem_filter, h.db, and_assoc]
      simp [or_imp, forall_and]

theorem exists_progress (h : Run (next dht d) (init d services) tr r) :
    ∃ done, Progress dht d services done r := by
  induction h with
  | nil => exact ⟨[], progress_init dht d services⟩
  | snoc _ hs ih =>
    obtain ⟨done, hdone⟩ := ih
    exact hdone.step hs

/-- The loop gets to every entry of the snapshot. -/
theorem exists_run_to (dht : OpenDht H) (d : DiscoveryMessageHandler H)
    (done rest : List (String × String)) :
    ∃ tr r, Run (next dht d) (init d (done ++ rest)) tr r ∧ r.services = rest ∧
      r.putDone = false ∧ r.failed = false := by
  induction done using List.reverseRecOn generalizing rest with
  | nil => exact ⟨[], _, .nil, rfl, rfl, rfl⟩
  | append_singleton done service ih =>
    obtain ⟨tr, r, hrun, hserv, hput, hfailed⟩ := ih (service :: rest)
    let put : Recovery H :=
      { r with puts := r.puts ++ [zombiePut dht d service], putDone := true }
    have h₁ : next dht d r .dhtPut = some put := by
      simp [next, hserv, hput, hfailed, put]
    have h₂ : next dht d put (.del false)
        = some { put with db := r.db.del service.1, services := rest, putDone := false } := by
      simp [next, hserv, hfailed, put]
    rw [List.append_assoc]
    exact ⟨_, _, .snoc (.snoc hrun h₁) h₂, rfl, rfl, hfailed⟩

/-! ### What is lost -/

theorem zombiePut_injective (dht : OpenDht H) (d : DiscoveryMessageHandler H) :
    Function.Injective (zombiePut dht d) := by
  intro e e' h
  exact congrArg ZombiePut.service h

/-- The address of an entry whose key comes up first for another one is lost
after that one. -/
theorem not_recoverySafe {done rest : List (String × String)} {x y : String × String}
    (hsnap : Snapshot d (done ++ x :: rest)) (hy : y ∈ rest) (hkey : y.1 = x.1) :
    ¬ RecoverySafe dht d (done ++ x :: rest) := by
  intro hsafe
  have heq : done ++ x :: rest = (done ++ [x]) ++ rest := by simp
  obtain ⟨tr, r, hrun, hserv, hput, -⟩ := exists_run_to dht d (done ++ [x]) rest
  rw [← heq] at hrun
  obtain ⟨done', hprogress⟩ := exists_progress hrun
  obtain rfl : done' = done ++ [x] := by
    have hsplit := hprogress.split
    rw [hserv, heq] at hsplit
    exact (List.append_cancel_right hsplit).symm
  have hmem : y ∈ d.db := (hsnap.mem_iff y).mp (by simp [hy])
  rcases (hsafe tr r hrun).1 y hmem with hin | hin
  · rw [hprogress.puts, hput, if_neg Bool.false_ne_true, List.append_nil,
      List.mem_map_of_injective (zombiePut_injective dht d)] at hin
    have hnodup := hsnap.nodup
    rw [heq, List.nodup_append] at hnodup
    exact hnodup.2.2 y hin y hy rfl
  · exact ((hprogress.db y).mp hin).2 x (by simp) hkey

/-- Of two entries with one key, one is lost. -/
theorem eq_of_recoverySafe (hsnap : Snapshot d services) (hsafe : RecoverySafe dht d services)
    {e e' : String × String} (he : e ∈ d.db) (he' : e' ∈ d.db) (hkey : e.1 = e'.1) : e = e' := by
  by_contra hne
  have hmem := (hsnap.mem_iff e).mpr he
  have hmem' := (hsnap.mem_iff e').mpr he'
  obtain ⟨a, b, rfl⟩ := List.append_of_mem hmem
  rcases List.mem_append.mp hmem' with hin | hin
  · -- the other entry comes first
    obtain ⟨a₁, a₂, rfl⟩ := List.append_of_mem hin
    rw [List.append_assoc, List.cons_append] at hsafe hsnap
    exact not_recoverySafe hsnap (List.mem_append_right a₂ List.mem_cons_self) hkey hsafe
  · rcases List.mem_cons.mp hin with heq | hin
    · exact hne heq.symm
    · exact not_recoverySafe hsnap hin hkey.symm hsafe

/-! ### What is kept -/

/-- With one address for each key, an entry that is gone was deleted in its own
turn, after its put. -/
theorem Progress.put_or_stored {done : List (String × String)}
    (h : Progress dht d services done r) (hsnap : Snapshot d services)
    (honly : ∀ e ∈ d.db, ∀ e' ∈ d.db, e.1 = e'.1 → e = e') {e : String × String} (he : e ∈ d.db) :
    zombiePut dht d e ∈ r.puts ∨ e ∈ r.db := by
  have hdone : ∀ x ∈ done, x ∈ d.db := by
    intro x hx
    refine (hsnap.mem_iff x).mp ?_
    rw [h.split]
    exact List.mem_append_left _ hx
  by_cases hin : e ∈ done
  · refine .inl ?_
    rw [h.puts]
    exact List.mem_map_of_mem (List.mem_append_left _ hin)
  · refine .inr ((h.db e).mpr ⟨he, fun x hx hkey => hin ?_⟩)
    rw [honly e he x (hdone x hx) hkey]
    exact hx

/-- The loop has completed. -/
theorem Progress.completed {done : List (String × String)} (h : Progress dht d services done r)
    (hsnap : Snapshot d services) (hnil : r.services = []) :
    r.db = ∅ ∧ r.puts.Nodup ∧ ∀ p, p ∈ r.puts ↔ ∃ e ∈ d.db, p = zombiePut dht d e := by
  have hall : services = done := by
    rw [h.split, hnil, List.append_nil]
  have hputs : r.puts = services.map (zombiePut dht d) := by
    rw [h.puts, h.pending hnil, hall]
    simp
  refine ⟨?_, ?_, ?_⟩
  · refine Finset.eq_empty_of_forall_notMem fun e he => ?_
    obtain ⟨hdb, hkeys⟩ := (h.db e).mp he
    have hin : e ∈ done := hall ▸ (hsnap.mem_iff e).mpr hdb
    exact hkeys e hin rfl
  · rw [hputs]
    exact hsnap.nodup.map (zombiePut_injective dht d)
  · intro p
    rw [hputs, List.mem_map]
    constructor
    · rintro ⟨e, he, rfl⟩
      exact ⟨e, (hsnap.mem_iff e).mp he, rfl⟩
    · rintro ⟨e, he, rfl⟩
      exact ⟨e, (hsnap.mem_iff e).mpr he, rfl⟩

/-- **When the recovery loses nothing.**  Wherever the loop of `Init()` is cut
off, each entry of the database has been put under a zombie key or is still
there, and a loop that completes leaves an empty database and has made one put
for each entry, iff no key has two addresses. -/
theorem recoverySafe_iff (dht : OpenDht H) (hsnap : Snapshot d services) :
    RecoverySafe dht d services ↔ ∀ e ∈ d.db, ∀ e' ∈ d.db, e.1 = e'.1 → e = e' := by
  constructor
  · intro hsafe e he e' he' hkey
    exact eq_of_recoverySafe hsnap hsafe he he' hkey
  · intro honly tr r hrun
    obtain ⟨done, hprogress⟩ := exists_progress hrun
    exact ⟨fun e he => hprogress.put_or_stored hsnap honly he,
      fun hnil => hprogress.completed hsnap hnil⟩

/-! ### Concrete databases -/

/-- A handler that finds the given entries in the database. -/
def restarted (services : List (String × String)) : DiscoveryMessageHandler String :=
  { DiscoveryMessageHandler.init "mac" "10.0.0.1" with db := services.toFinset }

theorem snapshot_restarted (h : services.Nodup) : Snapshot (restarted services) services :=
  ⟨h, fun _ => List.mem_toFinset.symm⟩

/-- Two services with a key each. -/
theorem recoverySafe_two_keys :
    RecoverySafe DiscoveryMessageHandler.plainDht
      (restarted [("/app/Msg/rep", "10.0.0.1:5555"), ("/app/Other/rep", "10.0.0.1:5556")])
      [("/app/Msg/rep", "10.0.0.1:5555"), ("/app/Other/rep", "10.0.0.1:5556")] :=
  (recoverySafe_iff DiscoveryMessageHandler.plainDht (snapshot_restarted (by decide))).mpr
    (by decide)

/-- Two services under one key, as two processes register them. -/
def oneKey : List (String × String) :=
  [("/app/Msg/rep", "10.0.0.1:5555"), ("/app/Msg/rep", "10.0.0.1:5556")]

/-- After the first entry has been processed, the address of the second is
neither put nor stored. -/
theorem recovery_loses_address :
    ∃ tr r, Run (next DiscoveryMessageHandler.plainDht (restarted oneKey))
        (init (restarted oneKey) oneKey) tr r ∧
      (r.db = ∅ ∧ ∀ p ∈ r.puts, p.value ≠ .address "10.0.0.1:5556") ∧
      ¬ RecoverySafe DiscoveryMessageHandler.plainDht (restarted oneKey) oneKey := by
  obtain ⟨tr, r, hrun, hdb, hputs⟩ :=
    exists_run_of_replay (next DiscoveryMessageHandler.plainDht (restarted oneKey))
      (init (restarted oneKey) oneKey)
      (fun _ r => r.db = ∅ ∧ ∀ p ∈ r.puts, p.value ≠ .address "10.0.0.1:5556")
      [.dhtPut, .del false] (by decide)
  refine ⟨tr, r, hrun, ⟨hdb, hputs⟩, fun hsafe => ?_⟩
  rcases (hsafe tr r hrun).1 ("/app/Msg/rep", "10.0.0.1:5556") (by decide) with hput | hin
  · exact hputs _ hput rfl
  · rw [hdb] at hin
    cases hin

end Recovery

end Riaps
