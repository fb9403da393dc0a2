/-
The clients that are subscribed to a key.

`HandleServiceLookup` searches the list of a key for the new client before it
adds it, but the list is one of owning pointers and the search compares these:
every lookup adds its client.  So a list holds a client as often as the client
has been looked up for, and gets as many updates:

* `next_subscribed` — what an event does to the lists;
* `subscribed_run` — the lists are those of the lookups of the run;
* `subscriptions_unique_iff` — they have no duplicates iff no lookup is repeated.
-/
import RiapsCore.DiscoveryLoop
import RiapsCore.DiscoverySteps

open Runs

namespace Riaps

namespace DiscoveryMessageHandler

variable {H : Type*} {dht : OpenDht H} {d d' s : DiscoveryMessageHandler H} {l : Stamped}
  {mac host : String} {tr : List (Transition (DiscoveryMessageHandler H) Stamped)}
  {t : Transition (DiscoveryMessageHandler H) Stamped}

/-- The clients subscribed to a key. -/
def subscribed (d : DiscoveryMessageHandler H) (key : String) : List ClientDetails :=
  (d.clientSubscriptions.lookup key).getD []

/-- The client that `HandleServiceLookup` makes of a request. -/
def lookupClient (d : DiscoveryMessageHandler H) (req : ServiceLookupReq) : ClientDetails where
  appName := req.path.appName
  actorName := req.client.actorName
  actorHost := d.hostAddress
  instanceName := req.client.instanceName
  portName := req.client.portName
  isLocal := req.path.scope = .local

/-- The subscription that a lookup asks for: the key and the client. -/
def subscription (d : DiscoveryMessageHandler H) (l : Stamped) :
    Option (String × ClientDetails) :=
  match l.event with
  | .serviceLookup req => (d.buildLookupKey req.path).map fun key => (key, d.lookupClient req)
  | _ => none

/-- The subscriptions that the lookups of a run ask for. -/
def subscriptions (tr : List (Transition (DiscoveryMessageHandler H) Stamped)) :
    List (String × ClientDetails) :=
  tr.filterMap fun t => t.pre.subscription t.label

/-- The clients of a key among some subscriptions. -/
def clientsOf (key : String) (subs : List (String × ClientDetails)) : List ClientDetails :=
  subs.filterMap fun p => if p.1 = key then some p.2 else none

/-- No list of clients has a duplicate. -/
def UniqueSubscriptions (d : DiscoveryMessageHandler H) : Prop :=
  ∀ key clients, d.clientSubscriptions.lookup key = some clients → clients.Nodup

/-- What `HandleDhtUpdate` sends, with the client each update is for. -/
def updatesByClient (d : DiscoveryMessageHandler H) (zombies : Table String ℕ)
    (u : ProviderListUpdate) : List (ClientDetails × PortSend) :=
  (d.subscribed u.providerpath).flatMap fun c =>
    (u.newvalues.filterMap (d.portUpdateFor zombies c)).map fun p => (c, p)

/-- An update with one endpoint is sent at most once to each client. -/
def UpdatesOnce (d : DiscoveryMessageHandler H) : Prop :=
  ∀ zombies key endpoint,
    ((d.updatesByClient zombies ⟨key, [endpoint]⟩).map Prod.fst).Nodup

/-! ### Lists of subscriptions -/

theorem subscriptions_append (tr tr' : List (Transition (DiscoveryMessageHandler H) Stamped)) :
    subscriptions (tr ++ tr') = subscriptions tr ++ subscriptions tr' :=
  List.filterMap_append

/-- Pairs are distinct iff the second components are for each first one. -/
theorem nodup_iff_clientsOf (subs : List (String × ClientDetails)) :
    subs.Nodup ↔ ∀ key, (clientsOf key subs).Nodup := by
  have hcount : ∀ key c, (clientsOf key subs).count c = subs.count (key, c) := by
    intro key c
    induction subs with
    | nil => rfl
    | cons p subs ih =>
      rcases p with ⟨k, c'⟩
      rw [clientsOf] at ih ⊢
      rw [List.filterMap_cons]
      by_cases hk : k = key
      · subst hk
        simp [List.count_cons, ih]
      · simp [ih, hk]
  rw [List.nodup_iff_count_le_one]
  constructor
  · intro h key
    rw [List.nodup_iff_count_le_one]
    intro c
    rw [hcount]
    exact h (key, c)
  · rintro h ⟨key, c⟩
    rw [← hcount]
    exact List.nodup_iff_count_le_one.mp (h key) c

theorem uniqueSubscriptions_iff :
    UniqueSubscriptions d ↔ ∀ key, (d.subscribed key).Nodup := by
  constructor
  · intro h key
    rw [subscribed]
    rcases hkey : d.clientSubscriptions.lookup key with _ | clients
    · exact List.nodup_nil
    · exact h key clients hkey
  · intro h key clients hkey
    have hnodup := h key
    rwa [subscribed, hkey, Option.getD_some] at hnodup

/-! ### Updates -/

theorem map_snd_updatesByClient (d : DiscoveryMessageHandler H) (zombies : Table String ℕ)
    (u : ProviderListUpdate) :
    (d.updatesByClient zombies u).map Prod.snd = d.handleDhtUpdate zombies u := by
  rw [updatesByClient, handleDhtUpdate, subscribed, List.map_flatMap]
  rcases d.clientSubscriptions.lookup u.providerpath with _ | clients
  · rfl
  · simp [List.map_map]

theorem UniqueSubscriptions.updatesOnce (h : UniqueSubscriptions d) : UpdatesOnce d := by
  intro zombies key endpoint
  have hnodup : (d.subscribed key).Nodup := uniqueSubscriptions_iff.mp h key
  -- each client contributes itself at most once
  have hsub : ((d.updatesByClient zombies ⟨key, [endpoint]⟩).map Prod.fst).Sublist
      (d.subscribed key) := by
    rw [updatesByClient]
    generalize d.subscribed key = clients
    induction clients with
    | nil => exact List.nil_sublist _
    | cons c clients ih =>
      rw [List.flatMap_cons, List.map_append]
      rcases hp : d.portUpdateFor zombies c endpoint with _ | p
      · simpa [hp] using ih.cons c
      · simpa [hp] using ih.cons_cons c
  exact hnodup.sublist hsub

/-! ### One event -/

variable [DecidableEq H]

theorem handleServiceLookup_subscribed {req : ServiceLookupReq}
    {r : DiscoveryMessageHandler H × List (Outgoing H)}
    (h : d.handleServiceLookup dht req = some r) (key : String) :
    ∃ k, d.buildLookupKey req.path = some k ∧
      r.1.subscribed key
        = d.subscribed key ++ if k = key then [d.lookupClient req] else [] := by
  obtain ⟨k, hk, rfl⟩ := Option.map_eq_some_iff.mp h
  refine ⟨k, hk, ?_⟩
  rw [subscribed]
  dsimp only
  by_cases hkey : k = key
  · subst hkey
    rw [AList.lookup_insert, Option.getD_some, if_pos rfl]
    rfl
  · rw [AList.lookup_insert_ne (Ne.symm hkey), if_neg hkey, List.append_nil]
    rfl

/-- A lookup adds its client to its key, and nothing else changes the lists. -/
theorem next_subscribed (h : next dht d l = some d') (key : String) :
    d'.subscribed key = d.subscribed key ++ clientsOf key (d.subscription l).toList := by
  have hother : d.subscribed key = d.subscribed key ++ clientsOf key [] := by
    rw [clientsOf, List.filterMap_nil, List.append_nil]
  cases next_cases h with
  | @actorReg clock req answers =>
    obtain ⟨clients, listeners, heq⟩ := handleActorReg_eq d dht req answers
    rw [heq]
    exact hother
  | actorUnreg => exact hother
  | serviceReg hr =>
    obtain ⟨kv, -, rfl⟩ := Option.map_eq_some_iff.mp hr
    exact hother
  | serviceLookup hr =>
    obtain ⟨k, hk, hsub⟩ := handleServiceLookup_subscribed hr key
    rw [hsub, subscription]
    dsimp only
    rw [hk, Option.map_some, Option.toList_some, clientsOf]
    by_cases hkey : k = key
    · simp [hkey]
    · simp [hkey]
  | groupJoin => exact hother
  | renewServices => exact hother

/-! ### Runs -/

/-- **The lists are those of the lookups.** -/
theorem subscribed_run (h : Run (next dht) (init mac host) tr s) (key : String) :
    s.subscribed key = clientsOf key (subscriptions tr) := by
  induction h with
  | nil => rfl
  | @snoc tr s s' l _ hs ih =>
    have hlast : subscriptions [⟨s, l, s'⟩] = (s.subscription l).toList := by
      rw [subscriptions, List.filterMap_cons, List.filterMap_nil]
      rcases s.subscription l with _ | p
      · rfl
      · rfl
    rw [next_subscribed hs key, ih, subscriptions_append, hlast, clientsOf, clientsOf, clientsOf,
      List.filterMap_append]

/-- **When subscriptions are unique.**  In a run from a new handler, no list of
clients ever has a duplicate, so that an update with one endpoint is sent at most
once to each client, iff no two lookups of the run ask for the same client under
the same key. -/
theorem subscriptions_unique_iff (h : Run (next dht) (init mac host) tr s) :
    (∀ t ∈ tr, UniqueSubscriptions t.post ∧ UpdatesOnce t.post) ↔ (subscriptions tr).Nodup := by
  have hreached : ∀ {tr₁ tr₂ t}, tr = tr₁ ++ t :: tr₂ →
      (UniqueSubscriptions t.post ↔ (subscriptions (tr₁ ++ [t])).Nodup) := by
    rintro tr₁ tr₂ t rfl
    obtain ⟨h₁, hs, -⟩ := h.at_split
    rw [uniqueSubscriptions_iff, nodup_iff_clientsOf]
    exact forall_congr' fun key => by rw [subscribed_run (.snoc h₁ hs) key]
  constructor
  · intro hall
    rcases List.eq_nil_or_concat' tr with rfl | ⟨tr₁, t, rfl⟩
    · exact List.nodup_nil
    · exact (hreached rfl).mp (hall t (by simp)).1
  · intro hnodup t ht
    obtain ⟨tr₁, tr₂, rfl⟩ := List.append_of_mem ht
    have hunique : UniqueSubscriptions t.post := by
      rw [hreached rfl]
      rw [List.append_cons, subscriptions_append] at hnodup
      exact (List.nodup_append.mp hnodup).1
    exact ⟨hunique, hunique.updatesOnce⟩

/-! ### Concrete runs -/

/-- The actor `A` looks for a response service, on the port `port`. -/
def requestLookup (port : String) : ServiceLookupReq :=
  ⟨⟨"app", "Msg", .req, .global⟩, ⟨"h", "A", "i", port⟩⟩

/-- Two ports of one actor. -/
theorem subscriptions_unique_two_ports :
    ∃ tr s, Run (next plainDht) (init "mac" "10.0.0.1") tr s ∧
      (s.subscribed "/app/Msg/rep").length = 2 ∧
      ∀ t ∈ tr, UniqueSubscriptions t.post ∧ UpdatesOnce t.post := by
  obtain ⟨tr, s, hrun, hlen, hnodup⟩ :=
    exists_run_of_replay (next plainDht) (init "mac" "10.0.0.1")
      (fun tr s => (s.subscribed "/app/Msg/rep").length = 2 ∧ (subscriptions tr).Nodup)
      [⟨0, .actorReg actorA bound⟩, ⟨10, .serviceLookup (requestLookup "p")⟩,
        ⟨20, .serviceLookup (requestLookup "q")⟩] (by decide)
  exact ⟨tr, s, hrun, hlen, (subscriptions_unique_iff hrun).mpr hnodup⟩

/-- The actor is started again and looks for the same service: it is subscribed
twice, and one new endpoint is sent to it twice. -/
theorem repeated_lookup_subscribes_twice :
    ∃ tr s, Run (next plainDht) (init "mac" "10.0.0.1") tr s ∧
      (s.handleDhtUpdate ∅ ⟨"/app/Msg/rep", ["10.0.0.2:5555"]⟩).length = 2 ∧
      ¬ UniqueSubscriptions s ∧ ¬ UpdatesOnce s := by
  obtain ⟨tr, s, hrun, htwo, hsub, hupd⟩ :=
    exists_run_of_replay (next plainDht) (init "mac" "10.0.0.1")
      (fun _ s =>
        (s.handleDhtUpdate ∅ ⟨"/app/Msg/rep", ["10.0.0.2:5555"]⟩).length = 2 ∧
          ¬ (s.subscribed "/app/Msg/rep").Nodup ∧
          ¬ ((s.updatesByClient ∅ ⟨"/app/Msg/rep", ["10.0.0.2:5555"]⟩).map Prod.fst).Nodup)
      [⟨0, .actorReg actorA bound⟩, ⟨10, .serviceLookup (requestLookup "p")⟩,
        ⟨20, .actorReg actorA ⟨fun _ => false, 1, 40002⟩⟩,
        ⟨30, .serviceLookup (requestLookup "p")⟩] (by decide)
  refine ⟨tr, s, hrun, htwo, fun hunique => ?_, fun honce => ?_⟩
  · exact hsub (uniqueSubscriptions_iff.mp hunique _)
  · exact hupd (honce ∅ _ _)

end DiscoveryMessageHandler

end Riaps
