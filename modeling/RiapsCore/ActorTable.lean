/-
The table of the registered actors.

An actor has three keys in `clients_`: its name, and its name with the MAC
address and with the IP address of the node appended.  The name ends with a `/`
and the addresses have none, so that the keys of different actors differ:

* `next_clients` — an event gives an actor all of its keys, takes all of them
  away, or leaves the table alone;
* `actorTable_run` — the three keys of an actor are all absent or all mapped to
  the same details, and different actors have different sockets;
* `count_groupSockets` — the loop over the table sends to a socket at most once;
* `unregistration_inert_iff` — what an unregistration that fails has done.
-/
import RiapsCore.DiscoveryLoop
import RiapsCore.DiscoverySteps
import RiapsCore.ServiceKeys

open Runs

namespace Riaps

namespace DiscoveryMessageHandler

variable {H : Type*} {dht : OpenDht H} {d d' s : DiscoveryMessageHandler H} {l : Stamped}
  {mac host app app' actor actor' k x x' : String}
  {tr : List (Transition (DiscoveryMessageHandler H) Stamped)}

/-- The keys of an actor. -/
def actorKeys (d : DiscoveryMessageHandler H) (appName actorName : String) : List String :=
  let base := clientKeyBase appName actorName
  [base, base ++ d.macAddress, base ++ d.hostAddress]

/-- The addresses of the node are usable in keys. -/
structure NodeNames (mac host : String) : Prop where
  mac_ne : mac ≠ ""
  host_ne : host ≠ ""
  ne : mac ≠ host
  mac_noSlash : NoSlash mac
  host_noSlash : NoSlash host

/-- Unless the registration is refused, `zsock_new` returns a socket that no
actor has; the old instance of the registered actor has been purged before. -/
def FreshSocket (d : DiscoveryMessageHandler H) (l : Stamped) : Prop :=
  match l.event with
  | .actorReg req answers =>
    (d.clients.lookup (clientKeyBase req.appName req.actorName)).any
      (fun old => answers.isRunning old.pid) = true ∨
    ∀ e ∈ (d.deregisterActor req.appName req.actorName).2.clients.entries,
      e.2.socket ≠ answers.socket
  | _ => True

instance : ∀ l, Decidable (FreshSocket d l)
  | ⟨_, .actorReg _ _⟩ => inferInstanceAs (Decidable (_ ∨ ∀ e ∈ _, _))
  | ⟨_, .actorUnreg _ _⟩ | ⟨_, .serviceReg _ _⟩ | ⟨_, .serviceLookup _⟩ | ⟨_, .groupJoin _⟩
  | ⟨_, .renewServices⟩ => .isTrue trivial

/-! ### Keys -/

theorem mem_actorKeys :
    k ∈ d.actorKeys app actor ↔
      ∃ x, (x = "" ∨ x = d.macAddress ∨ x = d.hostAddress) ∧
        k = clientKeyBase app actor ++ x := by
  simp [actorKeys]

theorem clientKeyBase_mem_actorKeys : clientKeyBase app actor ∈ d.actorKeys app actor :=
  List.mem_cons_self

/-- What is appended to the name of an actor can be read off the key. -/
theorem clientKeyBase_append_inj (hx : NoSlash x) (hx' : NoSlash x') :
    clientKeyBase app actor ++ x = clientKeyBase app' actor' ++ x' ↔
      clientKeyBase app actor = clientKeyBase app' actor' ∧ x = x' := by
  have hlist : ∀ a b y : String, (clientKeyBase a b ++ y).toList
      = ("/" ++ a ++ "/" ++ b).toList ++ '/' :: y.toList := by
    intro a b y
    simp [clientKeyBase]
  have hbase : ∀ a b a' b' : String, clientKeyBase a b = clientKeyBase a' b' ↔
      ("/" ++ a ++ "/" ++ b).toList = ("/" ++ a' ++ "/" ++ b').toList := by
    intro a b a' b'
    simp only [clientKeyBase, ← String.toList_inj, String.toList_append,
      List.append_cancel_right_eq]
  rw [← String.toList_inj, hlist, hlist, Separators.sep_append_inj hx hx', hbase]
  exact and_congr_right fun _ => String.toList_inj

/-- Actors with different names have no key in common. -/
theorem clientKeyBase_eq_of_mem_actorKeys (hn : NodeNames d.macAddress d.hostAddress)
    (hk : k ∈ d.actorKeys app actor) (hk' : k ∈ d.actorKeys app' actor') :
    clientKeyBase app actor = clientKeyBase app' actor' := by
  have hslash : ∀ x, x = "" ∨ x = d.macAddress ∨ x = d.hostAddress → NoSlash x := by
    rintro x (rfl | rfl | rfl)
    · exact List.not_mem_nil
    · exact hn.mac_noSlash
    · exact hn.host_noSlash
  obtain ⟨x, hx, rfl⟩ := mem_actorKeys.mp hk
  obtain ⟨x', hx', heq⟩ := mem_actorKeys.mp hk'
  exact ((clientKeyBase_append_inj (hslash x hx) (hslash x' hx')).mp heq).1

theorem actorKeys_congr (h : clientKeyBase app actor = clientKeyBase app' actor') :
    d.actorKeys app actor = d.actorKeys app' actor' := by
  rw [actorKeys, actorKeys, h]

/-! ### One event -/

theorem lookup_deregisterActor (d : DiscoveryMessageHandler H) (appName actorName k : String) :
    (d.deregisterActor appName actorName).2.clients.lookup k
      = if k ∈ d.actorKeys appName actorName then none else d.clients.lookup k := by
  ext y
  simp only [deregisterActor, Table.lookup_erase, actorKeys, List.mem_cons, List.not_mem_nil,
    or_false]
  split
  · rename_i hk
    simp only [reduceCtorEq, iff_false]
    rintro ⟨h₁, h₂, h₃, -⟩
    rcases hk with hk | hk | hk
    · exact h₃ hk
    · exact h₂ hk
    · exact h₁ hk
  · rename_i hk
    rw [not_or, not_or] at hk
    exact ⟨fun h => h.2.2.2, fun h => ⟨hk.2.2, hk.2.1, hk.1, h⟩⟩

theorem lookup_registerActor (d : DiscoveryMessageHandler H) (dht : OpenDht H) (req : ActorReq)
    (answers : ActorRegAnswers) (k : String) :
    (d.registerActor dht req answers).1.clients.lookup k
      = if k ∈ d.actorKeys req.appName req.actorName then
          some ⟨answers.socket, answers.port, req.pid, req.appName⟩
        else d.clients.lookup k := by
  simp only [registerActor, actorKeys, List.mem_cons, List.not_mem_nil, or_false]
  by_cases h₁ : k = clientKeyBase req.appName req.actorName ++ d.hostAddress
  · rw [h₁, AList.lookup_insert, if_pos (.inr (.inr rfl))]
  · rw [AList.lookup_insert_ne h₁]
    by_cases h₂ : k = clientKeyBase req.appName req.actorName ++ d.macAddress
    · rw [h₂, AList.lookup_insert, if_pos (.inr (.inl rfl))]
    · rw [AList.lookup_insert_ne h₂]
      by_cases h₃ : k = clientKeyBase req.appName req.actorName
      · rw [h₃, AList.lookup_insert, if_pos (.inl rfl)]
      · rw [AList.lookup_insert_ne h₃, if_neg (by simp [h₁, h₂, h₃])]

/-- Everything an event can do to `clients_`. -/
inductive ActorStep (d : DiscoveryMessageHandler H) :
    Stamped → DiscoveryMessageHandler H → Prop
  | registered {clock : ℕ} {req : ActorReq} {answers : ActorRegAnswers}
      {d' : DiscoveryMessageHandler H} :
      (∀ old, d.clients.lookup (clientKeyBase req.appName req.actorName) = some old →
        answers.isRunning old.pid = false) →
      (∀ k, d'.clients.lookup k = if k ∈ d.actorKeys req.appName req.actorName then
        some ⟨answers.socket, answers.port, req.pid, req.appName⟩ else d.clients.lookup k) →
      ActorStep d ⟨clock, .actorReg req answers⟩ d'
  | unregistered {clock : ℕ} {req : ActorReq} {failed : Finset ℕ}
      {d' : DiscoveryMessageHandler H} :
      (∀ k, d'.clients.lookup k = if k ∈ d.actorKeys req.appName req.actorName then none
        else d.clients.lookup k) →
      ActorStep d ⟨clock, .actorUnreg req failed⟩ d'
  | other {l : Stamped} {d' : DiscoveryMessageHandler H} :
      d'.clients = d.clients → ActorStep d l d'

theorem handleActorReg_clients (d : DiscoveryMessageHandler H) (dht : OpenDht H) (req : ActorReq)
    (answers : ActorRegAnswers) (clock : ℕ) :
    ActorStep d ⟨clock, .actorReg req answers⟩ (d.handleActorReg dht req answers).1 := by
  rw [handleActorReg]
  split
  · rename_i hnone
    refine .registered (fun old hold => ?_) (lookup_registerActor d dht req answers)
    rw [hnone] at hold
    cases hold
  · rename_i old hold
    split
    · exact .other rfl
    · rename_i hdead
      refine .registered (fun old' hold' => ?_) (fun k => ?_)
      · rw [hold, Option.some_inj] at hold'
        rw [← hold']
        exact eq_false_of_ne_true hdead
      · -- the purged keys are taken again
        rw [lookup_registerActor, lookup_deregisterActor]
        have hkeys : (d.deregisterActor req.appName req.actorName).2.actorKeys req.appName
            req.actorName = d.actorKeys req.appName req.actorName := rfl
        rw [hkeys]
        by_cases hk : k ∈ d.actorKeys req.appName req.actorName
        · rw [if_pos hk, if_pos hk]
        · rw [if_neg hk, if_neg hk, if_neg hk]

section

variable [DecidableEq H]

/-- **Every event is one of the listed steps**, and the addresses of the node
stay. -/
theorem next_clients (h : next dht d l = some d') :
    ActorStep d l d' ∧ d'.macAddress = d.macAddress ∧ d'.hostAddress = d.hostAddress := by
  cases next_cases h with
  | @actorReg clock req answers =>
    refine ⟨handleActorReg_clients d dht req answers clock, ?_⟩
    obtain ⟨clients, listeners, heq⟩ := handleActorReg_eq d dht req answers
    rw [heq]
    exact ⟨rfl, rfl⟩
  | @actorUnreg clock req failed =>
    refine ⟨.unregistered fun k => ?_, rfl, rfl⟩
    exact lookup_deregisterActor { d with db := _ } req.appName req.actorName k
  | serviceReg hr =>
    obtain ⟨kv, -, rfl⟩ := Option.map_eq_some_iff.mp hr
    exact ⟨.other rfl, rfl, rfl⟩
  | serviceLookup hr =>
    obtain ⟨key, -, rfl⟩ := Option.map_eq_some_iff.mp hr
    exact ⟨.other rfl, rfl, rfl⟩
  | groupJoin => exact ⟨.other rfl, rfl, rfl⟩
  | renewServices => exact ⟨.other rfl, rfl, rfl⟩

end

/-! ### The table -/

/-- The state of the table between two events. -/
structure ActorTable (d : DiscoveryMessageHandler H) : Prop where
  aliases : ∀ app actor, ∀ k ∈ d.actorKeys app actor,
    d.clients.lookup k = d.clients.lookup (clientKeyBase app actor)
  keys : ∀ k ∈ d.clients, ∃ app actor, k ∈ d.actorKeys app actor
  sockets : ∀ app actor app' actor' x x',
    d.clients.lookup (clientKeyBase app actor) = some x →
    d.clients.lookup (clientKeyBase app' actor') = some x' → x.socket = x'.socket →
    clientKeyBase app actor = clientKeyBase app' actor'

theorem ActorTable.of_same (ht : ActorTable d) (hkeys : ∀ a b, d'.actorKeys a b = d.actorKeys a b)
    (hsame : d'.clients = d.clients) : ActorTable d' := by
  constructor
  · intro a b k hk
    rw [hkeys] at hk
    rw [hsame]
    exact ht.aliases a b k hk
  · intro k hk
    rw [hsame] at hk
    obtain ⟨a, b, hab⟩ := ht.keys k hk
    exact ⟨a, b, (hkeys a b).symm ▸ hab⟩
  · intro a b a' b' x x' hx hx'
    rw [hsame] at hx hx'
    exact ht.sockets a b a' b' x x' hx hx'

/-- Giving an actor all of its keys, or taking all of them away, keeps the table
in order. -/
theorem ActorTable.update (ht : ActorTable d) (hn : NodeNames d.macAddress d.hostAddress)
    {new : Option ActorDetails}
    (hfresh : ∀ y ∈ new, ∀ k x, (d.deregisterActor app actor).2.clients.lookup k = some x →
      x.socket ≠ y.socket)
    (hkeys : ∀ a b, d'.actorKeys a b = d.actorKeys a b)
    (hlook : ∀ k, d'.clients.lookup k
      = if k ∈ d.actorKeys app actor then new else d.clients.lookup k) : ActorTable d' := by
  -- the name of another actor is none of the keys that change
  have hother : ∀ a b, clientKeyBase a b ≠ clientKeyBase app actor →
      clientKeyBase a b ∉ d.actorKeys app actor := by
    intro a b hab hk
    exact hab (clientKeyBase_eq_of_mem_actorKeys hn clientKeyBase_mem_actorKeys hk)
  have hbase : ∀ a b, d'.clients.lookup (clientKeyBase a b)
      = if clientKeyBase a b = clientKeyBase app actor then new
        else d.clients.lookup (clientKeyBase a b) := by
    intro a b
    rw [hlook]
    by_cases hab : clientKeyBase a b = clientKeyBase app actor
    · rw [if_pos hab, if_pos (hab ▸ clientKeyBase_mem_actorKeys)]
    · rw [if_neg hab, if_neg (hother a b hab)]
  have hold : ∀ a b x, clientKeyBase a b ≠ clientKeyBase app actor →
      d.clients.lookup (clientKeyBase a b) = some x → ∀ y ∈ new, x.socket ≠ y.socket := by
    intro a b x hab hx y hy
    refine hfresh y hy (clientKeyBase a b) x ?_
    rw [lookup_deregisterActor, if_neg (hother a b hab), hx]
  constructor
  · intro a b k hk
    rw [hkeys] at hk
    rw [hbase, hlook]
    by_cases hab : clientKeyBase a b = clientKeyBase app actor
    · rw [if_pos hab, if_pos (actorKeys_congr hab ▸ hk)]
    · rw [if_neg hab, if_neg fun hk' => hab (clientKeyBase_eq_of_mem_actorKeys hn hk hk'),
        ht.aliases a b k hk]
  · intro k hk
    obtain ⟨x, hx⟩ := Table.mem_iff_lookup.mp hk
    rw [hlook] at hx
    by_cases hnew : k ∈ d.actorKeys app actor
    · exact ⟨app, actor, (hkeys app actor).symm ▸ hnew⟩
    · rw [if_neg hnew] at hx
      obtain ⟨a, b, hab⟩ := ht.keys k (Table.mem_iff_lookup.mpr ⟨x, hx⟩)
      exact ⟨a, b, (hkeys a b).symm ▸ hab⟩
  · intro a b a' b' x x' hx hx' hsock
    rw [hbase] at hx hx'
    by_cases hab : clientKeyBase a b = clientKeyBase app actor <;>
      by_cases hab' : clientKeyBase a' b' = clientKeyBase app actor
    · rw [hab, hab']
    · rw [if_pos hab] at hx
      rw [if_neg hab'] at hx'
      exact absurd hsock.symm (hold a' b' x' hab' hx' x hx)
    · rw [if_neg hab] at hx
      rw [if_pos hab'] at hx'
      exact absurd hsock (hold a b x hab hx x' hx')
    · rw [if_neg hab] at hx
      rw [if_neg hab'] at hx'
      exact ht.sockets a b a' b' x x' hx hx' hsock

/-! ### Group updates -/

/-- The loop over the actors sends once to each socket of the application that
is not in the cache yet. -/
theorem count_groupSockets (appName : String) (socket : ℕ) (actors : List ActorDetails)
    (sentCache : Finset ℕ) :
    (groupSockets appName sentCache actors).count socket
      = if socket ∉ sentCache ∧ ∃ x ∈ actors, x.appName = appName ∧ x.socket = socket then 1
        else 0 := by
  induction actors generalizing sentCache with
  | nil => simp [groupSockets]
  | cons x rest ih =>
    rw [groupSockets]
    by_cases happ : x.appName = appName
    · rw [if_pos happ]
      by_cases hsent : x.socket ∈ sentCache
      · rw [if_pos hsent, ih]
        refine if_congr ?_ rfl rfl
        refine and_congr_right fun hnot => ?_
        have hne : x.socket ≠ socket := fun heq => hnot (heq ▸ hsent)
        simp [hne]
      · rw [if_neg hsent, List.count_cons, ih]
        by_cases heq : x.socket = socket
        · subst heq
          simp [happ, hsent]
        · simp [happ, heq, Ne.symm heq]
    · rw [if_neg happ, ih]
      simp [happ]

/-- The details in the table are those of the registered actors. -/
theorem ActorTable.mem_details (ht : ActorTable s) {x : ActorDetails} :
    x ∈ s.clients.entries.map Sigma.snd ↔
      ∃ app actor, s.clients.lookup (clientKeyBase app actor) = some x := by
  constructor
  · intro hx
    obtain ⟨⟨k, y⟩, he, rfl⟩ := List.mem_map.mp hx
    have hk : s.clients.lookup k = some y := AList.mem_lookup_iff.mpr he
    obtain ⟨app, actor, hkey⟩ := ht.keys k (Table.mem_iff_lookup.mpr ⟨y, hk⟩)
    exact ⟨app, actor, (ht.aliases app actor k hkey).symm.trans hk⟩
  · rintro ⟨app, actor, hx⟩
    exact List.mem_map.mpr ⟨_, AList.mem_lookup_iff.mp hx, rfl⟩

/-- A group update is sent once to each registered actor of the application. -/
theorem ActorTable.count_handleDhtGroupUpdate (ht : ActorTable s) (u : GroupUpdate)
    {x : ActorDetails} (hx : s.clients.lookup (clientKeyBase app actor) = some x) :
    (s.handleDhtGroupUpdate u).count (x.socket, u) = if x.appName = u.appName then 1 else 0 := by
  have hinj : Function.Injective fun socket : ℕ => (socket, u) :=
    fun _ _ h => congrArg Prod.fst h
  rw [handleDhtGroupUpdate, List.count_map_of_injective _ _ hinj, count_groupSockets]
  refine if_congr ?_ rfl rfl
  constructor
  · rintro ⟨-, y, hy, happ, hsock⟩
    -- the socket belongs to one actor only
    obtain ⟨app', actor', hy⟩ := ht.mem_details.mp hy
    have hsame := ht.sockets _ _ _ _ _ _ hy hx hsock
    rw [hsame, hx, Option.some_inj] at hy
    rw [hy]
    exact happ
  · intro happ
    exact ⟨Finset.notMem_empty _, x, ht.mem_details.mpr ⟨app, actor, hx⟩, happ, rfl⟩

/-- It is sent to nobody else. -/
theorem ActorTable.mem_handleDhtGroupUpdate (ht : ActorTable s) {u : GroupUpdate}
    {m : ℕ × GroupUpdate} (hm : m ∈ s.handleDhtGroupUpdate u) :
    m.2 = u ∧ ∃ app actor x, s.clients.lookup (clientKeyBase app actor) = some x ∧
      x.appName = u.appName ∧ x.socket = m.1 := by
  obtain ⟨socket, hsocket, rfl⟩ := List.mem_map.mp hm
  refine ⟨rfl, ?_⟩
  have hpos := List.count_pos_iff.mpr hsocket
  rw [count_groupSockets] at hpos
  split at hpos
  · rename_i h
    obtain ⟨-, x, hx, happ, hsock⟩ := h
    obtain ⟨app, actor, hx⟩ := ht.mem_details.mp hx
    exact ⟨app, actor, x, hx, happ, hsock⟩
  · omega

/-- A refused registration changes nothing. -/
theorem handleActorReg_refused {req : ActorReq} {answers : ActorRegAnswers} {port : Int32}
    (h : .reply (.actorReg .err port) ∈ (d.handleActorReg dht req answers).2) :
    (d.handleActorReg dht req answers).1 = d := by
  have hok : ∀ e : DiscoveryMessageHandler H,
      .reply (.actorReg .err port) ∉ (e.registerActor dht req answers).2 := by
    intro e
    rw [registerActor]
    split <;> simp
  rw [handleActorReg] at h ⊢
  split at h
  · exact absurd h (hok d)
  · split at h
    · rename_i hrun
      rw [if_pos hrun]
    · exact absurd h (hok _)

/-! ### Runs -/

section

variable [DecidableEq H]

/-- Every reachable table is in order. -/
theorem actorTable_run (hn : NodeNames mac host) (h : Run (next dht) (init mac host) tr s)
    (hfresh : ∀ t ∈ tr, FreshSocket t.pre t.label) :
    ActorTable s ∧ s.macAddress = mac ∧ s.hostAddress = host := by
  refine (h.invariant (fun d => ActorTable d ∧ d.macAddress = mac ∧ d.hostAddress = host)
    FreshSocket ?_ ?_ hfresh).1
  · refine ⟨⟨fun _ _ _ _ => rfl, fun k hk => ?_, ?_⟩, rfl, rfl⟩
    · exact absurd hk (AList.notMem_empty k)
    · intro a b a' b' x x' hx
      cases hx
  · rintro d l d' hfresh ⟨ht, rfl, rfl⟩ hs
    obtain ⟨hstep, hmac, hhost⟩ := next_clients hs
    refine ⟨?_, hmac, hhost⟩
    have hkeys : ∀ a b, d'.actorKeys a b = d.actorKeys a b := by
      intro a b
      rw [actorKeys, actorKeys, hmac, hhost]
    cases hstep with
    | registered hdead hlook =>
      refine ht.update hn (fun y hy k x hx => ?_) hkeys hlook
      rw [← Option.some_inj.mp hy]
      rcases hfresh with hrefused | hsockets
      · obtain ⟨old, hold, hrunning⟩ := (Option.any_eq_true _ _).mp hrefused
        rw [hdead old hold] at hrunning
        cases hrunning
      · exact hsockets ⟨k, x⟩ (AList.mem_lookup_iff.mp hx)
    | unregistered hlook =>
      refine ht.update hn ?_ hkeys hlook
      intro y hy
      cases hy
    | other hsame => exact ht.of_same hkeys hsame

/-- **Integrity of the actor table, and one group update per actor.**  On a node
with usable addresses, whatever is requested: in every reachable state the three
keys of an actor are all absent or all mapped to the same details, different
actors have different sockets and there are no other keys; a registration that
is refused changes nothing; and a group update goes to each registered actor of
its application exactly once, and to nobody else. -/
theorem actor_table (hn : NodeNames mac host) (h : Run (next dht) (init mac host) tr s)
    (hfresh : ∀ t ∈ tr, FreshSocket t.pre t.label) :
    ActorTable s ∧
    (∀ req answers port, .reply (.actorReg .err port) ∈ (s.handleActorReg dht req answers).2 →
      (s.handleActorReg dht req answers).1.clients = s.clients) ∧
    (∀ u app actor x, s.clients.lookup (clientKeyBase app actor) = some x →
      (s.handleDhtGroupUpdate u).count (x.socket, u) = if x.appName = u.appName then 1 else 0) ∧
    ∀ u, ∀ m ∈ s.handleDhtGroupUpdate u, m.2 = u ∧
      ∃ app actor x, s.clients.lookup (clientKeyBase app actor) = some x ∧
        x.appName = u.appName ∧ x.socket = m.1 := by
  have ht := (actorTable_run hn h hfresh).1
  refine ⟨ht, ?_, ?_, ?_⟩
  · intro req answers port hrefused
    rw [handleActorReg_refused hrefused]
  · intro u app actor x hx
    exact ht.count_handleDhtGroupUpdate u hx
  · intro u m hm
    exact ht.mem_handleDhtGroupUpdate hm

/-- Two actors of one application; the first is started again after a crash. -/
theorem actor_table_restart :
    ∃ tr s, Run (next plainDht) (init "mac" "10.0.0.1") tr s ∧ s.clients.size = 6 ∧
      ActorTable s ∧ (s.handleDhtGroupUpdate ⟨"app", ⟨"g", "1"⟩, "c", []⟩).length = 2 := by
  obtain ⟨tr, s, hrun, ⟨hsize, hlen⟩, hfresh⟩ :=
    exists_run_of_replay (next plainDht) (init "mac" "10.0.0.1")
      (fun tr s =>
        (s.clients.size = 6 ∧
          (s.handleDhtGroupUpdate ⟨"app", ⟨"g", "1"⟩, "c", []⟩).length = 2) ∧
          ∀ t ∈ tr, FreshSocket t.pre t.label)
      [⟨0, .actorReg actorA bound⟩, ⟨5, .actorReg ⟨"app", "B", 8⟩ ⟨fun _ => true, 1, 40002⟩⟩,
        ⟨10, .actorReg actorA ⟨fun _ => true, 2, 40003⟩⟩, ⟨20, .actorReg actorA bound⟩] (by decide)
  have hn : NodeNames "mac" "10.0.0.1" :=
    ⟨by decide, by decide, by decide, by decide, by decide⟩
  exact ⟨tr, s, hrun, hsize, (actor_table hn hrun hfresh).1, hlen⟩

end

/-! ### Unregistrations that fail -/

/-- If the answer is ERR, nothing was put into the hash table and the actors,
the services and the database are what they were. -/
def UnregistrationInert (dht : OpenDht H) (d : DiscoveryMessageHandler H) (req : ActorReq)
    (failed : Finset ℕ) : Prop :=
  (∃ port, .reply (.actorUnreg .err port) ∈ (d.handleActorUnreg dht req failed).2) →
    (∀ key value, .put key value ∉ (d.handleActorUnreg dht req failed).2) ∧
    (d.handleActorUnreg dht req failed).1.clients = d.clients ∧
    (d.handleActorUnreg dht req failed).1.serviceCheckins = d.serviceCheckins ∧
    (d.handleActorUnreg dht req failed).1.db = d.db

/-- The answer is ERR unless the actor is there and its socket is bound. -/
theorem handleActorUnreg_err_iff (d : DiscoveryMessageHandler H) (dht : OpenDht H)
    (req : ActorReq) (failed : Finset ℕ) :
    (∃ port, .reply (.actorUnreg .err port) ∈ (d.handleActorUnreg dht req failed).2) ↔
      ∀ x, d.clients.lookup (clientKeyBase req.appName req.actorName) = some x → x.port = -1 := by
  rcases hlook : d.clients.lookup (clientKeyBase req.appName req.actorName) with _ | x
  · simp [handleActorUnreg, deregisterActor, hlook]
  · by_cases hport : x.port = -1
    · simp [handleActorUnreg, deregisterActor, hlook, hport]
    · simp [handleActorUnreg, deregisterActor, hlook, hport]

theorem handleActorUnreg_put_iff (d : DiscoveryMessageHandler H) (dht : OpenDht H)
    (req : ActorReq) (failed : Finset ℕ) :
    (∀ key value, .put key value ∉ (d.handleActorUnreg dht req failed).2) ↔
      d.checkins req.pid = [] := by
  rw [handleActorUnreg]
  constructor
  · intro hnone
    refine List.eq_nil_iff_forall_not_mem.mpr fun c hc => ?_
    refine hnone (dht.get (d.zombieKey c.value)) (.address c.value) ?_
    exact List.mem_append_left _ (List.mem_map_of_mem hc)
  · intro hnil key value
    rw [hnil]
    simp

theorem handleActorUnreg_clients_iff (d : DiscoveryMessageHandler H) (dht : OpenDht H)
    (req : ActorReq) (failed : Finset ℕ) :
    (d.handleActorUnreg dht req failed).1.clients = d.clients ↔
      ∀ k ∈ d.actorKeys req.appName req.actorName, k ∉ d.clients := by
  have hlook : ∀ k, (d.handleActorUnreg dht req failed).1.clients.lookup k
      = if k ∈ d.actorKeys req.appName req.actorName then none else d.clients.lookup k :=
    fun k => lookup_deregisterActor { d with db := _ } req.appName req.actorName k
  constructor
  · intro hsame k hk hmem
    obtain ⟨x, hx⟩ := Table.mem_iff_lookup.mp hmem
    rw [← hsame, hlook, if_pos hk] at hx
    cases hx
  · intro hnone
    have hgone : ∀ k ∈ d.actorKeys req.appName req.actorName, d.clients.erase k = d.clients :=
      fun k hk => Table.erase_of_notMem (hnone k hk)
    simp only [actorKeys, List.forall_mem_cons] at hgone
    obtain ⟨hbase, hlocal, hglobal, -⟩ := hgone
    simp only [handleActorUnreg, deregisterActor]
    rw [hbase, hlocal, hglobal]

/-- **When a failed unregistration changes nothing**: iff it does not fail, the
actor being there with a bound socket, or there is nothing to change: the
process has no services and the actor no keys. -/
theorem unregistration_inert_iff (d : DiscoveryMessageHandler H) (dht : OpenDht H)
    (req : ActorReq) (failed : Finset ℕ) :
    UnregistrationInert dht d req failed ↔
      (∃ x, d.clients.lookup (clientKeyBase req.appName req.actorName) = some x ∧
        x.port ≠ -1) ∨
      d.checkins req.pid = [] ∧
        ∀ k ∈ d.actorKeys req.appName req.actorName, k ∉ d.clients := by
  have hcheckins : (d.handleActorUnreg dht req failed).1.serviceCheckins = d.serviceCheckins := rfl
  have hdb : d.checkins req.pid = [] → (d.handleActorUnreg dht req failed).1.db = d.db := by
    intro hnil
    simp only [handleActorUnreg, deregisterActor]
    rw [hnil]
    rfl
  rw [UnregistrationInert, handleActorUnreg_err_iff, handleActorUnreg_put_iff,
    handleActorUnreg_clients_iff]
  by_cases herr : ∀ x, d.clients.lookup (clientKeyBase req.appName req.actorName) = some x →
      x.port = -1
  · have hnotok : ¬ ∃ x, d.clients.lookup (clientKeyBase req.appName req.actorName) = some x ∧
        x.port ≠ -1 := by
      rintro ⟨x, hx, hport⟩
      exact hport (herr x hx)
    constructor
    · intro hinert
      obtain ⟨hput, hclients, -⟩ := hinert herr
      exact .inr ⟨hput, hclients⟩
    · rintro (hok | ⟨hput, hclients⟩) -
      · exact absurd hok hnotok
      · exact ⟨hput, hclients, hcheckins, hdb hput⟩
  · refine iff_of_true (fun h => absurd h herr) (.inl ?_)
    push Not at herr
    exact herr

/-- A process with a service unregisters an actor that was never registered: it
is told ERR, its service is a zombie and the database has lost it. -/
theorem failed_unregistration_effects :
    ∃ tr s, Run (next plainDht) (init "mac" "10.0.0.1") tr s ∧
      (.reply (.actorUnreg .err 0) ∈ (s.handleActorUnreg plainDht actorA ∅).2 ∧
        .put zombieGlobalKey (.address "10.0.0.1:5555")
          ∈ (s.handleActorUnreg plainDht actorA ∅).2 ∧
        s.db.card = 1 ∧ (s.handleActorUnreg plainDht actorA ∅).1.db = ∅) ∧
      ¬ UnregistrationInert plainDht s actorA ∅ := by
  obtain ⟨tr, s, hrun, herr, hput, hcard, hdb⟩ :=
    exists_run_of_replay (next plainDht) (init "mac" "10.0.0.1")
      (fun _ s =>
        .reply (.actorUnreg .err 0) ∈ (s.handleActorUnreg plainDht actorA ∅).2 ∧
        .put zombieGlobalKey (.address "10.0.0.1:5555")
          ∈ (s.handleActorUnreg plainDht actorA ∅).2 ∧
        s.db.card = 1 ∧ (s.handleActorUnreg plainDht actorA ∅).1.db = ∅)
      [⟨0, .serviceReg (responseService 7 "10.0.0.1") true⟩] (by decide)
  refine ⟨tr, s, hrun, ⟨herr, hput, hcard, hdb⟩, fun hinert => ?_⟩
  exact (hinert ⟨0, herr⟩).1 _ _ hput

end DiscoveryMessageHandler

end Riaps
