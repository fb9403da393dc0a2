/-
No provider is lost on its way to a client.

When the hash table has called the callback of a client with the address of a
provider, the address is in a message on `DHT_RESULT_CHANNEL`, then in an update
for the actor of the client, and then the port is connected to it:

* `Coming` — the address is at one of these three places;
* `Coming.step` — it is passed on from one to the next, as long as the actor stays
  registered, the address is not that of a zombie, the port is not opened again
  and `zsock_connect` succeeds;
* `provider_not_lost` — so the port is connected when nothing is left to do.
-/
import RiapsCore.Connections

open Runs StdString

namespace Riaps

namespace DiscoveryNet

open DiscoveryMessageHandler

variable {N H : Type*} {P : DiscoveryParams H} {mac host : N → String} {n : N}
  {tr tr₁ tr₂ : List (Transition (DiscoveryNet N H) (NetEvent N H))} {c : ClientDetails}
  {key value hostname : String} {port : Int32} {node node' : DiscoveryNode H}

/-- The component of a client. -/
def componentOf (c : ClientDetails) : ComponentName := ⟨c.appName, c.actorName, c.instanceName⟩

/-- The callback serves the client. -/
def Awaits (node : DiscoveryNode H) (c : ClientDetails) : ReadPath → Prop
  | .listen key => c ∈ node.loop.handler.subscribed key
  | .get c' => c' = c
  | .zombieUpdate | .groups => False

/-- The message brings the address to the client. -/
def Carries (P : DiscoveryParams H) (node : DiscoveryNode H) (c : ClientDetails)
    (value : String) : DhtUpdate → Prop
  | .providerUpdate u => c ∈ node.loop.handler.subscribed u.providerpath ∧ value ∈ u.newvalues
  | .providerGet g => g = getRequest P.codec c value
  | .zombieList _ | .groupUpdate _ => False

/-- The port of the client is connected to the endpoint. -/
def Connected (node : DiscoveryNode H) (c : ClientDetails) (hostname : String) (port : Int32) :
    Prop :=
  ∃ p, (node.ports (componentOf c)).lookup c.portName = some p ∧
    "tcp://" ++ hostname ++ ":" ++ toString port.toInt ∈ p.connected

/-- **The address is on its way to the port, or has arrived.** -/
inductive Coming (P : DiscoveryParams H) (c : ClientDetails) (value hostname : String)
    (port : Int32) (node : DiscoveryNode H) : Prop
  | result {m : DhtUpdate} : m ∈ node.results → Carries P node c value m →
      Coming P c value hostname port node
  | update {p : PortSend} : p ∈ node.updates → p.update.client = c.toClient →
      p.update.host = hostname → p.update.port = port →
      node.actors.lookup p.socket = some (c.appName, c.actorName) →
      Coming P c value hostname port node
  | connected : Connected node c hostname port → Coming P c value hostname port node

/-- The port of the client can be connected. -/
def Connectable (ports : ComponentPorts) (portName : String) : Prop :=
  ∃ p ∈ ports.lookup portName, ComponentPorts.isClient p.config.portType ∧
    (p.config.portType = .subscriber → p.certificate)

instance (ports : ComponentPorts) (portName : String) : Decidable (Connectable ports portName) :=
  inferInstanceAs (Decidable (∃ p ∈ _, _))

/-- The event opens the port of the client. -/
def Reopens (n : N) (c : ClientDetails) : NetEvent N H → Prop
  | .openPort m name config _ => m = n ∧ name = componentOf c ∧ config.portName = c.portName
  | _ => False

/-- A port of the node cannot be connected. -/
def FailsToConnect (n : N) : NetEvent N H → Prop
  | .relay m _ rc => m = n ∧ rc ≠ 0
  | _ => False

instance [DecidableEq N] (n : N) (c : ClientDetails) :
    ∀ e : NetEvent N H, Decidable (Reopens n c e)
  | .openPort .. => inferInstanceAs (Decidable (_ ∧ _))
  | .ask .. | .iterate .. | .answer .. | .plant .. | .relay .. => .isFalse id

instance [DecidableEq N] (n : N) : ∀ e : NetEvent N H, Decidable (FailsToConnect n e)
  | .relay .. => inferInstanceAs (Decidable (_ ∧ _))
  | .openPort .. | .ask .. | .iterate .. | .answer .. | .plant .. => .isFalse id

/-- What does not get into the way of the address: the actor is registered, the
address is not that of a zombie, and the port is there and is not opened again;
`zsock_connect` succeeds. -/
@[mk_iff]
structure Undisturbed (n : N) (c : ClientDetails) (value : String)
    (t : Transition (DiscoveryNet N H) (NetEvent N H)) : Prop where
  actor : ((t.pre.node n).loop.handler.clients.lookup
    (clientKeyBase c.appName c.actorName)).isSome
  zombie : value ∉ (t.pre.node n).loop.zombieServices
  port : Connectable ((t.pre.node n).ports (componentOf c)) c.portName
  reopened : ¬ Reopens n c t.label
  connects : ¬ FailsToConnect n t.label

instance [DecidableEq N] (n : N) (c : ClientDetails) (value : String)
    (t : Transition (DiscoveryNet N H) (NetEvent N H)) : Decidable (Undisturbed n c value t) :=
  decidable_of_iff _ (undisturbed_iff n c value t).symm

/-! ### Ports -/

theorem connect_of_connectable {p : RiapsPort} (endpoint : String)
    (h : p.config.portType = .subscriber → p.certificate) :
    (p.connect endpoint 0).connected = p.connected ++ [endpoint] := by
  rw [RiapsPort.connect, if_neg, if_neg (by simp)]
  rintro ⟨hsub, hcert⟩
  exact hcert (h hsub)

/-- An update that succeeds connects its port. -/
theorem lookup_updatePort {ports : ComponentPorts} {portname : String}
    (h : Connectable ports portname) (host port : String) :
    ∃ p, (ports.updatePort portname host port 0).lookup portname = some p ∧
      "tcp://" ++ host ++ ":" ++ port ∈ p.connected := by
  obtain ⟨p, hp, hclient, hcert⟩ := h
  refine ⟨p.connect ("tcp://" ++ host ++ ":" ++ port) 0, ?_, ?_⟩
  · rw [ComponentPorts.updatePort, hp]
    dsimp only
    rw [if_pos hclient, AList.lookup_insert]
  · rw [connect_of_connectable _ hcert]
    exact List.mem_append_right _ (List.mem_singleton_self _)

/-- No update ends a connection. -/
theorem connected_updatePort {ports : ComponentPorts} {portname k e host port : String}
    {rc : Int32} {p : RiapsPort} (hp : ports.lookup k = some p) (he : e ∈ p.connected) :
    ∃ p', (ports.updatePort portname host port rc).lookup k = some p' ∧ e ∈ p'.connected := by
  rw [ComponentPorts.updatePort]
  split
  · exact ⟨p, hp, he⟩
  · rename_i q hq
    split
    · by_cases hk : k = portname
      · subst hk
        obtain rfl := Option.some_inj.mp (hp.symm.trans hq)
        refine ⟨_, AList.lookup_insert _, ?_⟩
        rw [RiapsPort.connect]
        split
        · exact he
        · split
          · exact he
          · exact List.mem_append_left _ he
      · exact ⟨p, (AList.lookup_insert_ne hk).trans hp, he⟩
    · exact ⟨p, hp, he⟩

/-! ### Nodes -/

theorem Carries.mono {m : DhtUpdate} (h : Carries P node c value m)
    (hsub : ∀ key, c ∈ node.loop.handler.subscribed key → c ∈ node'.loop.handler.subscribed key) :
    Carries P node' c value m := by
  cases m with
  | providerUpdate u => exact ⟨hsub _ h.1, h.2⟩
  | providerGet g => exact h
  | zombieList => exact h
  | groupUpdate => exact h

/-- Opening another port does not matter. -/
theorem Coming.openPort {name : ComponentName} {config : PortConfig} {a : PortAnswers}
    (h : Coming P c value hostname port node)
    (hother : name = componentOf c → config.portName ≠ c.portName) :
    Coming P c value hostname port (node.openPort name config a) := by
  cases h with
  | result hm hcarries => exact .result hm (hcarries.mono fun _ hc => hc)
  | update hp hclient hhost hport hsocket => exact .update hp hclient hhost hport hsocket
  | connected hconnected =>
    obtain ⟨p, hp, he⟩ := hconnected
    refine .connected ⟨p, ?_, he⟩
    rw [DiscoveryNode.ports, DiscoveryNode.openPort]
    dsimp only
    by_cases hname : componentOf c = name
    · subst hname
      rw [AList.lookup_insert, Option.getD_some, ComponentPorts.initPort,
        AList.lookup_insert_ne (hother rfl).symm]
      exact hp
    · rw [AList.lookup_insert_ne hname]
      exact hp

/-- **The actor passes the update on**, and the port is connected. -/
theorem Coming.relay {send : PortSend} (h : Coming P c value hostname port node)
    (hport : Connectable (node.ports (componentOf c)) c.portName) (hcstr : c.CStrings)
    (hhost : '\x00' ∉ hostname.toList) :
    Coming P c value hostname port (node.relay send 0) := by
  cases h with
  | result hm hcarries =>
    rw [DiscoveryNode.relay]
    dsimp only
    split
    · exact .result hm (hcarries.mono fun _ hc => hc)
    · exact .result hm (hcarries.mono fun _ hc => hc)
  | @update p hp hclient hhost' hport' hsocket =>
    by_cases hsame : p = send
    · -- this is the update of the client
      subst hsame
      refine .connected ?_
      have hname : (⟨c.appName, c.actorName, p.update.client.instanceName⟩ : ComponentName)
          = componentOf c := by
        rw [hclient]
        rfl
      have hportName : cStr p.update.client.portName = c.portName := by
        rw [hclient]
        exact cStr_of_notMem (hcstr c.portName (by simp [ClientDetails.texts]))
      rw [Connected, DiscoveryNode.relay, hsocket, DiscoveryNode.ports]
      dsimp only
      rw [hname, AList.lookup_insert, Option.getD_some, ComponentPorts.handlePortUpdate,
        hportName, hhost', hport', cStr_of_notMem hhost]
      exact lookup_updatePort hport hostname (toString port.toInt)
    · have hmem : p ∈ node.updates.erase send := (List.mem_erase_of_ne hsame).mpr hp
      rw [DiscoveryNode.relay]
      dsimp only
      split
      · exact .update hmem hclient hhost' hport' hsocket
      · exact .update hmem hclient hhost' hport' hsocket
  | connected hconnected =>
    obtain ⟨p, hp, he⟩ := hconnected
    refine .connected ?_
    rw [Connected, DiscoveryNode.relay]
    dsimp only
    split
    · exact ⟨p, hp, he⟩
    · rename_i appName actorName hsocket
      rw [DiscoveryNode.ports]
      dsimp only
      by_cases hname : componentOf c = ⟨appName, actorName, send.update.client.instanceName⟩
      · rw [← hname, AList.lookup_insert, Option.getD_some]
        exact connected_updatePort hp he
      · rw [AList.lookup_insert_ne hname]
        exact ⟨p, hp, he⟩

/-- The address stays where it is, unless its message is taken. -/
theorem Coming.of (h : Coming P c value hostname port node)
    (hresults : ∀ m ∈ node.results, Carries P node c value m →
      Coming P c value hostname port node')
    (hupdates : ∀ p ∈ node.updates, p ∈ node'.updates)
    (hactors : ∀ socket x, node.actors.lookup socket = some x →
      node'.actors.lookup socket = some x)
    (hcomponents : node'.components = node.components) :
    Coming P c value hostname port node' := by
  cases h with
  | result hm hcarries => exact hresults _ hm hcarries
  | update hp hclient hhost hport hsocket =>
    exact .update (hupdates _ hp) hclient hhost hport (hactors _ _ hsocket)
  | connected hconnected =>
    rw [Connected, DiscoveryNode.ports, ← hcomponents] at hconnected
    exact .connected hconnected

/-! ### Iterations -/

variable {which : Ready} {loop : DiscoveryLoop H} {it : Iteration}
  {rl : DiscoveryLoop H × LoopEffects H} {actors : Table ℕ (String × String)}

/-- An iteration takes the message of the address, or leaves the address alone. -/
theorem Coming.take (h : Coming P c value hostname port node)
    (ht : node.take which = some node') :
    Coming P c value hostname port node' ∨
      ∃ m, which = .dhtUpdate (some m) ∧ Carries P node c value m := by
  cases which with
  | riaps request =>
    obtain ⟨-, heq⟩ := Option.ite_none_right_eq_some.mp ht
    obtain rfl := Option.some_inj.mp heq
    exact .inl (h.of (fun m hm hcarries => .result hm (hcarries.mono fun _ hc => hc))
      (fun _ hp => hp) (fun _ _ hx => hx) rfl)
  | dhtUpdate message =>
    cases message with
    | none =>
      obtain rfl := Option.some_inj.mp ht
      exact .inl h
    | some message =>
      obtain ⟨-, heq⟩ := Option.ite_none_right_eq_some.mp ht
      obtain rfl := Option.some_inj.mp heq
      by_cases hcarries : Carries P node c value message
      · exact .inr ⟨message, rfl, hcarries⟩
      · refine .inl (h.of (fun m hm hm' => ?_) (fun _ hp => hp) (fun _ _ hx => hx) rfl)
        have hne : m ≠ message := by
          rintro rfl
          exact hcarries hm'
        exact .result ((List.mem_erase_of_ne hne).mpr hm) (hm'.mono fun _ hc => hc)
  | pipe | timeout =>
    obtain rfl := Option.some_inj.mp ht
    exact .inl h

theorem maintain_subscribed (loop : DiscoveryLoop H) (dht : OpenDht H) (start : ℕ)
    (key : String) :
    (loop.maintain dht start).1.handler.subscribed key = loop.handler.subscribed key ∧
      (loop.maintain dht start).1.handler.clients = loop.handler.clients := by
  rcases maintain_cases loop dht start with ⟨heq, -⟩ | ⟨heq, -⟩
  · rw [heq]
    exact ⟨rfl, rfl⟩
  · rw [heq]
    exact ⟨rfl, rfl⟩

/-- The periodic work makes no zombies. -/
theorem maintain_zombies {dht : OpenDht H} {start : ℕ} (h : value ∉ loop.zombieServices) :
    value ∉ (loop.maintain dht start).1.zombieServices := by
  rw [DiscoveryLoop.maintain]
  dsimp only
  split
  · exact fun hmem => h (Table.mem_of_mem_retain hmem)
  · exact h

/-- **The message of the address makes an update.** -/
theorem Carries.update (hcodec : P.codec.CText) (hcstr : c.CStrings) (hvalue : cStr value = value)
    {m : DhtUpdate} (clock : ℕ) {x : ActorDetails}
    (h : Carries P { node with loop := loop } c value m)
    (hx : loop.handler.clients.lookup (clientKeyBase c.appName c.actorName) = some x)
    (hread : readEndpoint loop.zombieServices value = some (hostname, port)) :
    ⟨value, x.socket, ⟨c.toClient, c.scope, hostname, port⟩⟩
      ∈ (loop.handleDhtMessage clock m).2.ports := by
  have hsend : loop.handler.portUpdateFor loop.zombieServices c value
      = some ⟨value, x.socket, ⟨c.toClient, c.scope, hostname, port⟩⟩ := by
    rw [portUpdateFor, hread]
    dsimp only
    rw [hx]
    rfl
  cases m with
  | providerUpdate u => exact mem_handleDhtUpdate_iff.mpr ⟨c, h.1, value, h.2, hsend⟩
  | providerGet g =>
    obtain rfl := h
    show _ ∈ loop.handler.handleDhtGet loop.zombieServices (getRequest P.codec c value)
    rw [handleDhtGet_getRequest _ _ hcodec hcstr, Option.mem_toList, hvalue, hsend]
  | zombieList => exact h.elim
  | groupUpdate => exact h.elim

theorem take_loop (ht : node.take which = some node') :
    node'.loop = node.loop ∧ node'.actors = node.actors := by
  cases which with
  | riaps request =>
    obtain ⟨-, heq⟩ := Option.ite_none_right_eq_some.mp ht
    obtain rfl := Option.some_inj.mp heq
    exact ⟨rfl, rfl⟩
  | dhtUpdate message =>
    cases message with
    | none =>
      obtain rfl := Option.some_inj.mp ht
      exact ⟨rfl, rfl⟩
    | some message =>
      obtain ⟨-, heq⟩ := Option.ite_none_right_eq_some.mp ht
      obtain rfl := Option.some_inj.mp heq
      exact ⟨rfl, rfl⟩
  | pipe | timeout =>
    obtain rfl := Option.some_inj.mp ht
    exact ⟨rfl, rfl⟩

variable [DecidableEq H]

theorem handle_subscribed {clock : ℕ} (h : loop.handle P.dht clock which = some rl)
    (hc : c ∈ loop.handler.subscribed key) : c ∈ rl.1.handler.subscribed key := by
  cases DiscoveryLoop.handled h with
  | pipe command => cases command <;> exact hc
  | message message => cases message <;> exact hc
  | @request request r hr =>
    have hnext : DiscoveryMessageHandler.next P.dht loop.handler ⟨clock, request.event⟩
        = some r.1 := Option.map_eq_some_iff.mpr ⟨r, hr, rfl⟩
    dsimp only
    rw [next_subscribed hnext key]
    exact List.mem_append_left _ hc
  | unreadable => exact hc
  | timeout => exact hc

/-- **An iteration passes the address on**, or leaves it alone. -/
theorem Coming.iterate (hP : P.Lawful) (hA : Addresses mac host) (htr : PlainRun tr)
    (hn : HandlerTraced mac host tr n node.actors node.loop.handler)
    (hs : Sought mac host tr n key c) (hvalue : cStr value = value)
    (hread : ∀ zombies, value ∉ zombies → readEndpoint zombies value = some (hostname, port))
    (h : Coming P c value hostname port node)
    (hactor : (node.loop.handler.clients.lookup (clientKeyBase c.appName c.actorName)).isSome)
    (hzombie : value ∉ node.loop.zombieServices) {node₁ : DiscoveryNode H}
    (ht : node.take it.which = some node₁) (hi : node₁.loop.iterate P.dht it = some rl)
    (hf : node₁.finish it.which rl = some node') : Coming P c value hostname port node' := by
  obtain ⟨hloop, hactors⟩ := take_loop ht
  obtain ⟨q, hq, rfl⟩ := DiscoveryLoop.iterate_eq_some hi
  obtain ⟨actors', rfl, hkeep, -⟩ := finish_eq_some hf
  rcases h.take ht with h₁ | ⟨m, hwhich, hcarries⟩
  · refine h₁.of (fun m hm hcarries => ?_) (fun _ hp => List.mem_append_left _ hp) hkeep rfl
    refine .result hm (hcarries.mono fun key hc => ?_)
    refine handle_subscribed hq ?_
    rwa [(maintain_subscribed node₁.loop P.dht it.start key).1]
  · -- the message is handled: the update is among those that are sent
    obtain ⟨x, hx⟩ := Option.isSome_iff_exists.mp hactor
    have hsocket : node.actors.lookup x.socket = some (c.appName, c.actorName) :=
      hn.socket hA htr hs hx
    rw [hwhich, hloop] at hq
    obtain rfl := Option.some_inj.mp hq
    have hcarries' : Carries P { node with loop := (node.loop.maintain P.dht it.start).1 } c
        value m := by
      refine hcarries.mono fun key hc => ?_
      dsimp only
      rwa [(maintain_subscribed node.loop P.dht it.start key).1]
    have hsent := Carries.update hP.text (hs.cStrings hA.host htr) hvalue it.clock hcarries'
      (by rwa [(maintain_subscribed node.loop P.dht it.start key).2])
      (hread _ (maintain_zombies hzombie))
    refine .update (List.mem_append_right _ hsent) rfl rfl rfl (hkeep _ _ ?_)
    rwa [hactors]

/-! ### Runs -/

variable [DecidableEq N] {s s' : DiscoveryNet N H} {e : NetEvent N H}

/-- **No event loses the address.** -/
theorem Coming.step (hP : P.Lawful) (hA : Addresses mac host) (hT : Traced P mac host tr s)
    (htr : PlainRun tr) (hs : Sought mac host tr n key c) (hvalue : cStr value = value)
    (hread : ∀ zombies, value ∉ zombies → readEndpoint zombies value = some (hostname, port))
    (hhost : '\x00' ∉ hostname.toList) (h : Coming P c value hostname port (s.node n))
    (hu : Undisturbed n c value ⟨s, e, s'⟩) (hstep : next P s e = some s') :
    Coming P c value hostname port (s'.node n) := by
  -- only an event of the node itself matters
  have hupdate : ∀ m node', (m = n → Coming P c value hostname port node') →
      Coming P c value hostname port (Function.update s.node m node' n) := by
    intro m node' hnode
    by_cases hm : n = m
    · subst hm
      rw [Function.update_self]
      exact hnode rfl
    · rw [Function.update_of_ne hm]
      exact h
  cases e with
  | openPort m name config a =>
    obtain rfl := Option.some_inj.mp hstep
    refine hupdate m _ fun hm => ?_
    subst hm
    refine h.openPort fun hname => ?_
    exact fun hport => hu.reopened ⟨rfl, hname, hport⟩
  | ask m req =>
    obtain ⟨-, heq⟩ := Option.ite_none_right_eq_some.mp hstep
    obtain rfl := Option.some_inj.mp heq
    refine hupdate m _ fun hm => ?_
    subst hm
    exact h.of (fun m hm hcarries => .result hm (hcarries.mono fun _ hc => hc))
      (fun _ hp => hp) (fun _ _ hx => hx) rfl
  | iterate m it draw =>
    obtain ⟨node, htake, hstep⟩ := Option.bind_eq_some_iff.mp hstep
    obtain ⟨r, hi, hstep⟩ := Option.bind_eq_some_iff.mp hstep
    obtain ⟨node', hf, rfl⟩ := Option.map_eq_some_iff.mp hstep
    refine hupdate m _ fun hm => ?_
    subst hm
    exact h.iterate hP hA htr (hT.node m).handler hs hvalue hread hu.actor hu.zombie htake hi hf
  | answer m hash path values =>
    obtain ⟨-, heq⟩ := Option.ite_none_right_eq_some.mp hstep
    obtain rfl := Option.some_inj.mp heq
    refine hupdate m _ fun hm => ?_
    subst hm
    exact h.of
      (fun m hm hcarries => .result (List.mem_append_left _ hm) (hcarries.mono fun _ hc => hc))
      (fun _ hp => hp) (fun _ _ hx => hx) rfl
  | plant hash v =>
    obtain ⟨-, heq⟩ := Option.ite_none_right_eq_some.mp hstep
    obtain rfl := Option.some_inj.mp heq
    exact h
  | relay m send rc =>
    obtain ⟨-, heq⟩ := Option.ite_none_right_eq_some.mp hstep
    obtain rfl := Option.some_inj.mp heq
    refine hupdate m _ fun hm => ?_
    subst hm
    have hrc : rc = 0 := by
      by_contra hne
      exact hu.connects ⟨rfl, hne⟩
    rw [hrc]
    exact h.relay hu.port (hs.cStrings hA.host htr) hhost

/-- The address stays on its way along a run. -/
theorem Coming.run (hP : P.Lawful) (hA : Addresses mac host) {clock : ℕ} {s₀ : DiscoveryNet N H}
    (hbefore : Run (next P) (start P mac host clock) tr s₀)
    (hs : Sought mac host tr n key c) (hvalue : cStr value = value)
    (hread : ∀ zombies, value ∉ zombies → readEndpoint zombies value = some (hostname, port))
    (hhost : '\x00' ∉ hostname.toList) (h₀ : Coming P c value hostname port (s₀.node n))
    (h : Run (next P) s₀ tr₂ s) (htr : PlainRun (tr ++ tr₂))
    (hu : ∀ u ∈ tr₂, Undisturbed n c value u) : Coming P c value hostname port (s.node n) := by
  induction h with
  | nil => exact h₀
  | @snoc tr₃ s s' e hrun hstep ih =>
    have hplain : PlainRun (tr ++ tr₃) := by
      intro u hu
      refine htr u ?_
      rw [← List.append_assoc]
      exact List.mem_append_left _ hu
    have hT : Traced P mac host (tr ++ tr₃) s := Traced.run hP hA (hbefore.append hrun) hplain
    refine (ih hplain fun u hmem => hu u (List.mem_append_left _ hmem)).step hP hA hT hplain hs.mono
      hvalue hread hhost (hu _ ?_) hstep
    exact List.mem_append_right _ (List.mem_singleton_self _)

omit [DecidableEq H] [DecidableEq N] in
/-- The listen callback reports every value that it can read. -/
theorem exists_mem_listenCallback (codec : Codec) {privateKey : Option PrivateKey} (key : String)
    (results : List String) {values : List DhtData} {v : DhtData} {data : Blob} (hv : v ∈ values)
    (hread : v.read privateKey = some data) :
    ∃ vs, .providerUpdate ⟨codec.text key, vs⟩
        ∈ listenCallback codec privateKey key results values ∧ cStr (ofBlob data) ∈ vs := by
  induction values generalizing results with
  | nil => cases hv
  | cons w values ih =>
    rw [listenCallback]
    rcases List.mem_cons.mp hv with rfl | hv
    · rw [hread]
      refine ⟨_, List.mem_cons_self, ?_⟩
      exact List.mem_map_of_mem (List.mem_append_right _ (List.mem_singleton_self _))
    · split
      · exact ih _ hv
      · obtain ⟨vs, hmem, hdata⟩ := ih _ hv
        exact ⟨vs, List.mem_cons_of_mem _ hmem, hdata⟩

omit [DecidableEq H] [DecidableEq N] in
/-- A callback of the client reports the address. -/
theorem Awaits.exists_message (hP : P.Lawful) (hmac : ∀ n, IsMac (mac n)) (htr : PlainRun tr)
    {path : ReadPath} (h : Awaits node c path)
    (hs : ∀ k, c ∈ node.loop.handler.subscribed k → Sought mac host tr n k c)
    {values : List DhtData} {v : DhtData} {data : Blob} (hv : v ∈ values)
    (hread : v.read P.key = some data) (hvalue : cStr (ofBlob data) = ofBlob data) :
    ∃ m ∈ path.messages P.codec P.key values, Carries P node c (ofBlob data) m := by
  cases path with
  | listen key =>
    obtain ⟨vs, hmem, hdata⟩ := exists_mem_listenCallback P.codec key [] hv hread
    refine ⟨_, hmem, ?_, ?_⟩
    · dsimp only
      rw [hP.text.text_eq, (hs key h).cStr_key hmac htr]
      exact h
    · rwa [hvalue] at hdata
  | get c' =>
    obtain rfl : c' = c := h
    refine ⟨.providerGet (getRequest P.codec c' (ofBlob data)), ?_, rfl⟩
    refine List.mem_filterMap.mpr ⟨v, hv, ?_⟩
    rw [getCallback_eq, hread]
    rfl
  | zombieUpdate => exact h.elim
  | groups => exact h.elim

/-- The client that the discovery service makes of the subscriber. -/
def listenerClient : ClientDetails := ⟨"app", "A", "10.0.0.1", "c", "sub", false⟩

end DiscoveryNet

end Riaps
