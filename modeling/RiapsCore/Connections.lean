/-
Ports are connected to the providers they ask for, and to nothing else.

* `NodeTraced`, `Traced` — everything on its way was offered by a port and sought
  by another one;
* `HandlerTraced.next` — the handlers of the discovery service keep this;
* `Traced.step`, `Traced.run` — so does every event of the net;
* `connections_sound` — and so every connection is between ports that fit.
-/
import RiapsCore.ServiceWiring

open Runs StdString

namespace Riaps

namespace DiscoveryNet

open DiscoveryMessageHandler

variable {N H : Type*} {P : DiscoveryParams H} {mac host : N → String} {n : N}
  {tr tr' : List (Transition (DiscoveryNet N H) (NetEvent N H))}

/-- A port or an actor has made the request. -/
inductive Asked (tr : List (Transition (DiscoveryNet N H) (NetEvent N H))) (n : N) :
    DiscoReq → Prop
  | port {name : ComponentName} {config : PortConfig} {a : PortAnswers} {req : DiscoReq} :
      Opened tr n name config a → openRequest name config a = some req → Asked tr n req
  | actor {req : DiscoReq} :
      req.isActors → (.ask n req : NetEvent N H).Plain → Asked tr n req

/-- A callback waits for the key that its client has looked for. -/
def ReadingTraced (P : DiscoveryParams H) (mac host : N → String)
    (tr : List (Transition (DiscoveryNet N H) (NetEvent N H))) (n : N) (hash : H) :
    ReadPath → Prop
  | .listen key => hash = P.dht.get key ∧ ∃ c, Sought mac host tr n key c
  | .get c => ∃ key, hash = P.dht.get key ∧ Sought mac host tr n key c
  | .zombieUpdate | .groups => True

/-- The values of a message were offered under the key that it is about. -/
def ResultTraced (P : DiscoveryParams H) (mac host : N → String)
    (tr : List (Transition (DiscoveryNet N H) (NetEvent N H))) (n : N) : DhtUpdate → Prop
  | .providerUpdate u => ∀ v ∈ u.newvalues, Offered mac tr u.providerpath v
  | .providerGet g => ∃ c key value, Sought mac host tr n key c ∧ Offered mac tr key value ∧
      g = getRequest P.codec c value
  | .zombieList _ | .groupUpdate _ => True

/-- A value that can be read was offered under the key, or the key is none of a
service. -/
def StoredTraced (P : DiscoveryParams H) (mac : N → String)
    (tr : List (Transition (DiscoveryNet N H) (NetEvent N H))) (p : H × DhtData) : Prop :=
  ∀ data, p.2.read P.key = some data →
    (∃ key value, Offered mac tr key value ∧ p.1 = P.dht.get key ∧ data = toBlob value) ∨
      Aside P mac p.1

/-- An update is about a provider that its client should talk to, and goes to the
actor of the client. -/
def UpdateTraced (mac host : N → String)
    (tr : List (Transition (DiscoveryNet N H) (NetEvent N H))) (n : N)
    (actors : Table ℕ (String × String)) (p : PortSend) : Prop :=
  ∃ c, Matched mac host tr n c p.update.host p.update.port ∧ IsHost p.update.host ∧
    c.CStrings ∧ p.update.client = c.toClient ∧
    actors.lookup p.socket = some (c.appName, c.actorName)

/-- The endpoint is that of a provider that the port should talk to. -/
def ConnectionTraced (mac host : N → String)
    (tr : List (Transition (DiscoveryNet N H) (NetEvent N H))) (n : N) (name : ComponentName)
    (portName endpoint : String) : Prop :=
  ∃ c hostname port, Matched mac host tr n c hostname port ∧
    name = ⟨c.appName, c.actorName, c.instanceName⟩ ∧ portName = c.portName ∧
    endpoint = "tcp://" ++ hostname ++ ":" ++ toString port.toInt

/-- What the handler knows comes from ports and actors. -/
structure HandlerTraced (mac host : N → String)
    (tr : List (Transition (DiscoveryNet N H) (NetEvent N H))) (n : N)
    (actors : Table ℕ (String × String)) (d : DiscoveryMessageHandler H) : Prop where
  macAddress : d.macAddress = mac n
  hostAddress : d.hostAddress = host n
  checkins : ∀ pid, ∀ c ∈ d.checkins pid, Offered mac tr c.key c.value
  subscribed : ∀ key, ∀ c ∈ d.subscribed key, Sought mac host tr n key c
  clients : ∀ k x, d.clients.lookup k = some x → ∃ app actor,
    actors.lookup x.socket = some (app, actor) ∧ IsName app ∧ IsName actor ∧
      k ∈ d.actorKeys app actor

structure NodeTraced (P : DiscoveryParams H) (mac host : N → String)
    (tr : List (Transition (DiscoveryNet N H) (NetEvent N H))) (n : N)
    (node : DiscoveryNode H) : Prop where
  handler : HandlerTraced mac host tr n node.actors node.loop.handler
  requests : ∀ req ∈ node.requests, Asked tr n req
  reading : ∀ p ∈ node.reading, ReadingTraced P mac host tr n p.1 p.2
  results : ∀ m ∈ node.results, ResultTraced P mac host tr n m
  updates : ∀ p ∈ node.updates, UpdateTraced mac host tr n node.actors p
  connected : ∀ name portName p, (node.ports name).lookup portName = some p →
    ∀ e ∈ p.connected, ConnectionTraced mac host tr n name portName e

structure Traced (P : DiscoveryParams H) (mac host : N → String)
    (tr : List (Transition (DiscoveryNet N H) (NetEvent N H))) (s : DiscoveryNet N H) :
    Prop where
  node : ∀ n, NodeTraced P mac host tr n (s.node n)
  stored : ∀ p ∈ s.stored, StoredTraced P mac tr p

/-! ### A longer history -/

theorem Asked.mono {req : DiscoReq} (h : Asked tr n req) : Asked (tr ++ tr') n req := by
  cases h with
  | port hopen hreq => exact .port hopen.mono hreq
  | actor hactors hplain => exact .actor hactors hplain

theorem ReadingTraced.mono {hash : H} {path : ReadPath}
    (h : ReadingTraced P mac host tr n hash path) :
    ReadingTraced P mac host (tr ++ tr') n hash path := by
  cases path with
  | listen key => exact ⟨h.1, h.2.imp fun _ hc => hc.mono⟩
  | get c => exact h.imp fun _ hkey => ⟨hkey.1, hkey.2.mono⟩
  | zombieUpdate => trivial
  | groups => trivial

theorem ResultTraced.mono {m : DhtUpdate} (h : ResultTraced P mac host tr n m) :
    ResultTraced P mac host (tr ++ tr') n m := by
  cases m with
  | providerUpdate u => exact fun v hv => (h v hv).mono
  | providerGet g =>
    obtain ⟨c, key, value, hs, ho, heq⟩ := h
    exact ⟨c, key, value, hs.mono, ho.mono, heq⟩
  | zombieList => trivial
  | groupUpdate => trivial

theorem StoredTraced.mono {p : H × DhtData} (h : StoredTraced P mac tr p) :
    StoredTraced P mac (tr ++ tr') p := by
  intro data hread
  rcases h data hread with ⟨key, value, ho, heq⟩ | haside
  · exact .inl ⟨key, value, ho.mono, heq⟩
  · exact .inr haside

theorem UpdateTraced.mono {actors : Table ℕ (String × String)} {p : PortSend}
    (h : UpdateTraced mac host tr n actors p) : UpdateTraced mac host (tr ++ tr') n actors p := by
  obtain ⟨c, hm, hrest⟩ := h
  exact ⟨c, hm.mono, hrest⟩

theorem ConnectionTraced.mono {name : ComponentName} {portName e : String}
    (h : ConnectionTraced mac host tr n name portName e) :
    ConnectionTraced mac host (tr ++ tr') n name portName e := by
  obtain ⟨c, hostname, port, hm, hrest⟩ := h
  exact ⟨c, hostname, port, hm.mono, hrest⟩

theorem HandlerTraced.mono {actors : Table ℕ (String × String)}
    {d : DiscoveryMessageHandler H} (h : HandlerTraced mac host tr n actors d) :
    HandlerTraced mac host (tr ++ tr') n actors d where
  macAddress := h.macAddress
  hostAddress := h.hostAddress
  checkins pid c hc := (h.checkins pid c hc).mono
  subscribed key c hc := (h.subscribed key c hc).mono
  clients := h.clients

theorem NodeTraced.mono {node : DiscoveryNode H} (h : NodeTraced P mac host tr n node) :
    NodeTraced P mac host (tr ++ tr') n node where
  handler := h.handler.mono
  requests req hreq := (h.requests req hreq).mono
  reading p hp := (h.reading p hp).mono
  results m hm := (h.results m hm).mono
  updates p hp := (h.updates p hp).mono
  connected name portName p hp e he := (h.connected name portName p hp e he).mono

/-! ### The handlers -/

/-- What an event of the handler tells about the ports and actors. -/
def EventTraced (tr : List (Transition (DiscoveryNet N H) (NetEvent N H))) (n : N) :
    Event → Prop
  | .serviceReg req _ => ∃ name config a, Opened tr n name config a ∧
      openRequest name config a = some (.serviceReg req)
  | .serviceLookup req => ∃ name config a, Opened tr n name config a ∧
      openRequest name config a = some (.serviceLookup req)
  | .actorReg req _ => IsName req.appName ∧ IsName req.actorName
  | .groupJoin req => IsName req.appName
  | .actorUnreg _ _ | .renewServices => True

theorem openRequest_isActors {name : ComponentName} {config : PortConfig} {a : PortAnswers}
    {req : DiscoReq} (h : openRequest name config a = some req) : req.isActors = false := by
  rcases config with ⟨portType, portName, messageType, isLocal⟩
  cases portType with
  | publisher | subscriber | query =>
    obtain rfl := Option.some_inj.mp h
    rfl
  | response | answer | request =>
    obtain rfl := Option.some_inj.mp (Option.ite_none_right_eq_some.mp h).2
    rfl

theorem Asked.event {request : Request} (h : Asked tr n request.req) :
    EventTraced tr n request.event := by
  cases h with
  | port hopen hreq =>
    have hports := openRequest_isActors hreq
    cases request with
    | serviceReg req putOk => exact ⟨_, _, _, hopen, hreq⟩
    | serviceLookup req => exact ⟨_, _, _, hopen, hreq⟩
    | actorReg | actorUnreg | groupJoin => cases hports
  | actor hactors hplain =>
    cases request with
    | actorReg req answers => exact hplain
    | groupJoin req => exact hplain
    | actorUnreg => trivial
    | serviceReg | serviceLookup => cases hactors

variable {dht : OpenDht H} {d d' : DiscoveryMessageHandler H} {l : Stamped}
  {r : DiscoveryMessageHandler H × List (Outgoing H)} {actors actors' : Table ℕ (String × String)}

/-- A registered service is an offer. -/
theorem offered_of_serviceReg {req : ServiceRegReq} {putOk : Bool} {key value : String}
    (hmac : d.macAddress = mac n) (hevent : EventTraced tr n (.serviceReg req putOk))
    (hkv : d.buildInsertKeyValuePair req.path req.host req.port = some (key, value)) :
    Offered mac tr key value := by
  obtain ⟨name, config, a, hopen, hreq⟩ := hevent
  obtain ⟨hp, hpath, hhost, hport⟩ := openRequest_serviceReg hreq
  refine ⟨n, name, config, a, hopen, hp, ?_⟩
  rw [hpath, hhost, hport] at hkv
  simp only [buildInsertKeyValuePair, hmac] at hkv
  exact hkv

/-- A lookup is a search. -/
theorem sought_of_serviceLookup {req : ServiceLookupReq} {key : String}
    (hmac : d.macAddress = mac n) (hhost : d.hostAddress = host n)
    (hevent : EventTraced tr n (.serviceLookup req))
    (hkey : d.buildLookupKey req.path = some key) :
    Sought mac host tr n key (d.lookupClient req) := by
  obtain ⟨name, config, a, hopen, hreq⟩ := hevent
  obtain ⟨hc, hpath, hclient⟩ := openRequest_serviceLookup hreq
  refine ⟨name, config, a, hopen, hc, ?_, ?_⟩
  · rw [hpath] at hkey
    simp only [buildLookupKey, hmac] at hkey
    exact hkey
  · rw [lookupClient, hpath, hclient, hhost]
    simp only [PortConfig.path_scope, Bool.decide_eq_true]
    rfl

/-- **What the handlers put is an offer**, or is put aside. -/
theorem HandlerTraced.stored (hP : P.Lawful) (h : HandlerTraced mac host tr n actors d)
    (hevent : EventTraced tr n l.event) {hash : H} {value : DhtValue}
    (hput : PutBy P.dht d l.event hash value) (draw : ℕ) :
    StoredTraced P mac tr (hash, DhtData.dhtPut P.key draw (value.blob P)) := by
  intro data hread
  dsimp only at hread ⊢
  rw [hP.read_dhtPut, Option.some_inj] at hread
  subst hread
  generalize l.event = event at hevent hput
  cases hput with
  | @service req putOk kv hkv =>
    exact .inl ⟨kv.1, kv.2, offered_of_serviceReg h.macAddress hevent hkv, rfl, rfl⟩
  | @renewal _ pid c hc => exact .inl ⟨c.key, c.value, h.checkins pid c hc, rfl, rfl⟩
  | zombie address =>
    have hkey : d.zombieKey address = "/zombie/locals/" ++ mac n ∨
        d.zombieKey address = zombieGlobalKey := by
      rw [← h.macAddress]
      exact ite_eq_or_eq _ _ _
    rcases hkey with hkey | hkey
    · exact .inr (.inr (.inr ⟨n, congrArg P.dht.get hkey⟩))
    · exact .inr (.inr (.inl (congrArg P.dht.get hkey)))
  | group details => exact .inr (.inl ⟨_, hevent, rfl⟩)

/-! ### Messages -/

variable {zombies : Table String ℕ} {c : ClientDetails} {key value : String} {p : PortSend}

/-- The socket that an update for a client goes to is that of its actor: the key
tells the application and the actor. -/
theorem HandlerTraced.socket (hA : Addresses mac host) (htr : PlainRun tr)
    (h : HandlerTraced mac host tr n actors d) (hs : Sought mac host tr n key c)
    {x : ActorDetails} (hx : d.clients.lookup (clientKeyBase c.appName c.actorName) = some x) :
    actors.lookup x.socket = some (c.appName, c.actorName) := by
  obtain ⟨app, actor, hactor, happ, hname, hk⟩ := h.clients _ x hx
  have hbase : clientKeyBase c.appName c.actorName = clientKeyBase app actor := by
    have hnames : NodeNames d.macAddress d.hostAddress := by
      rw [h.macAddress, h.hostAddress]
      exact hA.names n
    exact clientKeyBase_eq_of_mem_actorKeys hnames clientKeyBase_mem_actorKeys hk
  obtain ⟨name, config, a, hopen, -, -, rfl⟩ := hs
  have hplain := hopen.plain htr
  have hkeys : "/" ++ name.appName ++ "/" ++ name.actorName ++ "/" ++ ""
      = "/" ++ app ++ "/" ++ actor ++ "/" ++ "" := congrArg (· ++ "") hbase
  have hparts := (key_inj hplain.appName.1 happ.1 hplain.actorName.1 hname.1).mp hkeys
  rw [hactor]
  exact congrArg some (Prod.ext hparts.1.symm hparts.2.1.symm)

/-- The update for a client and an endpoint that was offered under its key. -/
theorem HandlerTraced.update (hA : Addresses mac host) (htr : PlainRun tr)
    (h : HandlerTraced mac host tr n actors d) (hs : Sought mac host tr n key c)
    (ho : Offered mac tr key value) (hp : d.portUpdateFor zombies c value = some p) :
    UpdateTraced mac host tr n actors p := by
  obtain ⟨hostname, port, hm, hhost, -, -, hread⟩ :=
    matched_of_offered (fun n => (hA.names n).mac_ne) htr ho hs
  rw [ho.cStr_value htr] at hread
  rw [portUpdateFor] at hp
  split at hp
  · cases hp
  · rename_i host' port' hread'
    have hzombie : value ∉ zombies := (readEndpoint_eq_some_iff.mp hread').1
    obtain ⟨rfl, rfl⟩ :=
      Prod.mk.inj (Option.some_inj.mp ((hread zombies hzombie).symm.trans hread'))
    obtain ⟨x, hx, rfl⟩ := Option.map_eq_some_iff.mp hp
    exact ⟨c, hm, hhost, hs.cStrings hA.host htr, rfl, h.socket hA htr hs hx⟩

theorem mem_handleDhtUpdate_iff {u : ProviderListUpdate} :
    p ∈ d.handleDhtUpdate zombies u ↔
      ∃ c ∈ d.subscribed u.providerpath, ∃ v ∈ u.newvalues,
        d.portUpdateFor zombies c v = some p := by
  rw [handleDhtUpdate, subscribed]
  rcases d.clientSubscriptions.lookup u.providerpath with _ | clients
  · simp
  · simp [List.mem_flatMap, List.mem_filterMap]

/-- **The updates that a message makes are traced.** -/
theorem HandlerTraced.message (hP : P.Lawful) (hA : Addresses mac host) (htr : PlainRun tr)
    {loop : DiscoveryLoop H} (h : HandlerTraced mac host tr n actors loop.handler)
    {m : DhtUpdate} (hm : ResultTraced P mac host tr n m) {clock : ℕ}
    (hp : p ∈ (loop.handleDhtMessage clock m).2.ports) : UpdateTraced mac host tr n actors p := by
  cases m with
  | providerUpdate u =>
    obtain ⟨c, hc, v, hv, hsend⟩ := mem_handleDhtUpdate_iff.mp hp
    exact h.update hA htr (h.subscribed _ c hc) (hm v hv) hsend
  | providerGet g =>
    obtain ⟨c, key, value, hs, ho, rfl⟩ := hm
    have hget : p ∈ loop.handler.handleDhtGet loop.zombieServices (getRequest P.codec c value) :=
      hp
    rw [handleDhtGet_getRequest _ _ hP.text (hs.cStrings hA.host htr), Option.mem_toList,
      ho.cStr_value htr] at hget
    exact h.update hA htr hs ho hget
  | zombieList => cases hp
  | groupUpdate => cases hp

/-- What is read under a key that was looked for has been offered there. -/
theorem offered_of_read (hP : P.Lawful) (hA : Addresses mac host) (htr : PlainRun tr)
    {v : DhtData} (hv : StoredTraced P mac tr (P.dht.get key, v)) (hs : Sought mac host tr n key c)
    {data : Blob} (hread : v.read P.key = some data) : Offered mac tr key (ofBlob data) := by
  rcases hv data hread with ⟨key', value, ho, heq, rfl⟩ | haside
  · obtain rfl := hP.get_injective heq
    rw [ho.ofBlob_toBlob htr]
    exact ho
  · exact absurd rfl (hs.ne_aside hP hA.mac htr haside)

theorem listenCallback_traced (hP : P.Lawful) (hA : Addresses mac host) (htr : PlainRun tr)
    (hs : Sought mac host tr n key c) {values : List DhtData} {results : List String}
    (hvalues : ∀ v ∈ values, StoredTraced P mac tr (P.dht.get key, v))
    (hresults : ∀ r ∈ results, Offered mac tr key r) :
    ∀ m ∈ listenCallback P.codec P.key key results values, ResultTraced P mac host tr n m := by
  induction values generalizing results with
  | nil => exact fun m hm => absurd hm List.not_mem_nil
  | cons v values ih =>
    have hrest : ∀ v ∈ values, StoredTraced P mac tr (P.dht.get key, v) :=
      fun w hw => hvalues w (List.mem_cons_of_mem v hw)
    intro m hm
    rw [listenCallback] at hm
    rcases hread : v.read P.key with _ | data
    · rw [hread] at hm
      exact ih hrest hresults m hm
    · rw [hread] at hm
      dsimp only at hm
      have hdata := offered_of_read hP hA htr (hvalues v List.mem_cons_self) hs hread
      have hall : ∀ r ∈ results ++ [ofBlob data], Offered mac tr key r := by
        intro r hr
        rcases List.mem_append.mp hr with hr | hr
        · exact hresults r hr
        · rw [List.mem_singleton.mp hr]
          exact hdata
      rcases List.mem_cons.mp hm with rfl | hm
      · -- the results so far, with the new one
        intro w hw
        obtain ⟨r, hr, rfl⟩ := List.mem_map.mp hw
        dsimp only
        rw [hP.text.text_eq, hs.cStr_key hA.mac htr, (hall r hr).cStr_value htr]
        exact hall r hr
      · exact ih hrest hall m hm

/-- **A callback makes traced messages of traced values.** -/
theorem messages_traced (hP : P.Lawful) (hA : Addresses mac host) (htr : PlainRun tr)
    {hash : H} {path : ReadPath} (hpath : ReadingTraced P mac host tr n hash path)
    {values : List DhtData} (hvalues : ∀ v ∈ values, StoredTraced P mac tr (hash, v)) :
    ∀ m ∈ path.messages P.codec P.key values, ResultTraced P mac host tr n m := by
  intro m hm
  cases path with
  | listen key =>
    obtain ⟨rfl, c, hs⟩ := hpath
    exact listenCallback_traced hP hA htr hs hvalues (by simp) m hm
  | get c =>
    obtain ⟨key, rfl, hs⟩ := hpath
    obtain ⟨v, hv, hmessage⟩ := List.mem_filterMap.mp hm
    rw [getCallback_eq] at hmessage
    obtain ⟨data, hread, rfl⟩ := Option.map_eq_some_iff.mp hmessage
    exact ⟨c, key, _, hs, offered_of_read hP hA htr (hvalues v hv) hs hread, rfl⟩
  | zombieUpdate =>
    simp only [ReadPath.messages, handleZombieUpdate] at hm
    split at hm
    · cases hm
    · obtain rfl := List.mem_singleton.mp hm
      trivial
  | groups =>
    -- the callback for groups makes messages about groups
    have hgroups : ∀ vs : List DhtData, ∀ m ∈ pushDhtValuesToDisco P.codec P.key vs,
        ∃ u, m = .groupUpdate u := by
      intro vs
      induction vs with
      | nil => exact fun m hm => absurd hm List.not_mem_nil
      | cons v vs ih =>
        intro m hm
        rw [pushDhtValuesToDisco] at hm
        split at hm
        · exact ih m hm
        · split at hm
          · cases hm
          · rcases List.mem_cons.mp hm with rfl | hm
            · exact ⟨_, rfl⟩
            · exact ih m hm
    obtain ⟨u, rfl⟩ := hgroups values m hm
    trivial

/-! ### Parts of an iteration -/

variable {node node' : DiscoveryNode H} {which : Ready} {s s' : DiscoveryNet N H}
  {rl : DiscoveryLoop H × LoopEffects H} {it : Iteration}

/-- What an iteration leaves of the message it handles, and what it knows of it. -/
theorem NodeTraced.take (h : NodeTraced P mac host tr n node)
    (ht : node.take which = some node') :
    NodeTraced P mac host tr n node' ∧
      (∀ request, which = .riaps request → Asked tr n request.req) ∧
      ∀ m, which = .dhtUpdate (some m) → ResultTraced P mac host tr n m := by
  cases which with
  | riaps request =>
    obtain ⟨hmem, heq⟩ := Option.ite_none_right_eq_some.mp ht
    obtain rfl := Option.some_inj.mp heq
    refine ⟨⟨h.handler, fun req hreq => h.requests req (List.mem_of_mem_erase hreq), h.reading,
      h.results, h.updates, h.connected⟩, ?_, by simp⟩
    rintro _ ⟨⟩
    exact h.requests _ hmem
  | dhtUpdate message =>
    cases message with
    | none =>
      obtain rfl := Option.some_inj.mp ht
      exact ⟨h, by simp, by simp⟩
    | some message =>
      obtain ⟨hmem, heq⟩ := Option.ite_none_right_eq_some.mp ht
      obtain rfl := Option.some_inj.mp heq
      refine ⟨⟨h.handler, h.requests, h.reading,
        fun m hm => h.results m (List.mem_of_mem_erase hm), h.updates, h.connected⟩,
        by simp, ?_⟩
      rintro _ ⟨⟩
      exact h.results _ hmem
  | pipe | timeout =>
    obtain rfl := Option.some_inj.mp ht
    exact ⟨h, by simp, by simp⟩

/-- The periodic work changes the handler at most by a renewal. -/
theorem maintain_cases (loop : DiscoveryLoop H) (dht : OpenDht H) (start : ℕ) :
    (loop.maintain dht start).1.handler = loop.handler ∧ (loop.maintain dht start).2 = [] ∨
      (loop.maintain dht start).1.handler = (loop.handler.renewServices dht start).1 ∧
      (loop.maintain dht start).2 = (loop.handler.renewServices dht start).2 := by
  rw [DiscoveryLoop.maintain]
  dsimp only
  split
  · exact .inr ⟨rfl, rfl⟩
  · exact .inl ⟨rfl, rfl⟩

theorem UpdateTraced.keep {p : PortSend} (h : UpdateTraced mac host tr n actors p)
    (hkeep : ∀ socket x, actors.lookup socket = some x → actors'.lookup socket = some x) :
    UpdateTraced mac host tr n actors' p := by
  obtain ⟨c, hm, hhost, hcstr, hclient, hsocket⟩ := h
  exact ⟨c, hm, hhost, hcstr, hclient, hkeep _ _ hsocket⟩

theorem mem_puts {draw : ℕ} {out : List (Outgoing H)} {x : H × DhtData} :
    x ∈ puts P draw out ↔ ∃ hash value, .put hash value ∈ out ∧
      x = (hash, DhtData.dhtPut P.key draw (value.blob P)) := by
  rw [puts, List.mem_filterMap]
  constructor
  · rintro ⟨o, ho, heq⟩
    cases o with
    | put hash value => exact ⟨hash, value, ho, (Option.some_inj.mp heq).symm⟩
    | reply | listen | get => cases heq
  · rintro ⟨hash, value, ho, rfl⟩
    exact ⟨_, ho, rfl⟩

/-- The callbacks capture the addresses of the node only. -/
theorem readPath_congr (hmac : d.macAddress = d'.macAddress)
    (hhost : d.hostAddress = d'.hostAddress) (req : DiscoReq) (out : Outgoing H) :
    DiscoveryNode.readPath d req out = DiscoveryNode.readPath d' req out := by
  cases req with
  | serviceLookup req =>
    cases out with
    | listen hash => simp only [DiscoveryNode.readPath, buildLookupKey, hmac]
    | get hash => simp only [DiscoveryNode.readPath, lookupClient, hhost]
    | reply | put => rfl
  | actorReg | actorUnreg | serviceReg | groupJoin | other => cases out <;> rfl

theorem HandlerTraced.keep (h : HandlerTraced mac host tr n actors d)
    (hkeep : ∀ socket x, actors.lookup socket = some x → actors'.lookup socket = some x) :
    HandlerTraced mac host tr n actors' d where
  macAddress := h.macAddress
  hostAddress := h.hostAddress
  checkins := h.checkins
  subscribed := h.subscribed
  clients k x hx := by
    obtain ⟨app, actor, hactor, hrest⟩ := h.clients k x hx
    exact ⟨app, actor, hkeep _ _ hactor, hrest⟩

/-! ### Requests -/

variable [DecidableEq H]

/-- **The handlers keep their knowledge traced.** -/
theorem HandlerTraced.step (h : HandlerTraced mac host tr n actors d)
    (hevent : EventTraced tr n l.event) (hs : d.step dht l = some r)
    (hkeep : ∀ socket x, actors.lookup socket = some x → actors'.lookup socket = some x)
    (hnew : ∀ req answers, l.event = .actorReg req answers →
      .reply (.actorReg .ok answers.port) ∈ r.2 →
      actors'.lookup answers.socket = some (req.appName, req.actorName)) :
    HandlerTraced mac host tr n actors' r.1 := by
  have hnext : DiscoveryMessageHandler.next dht d l = some r.1 :=
    Option.map_eq_some_iff.mpr ⟨r, hs, rfl⟩
  obtain ⟨hclients, hmac, hhost⟩ := next_clients hnext
  have hkeys : ∀ app actor, r.1.actorKeys app actor = d.actorKeys app actor := by
    intro app actor
    rw [actorKeys, actorKeys, hmac, hhost]
  have hold : ∀ k x, d.clients.lookup k = some x → ∃ app actor,
      actors'.lookup x.socket = some (app, actor) ∧ IsName app ∧ IsName actor ∧
        k ∈ r.1.actorKeys app actor := by
    intro k x hx
    obtain ⟨app, actor, hactor, happ, hname, hk⟩ := h.clients k x hx
    exact ⟨app, actor, hkeep _ _ hactor, happ, hname, (hkeys app actor).symm ▸ hk⟩
  refine ⟨hmac.trans h.macAddress, hhost.trans h.hostAddress, ?_, ?_, ?_⟩
  · intro pid c' hc'
    rcases checkin_of_mem hnext hc' with ⟨c, hc, hk, hv⟩ | ⟨req, putOk, heq, hkv⟩
    · rw [hk, hv]
      exact h.checkins pid c hc
    · rw [heq] at hevent
      exact offered_of_serviceReg h.macAddress hevent hkv
  · intro key c hc
    rw [next_subscribed hnext key] at hc
    rcases List.mem_append.mp hc with hc | hc
    · exact h.subscribed key c hc
    · -- the client of the lookup that is handled
      obtain ⟨p, hp, hpc⟩ := List.mem_filterMap.mp hc
      rw [Option.mem_toList, subscription] at hp
      split at hp
      · rename_i req heq
        obtain ⟨key', hkey', rfl⟩ := Option.map_eq_some_iff.mp hp
        obtain ⟨rfl, hsome⟩ := Option.ite_none_right_eq_some.mp hpc
        obtain rfl := Option.some_inj.mp hsome
        rw [heq] at hevent
        exact sought_of_serviceLookup h.macAddress h.hostAddress hevent hkey'
      · cases hp
  · intro k x hx
    rcases l with ⟨clock, event⟩
    cases event with
    | actorReg req answers =>
      obtain rfl := Option.some_inj.mp hs
      rcases handleActorReg_cases d dht req answers with ⟨hsame, -⟩ | ⟨hlook, hreply⟩
      · rw [hsame] at hx
        exact hold k x hx
      · rw [hlook] at hx
        split at hx
        · rename_i hk
          obtain rfl := Option.some_inj.mp hx
          refine ⟨req.appName, req.actorName, hnew req answers rfl hreply, hevent.1, hevent.2, ?_⟩
          rwa [hkeys]
        · exact hold k x hx
    | actorUnreg req failed =>
      cases hclients with
      | unregistered hlook =>
        rw [hlook] at hx
        split at hx
        · cases hx
        · exact hold k x hx
      | other hsame =>
        rw [hsame] at hx
        exact hold k x hx
    | serviceReg | serviceLookup | groupJoin | renewServices =>
      cases hclients with
      | other hsame =>
        rw [hsame] at hx
        exact hold k x hx

/-- The callbacks of a request wait for what was looked for. -/
theorem HandlerTraced.reading (h : HandlerTraced mac host tr n actors d) {request : Request}
    {clock : ℕ} (hevent : EventTraced tr n request.event)
    (hs : d.step P.dht ⟨clock, request.event⟩ = some r) {p : H × ReadPath}
    (hp : p ∈ r.2.filterMap (DiscoveryNode.readPath d request.req)) :
    ReadingTraced P mac host tr n p.1 p.2 := by
  obtain ⟨out, hout, hpath⟩ := List.mem_filterMap.mp hp
  cases request with
  | serviceLookup req =>
    obtain ⟨key, hkey, rfl⟩ := Option.map_eq_some_iff.mp hs
    have hsought := sought_of_serviceLookup h.macAddress h.hostAddress hevent hkey
    rw [List.mem_append, List.mem_append] at hout
    rcases hout with (hout | hout) | hout
    · obtain rfl := List.mem_singleton.mp hout
      cases hpath
    · split at hout
      · obtain rfl := List.mem_singleton.mp hout
        obtain ⟨key', hkey', rfl⟩ := Option.map_eq_some_iff.mp hpath
        obtain rfl := Option.some_inj.mp (hkey.symm.trans hkey')
        exact ⟨rfl, _, hsought⟩
      · cases hout
    · obtain rfl := List.mem_singleton.mp hout
      obtain rfl := Option.some_inj.mp hpath
      exact ⟨key, rfl, hsought⟩
  | actorReg req answers =>
    cases out with
    | listen hash =>
      obtain rfl := Option.some_inj.mp hpath
      trivial
    | reply | put | get => cases hpath
  | groupJoin req =>
    cases out with
    | get hash =>
      obtain rfl := Option.some_inj.mp hpath
      trivial
    | reply | put | listen => cases hpath
  | actorUnreg | serviceReg => cases out <;> cases hpath

/-! ### Iterations -/

/-- What an iteration adds to the node. -/
theorem finish_eq_some (h : node.finish which rl = some node') :
    ∃ actors', node' = { node with
        loop := rl.1
        reading := node.reading ++ DiscoveryNode.newReading node.loop.handler rl.2.outgoing which
        updates := node.updates ++ rl.2.ports
        actors := actors' } ∧
      (∀ socket x, node.actors.lookup socket = some x → actors'.lookup socket = some x) ∧
      ∀ req answers, which = .riaps (.actorReg req answers) →
        .reply (.actorReg .ok answers.port) ∈ rl.2.outgoing →
        actors'.lookup answers.socket = some (req.appName, req.actorName) := by
  rw [DiscoveryNode.finish] at h
  dsimp only at h
  split at h
  · rename_i hnone
    obtain rfl := Option.some_inj.mp h
    refine ⟨node.actors, rfl, fun _ _ hx => hx, ?_⟩
    rintro req answers rfl hreply
    simp [DiscoveryNode.registers, hreply] at hnone
  · rename_i socket actor hsome
    split at h
    · cases h
    · rename_i hfresh
      obtain rfl := Option.some_inj.mp h
      refine ⟨_, rfl, fun k x hx => ?_, ?_⟩
      · have hne : k ≠ socket := by
          rintro rfl
          exact hfresh (Table.mem_iff_lookup.mpr ⟨x, hx⟩)
        rwa [AList.lookup_insert_ne hne]
      · rintro req answers rfl hreply
        rw [DiscoveryNode.registers, if_pos (by simpa using hreply), Option.some_inj] at hsome
        obtain ⟨rfl, rfl⟩ := Prod.mk.inj hsome
        rw [AList.lookup_insert]

/-- **What the handling of a message does is traced.** -/
theorem handled_traced (hP : P.Lawful) (hA : Addresses mac host) (htr : PlainRun tr)
    {loop : DiscoveryLoop H} {clock : ℕ} (h : HandlerTraced mac host tr n actors loop.handler)
    (hreq : ∀ request, which = .riaps request → Asked tr n request.req)
    (hmsg : ∀ m, which = .dhtUpdate (some m) → ResultTraced P mac host tr n m)
    (hq : loop.handle P.dht clock which = some rl)
    (hkeep : ∀ socket x, actors.lookup socket = some x → actors'.lookup socket = some x)
    (hnew : ∀ req answers, which = .riaps (.actorReg req answers) →
      .reply (.actorReg .ok answers.port) ∈ rl.2.outgoing →
      actors'.lookup answers.socket = some (req.appName, req.actorName)) :
    HandlerTraced mac host tr n actors' rl.1.handler ∧
      (∀ p ∈ rl.2.ports, UpdateTraced mac host tr n actors' p) ∧
      (∀ p ∈ DiscoveryNode.newReading loop.handler rl.2.outgoing which,
        ReadingTraced P mac host tr n p.1 p.2) ∧
      ∀ draw, ∀ x ∈ puts P draw rl.2.outgoing, StoredTraced P mac tr x := by
  cases DiscoveryLoop.handled hq with
  | pipe command =>
    cases command with
    | term | join | other => exact ⟨h.keep hkeep, nofun, nofun, fun _ => nofun⟩
  | message message =>
    have hm : ResultTraced P mac host tr n message := hmsg message rfl
    have hnone : (loop.handleDhtMessage clock message).1.handler = loop.handler ∧
        (loop.handleDhtMessage clock message).2.outgoing = [] := by
      cases message with
      | providerUpdate | providerGet | zombieList | groupUpdate => exact ⟨rfl, rfl⟩
    refine ⟨?_, fun p hp => (h.message hP hA htr hm hp).keep hkeep, nofun, fun draw x hx => ?_⟩
    · rw [hnone.1]
      exact h.keep hkeep
    · rw [hnone.2] at hx
      cases hx
  | @request request r hr =>
    have hevent : EventTraced tr n request.event := (hreq request rfl).event
    refine ⟨?_, nofun, fun p hp => h.reading hevent hr hp, fun draw x hx => ?_⟩
    · refine h.step hevent hr hkeep fun req answers heq hreply => ?_
      cases request with
      | actorReg req' answers' =>
        obtain ⟨rfl, rfl⟩ := Event.actorReg.inj heq
        exact hnew _ _ rfl hreply
      | actorUnreg | serviceReg | serviceLookup | groupJoin => cases heq
    · obtain ⟨hash, value, hput, rfl⟩ := mem_puts.mp hx
      exact h.stored hP hevent (putBy_of_mem hr hput) draw
  | unreadable => exact ⟨h.keep hkeep, nofun, nofun, fun _ => nofun⟩
  | timeout => exact ⟨h.keep hkeep, nofun, nofun, fun _ => nofun⟩

/-- The periodic work is traced. -/
theorem HandlerTraced.maintain (hP : P.Lawful) {loop : DiscoveryLoop H}
    (h : HandlerTraced mac host tr n actors loop.handler) (start : ℕ) :
    HandlerTraced mac host tr n actors (loop.maintain P.dht start).1.handler ∧
      ∀ draw, ∀ x ∈ puts P draw (loop.maintain P.dht start).2, StoredTraced P mac tr x := by
  rcases maintain_cases loop P.dht start with ⟨hhandler, hputs⟩ | ⟨hhandler, hputs⟩
  · rw [hhandler, hputs]
    exact ⟨h, fun _ => nofun⟩
  · rw [hhandler, hputs]
    have hstep : loop.handler.step P.dht ⟨start, .renewServices⟩
        = some (loop.handler.renewServices P.dht start) := rfl
    have hevent : EventTraced tr n Event.renewServices := trivial
    refine ⟨h.step hevent hstep (fun _ _ hx => hx) nofun, fun draw x hx => ?_⟩
    obtain ⟨hash, value, hput, rfl⟩ := mem_puts.mp hx
    exact h.stored hP hevent (putBy_of_mem hstep hput) draw

/-- **An iteration keeps the node traced**, and what it puts is traced. -/
theorem NodeTraced.iterate (hP : P.Lawful) (hA : Addresses mac host) (htr : PlainRun tr)
    (h : NodeTraced P mac host tr n node)
    (hreq : ∀ request, it.which = .riaps request → Asked tr n request.req)
    (hmsg : ∀ m, it.which = .dhtUpdate (some m) → ResultTraced P mac host tr n m)
    (hi : node.loop.iterate P.dht it = some rl) (hf : node.finish it.which rl = some node') :
    NodeTraced P mac host tr n node' ∧
      ∀ draw, ∀ x ∈ puts P draw (rl.2.renewals ++ rl.2.outgoing), StoredTraced P mac tr x := by
  obtain ⟨q, hq, rfl⟩ := DiscoveryLoop.iterate_eq_some hi
  obtain ⟨actors', rfl, hkeep, hnew⟩ := finish_eq_some hf
  obtain ⟨hmaintained, hrenewals⟩ := h.handler.maintain hP it.start
  obtain ⟨hhandler, hports, hreading, hputs⟩ :=
    handled_traced hP hA htr hmaintained hreq hmsg hq hkeep hnew
  have hpath : DiscoveryNode.newReading node.loop.handler q.2.outgoing it.which
      = DiscoveryNode.newReading (node.loop.maintain P.dht it.start).1.handler q.2.outgoing
          it.which := by
    have hsame := readPath_congr (h.handler.macAddress.trans hmaintained.macAddress.symm)
      (h.handler.hostAddress.trans hmaintained.hostAddress.symm)
    rcases it.which with _ | _ | request | _
    · rfl
    · rfl
    · exact congrArg (fun f => q.2.outgoing.filterMap f) (funext (hsame request.req))
    · rfl
  constructor
  · refine ⟨hhandler, h.requests, fun p hp => ?_, h.results, fun p hp => ?_, h.connected⟩
    · rcases List.mem_append.mp hp with hp | hp
      · exact h.reading p hp
      · rw [hpath] at hp
        exact hreading p hp
    · rcases List.mem_append.mp hp with hp | hp
      · exact (h.updates p hp).keep hkeep
      · exact hports p hp
  · intro draw x hx
    rw [puts, List.filterMap_append, List.mem_append] at hx
    rcases hx with hx | hx
    · exact hrenewals draw x hx
    · exact hputs draw x hx

/-! ### Events -/

omit [DecidableEq H] in
/-- A port that was just opened is not connected. -/
theorem NodeTraced.openPort {name : ComponentName} {config : PortConfig} {a : PortAnswers}
    (h : NodeTraced P mac host tr n node) (hopen : Opened tr n name config a) :
    NodeTraced P mac host tr n (node.openPort name config a) where
  handler := h.handler
  requests req hreq := by
    rcases List.mem_append.mp hreq with hreq | hreq
    · exact h.requests req hreq
    · exact .port hopen (Option.mem_toList.mp hreq)
  reading := h.reading
  results := h.results
  updates := h.updates
  connected name' portName p hp e he := by
    rw [DiscoveryNode.ports, DiscoveryNode.openPort] at hp
    dsimp only at hp
    by_cases hname : name' = name
    · subst hname
      rw [AList.lookup_insert, Option.getD_some, ComponentPorts.initPort] at hp
      by_cases hport : portName = config.portName
      · subst hport
        rw [AList.lookup_insert, Option.some_inj] at hp
        rw [← hp] at he
        cases he
      · rw [AList.lookup_insert_ne hport] at hp
        exact h.connected _ _ _ hp e he
    · rw [AList.lookup_insert_ne hname] at hp
      exact h.connected _ _ _ hp e he

omit [DecidableEq H] in
/-- **An update connects a port that it is for.** -/
theorem NodeTraced.relay {p : PortSend} {rc : Int32} (h : NodeTraced P mac host tr n node)
    (hp : p ∈ node.updates) : NodeTraced P mac host tr n (node.relay p rc) := by
  obtain ⟨c, hm, hhost, hcstr, hclient, hsocket⟩ := h.updates p hp
  have htext : ∀ t ∈ c.texts, cStr t = t := fun t ht => cStr_of_notMem (hcstr t ht)
  rw [DiscoveryNode.relay, hsocket]
  refine ⟨h.handler, h.requests, h.reading, h.results,
    fun p' hp' => h.updates p' (List.mem_of_mem_erase hp'), fun name portName q hq e he => ?_⟩
  rw [DiscoveryNode.ports] at hq
  dsimp only at hq
  by_cases hname : name = ⟨c.appName, c.actorName, p.update.client.instanceName⟩
  · subst hname
    rw [AList.lookup_insert, Option.getD_some] at hq
    rcases ComponentPorts.connected_handlePortUpdate hq he with ⟨q', hq', he'⟩ | ⟨rfl, rfl⟩
    · exact h.connected _ _ _ hq' e he'
    · -- the port and the endpoint of the update
      rw [hclient, cStr_of_notMem (hhost.notMem (by decide) (by decide))]
      exact ⟨c, _, _, hm, rfl, htext c.portName (by simp [ClientDetails.texts]), rfl⟩
  · rw [AList.lookup_insert_ne hname] at hq
    exact h.connected _ _ _ hq e he

variable [DecidableEq N] {e : NetEvent N H}

omit [DecidableEq H] in
/-- A new node among the others. -/
theorem Traced.update (h : Traced P mac host tr s) (hnode : NodeTraced P mac host tr n node)
    {stored : List (H × DhtData)} (hstored : ∀ p ∈ stored, StoredTraced P mac tr p) :
    Traced P mac host tr ⟨Function.update s.node n node, stored⟩ := by
  refine ⟨fun m => ?_, hstored⟩
  dsimp only
  by_cases hm : m = n
  · subst hm
    rw [Function.update_self]
    exact hnode
  · rw [Function.update_of_ne hm]
    exact h.node m

omit [DecidableEq N] [DecidableEq H] in
theorem Traced.mono (h : Traced P mac host tr s) : Traced P mac host (tr ++ tr') s :=
  ⟨fun n => (h.node n).mono, fun p hp => (h.stored p hp).mono⟩

/-- **Every event keeps the net traced.** -/
theorem Traced.step (hP : P.Lawful) (hA : Addresses mac host) (h : Traced P mac host tr s)
    (hs : next P s e = some s') (htr : PlainRun (tr ++ [⟨s, e, s'⟩])) :
    Traced P mac host (tr ++ [⟨s, e, s'⟩]) s' := by
  have h' : Traced P mac host (tr ++ [⟨s, e, s'⟩]) s := h.mono
  have hmem : (⟨s, e, s'⟩ : Transition (DiscoveryNet N H) (NetEvent N H))
      ∈ tr ++ [⟨s, e, s'⟩] := by simp
  generalize tr ++ [⟨s, e, s'⟩] = tr' at h' hmem htr ⊢
  cases e with
  | openPort n name config a =>
    obtain rfl := Option.some_inj.mp hs
    exact h'.update ((h'.node n).openPort ⟨_, hmem, rfl⟩) h'.stored
  | ask n req =>
    obtain ⟨hactors, heq⟩ := Option.ite_none_right_eq_some.mp hs
    obtain rfl := Option.some_inj.mp heq
    have hn := h'.node n
    refine h'.update ?_ h'.stored
    refine ⟨hn.handler, fun req' hreq => ?_, hn.reading, hn.results, hn.updates, hn.connected⟩
    rcases List.mem_append.mp hreq with hreq | hreq
    · exact hn.requests req' hreq
    · rw [List.mem_singleton.mp hreq]
      exact .actor hactors (htr _ hmem)
  | iterate n it draw =>
    obtain ⟨node, htake, hs⟩ := Option.bind_eq_some_iff.mp hs
    obtain ⟨r, hi, hs⟩ := Option.bind_eq_some_iff.mp hs
    obtain ⟨node', hf, rfl⟩ := Option.map_eq_some_iff.mp hs
    obtain ⟨hn, hreq, hmsg⟩ := (h'.node n).take htake
    obtain ⟨hn', hputs⟩ := hn.iterate hP hA htr hreq hmsg hi hf
    refine h'.update hn' fun p hp => ?_
    rcases List.mem_append.mp hp with hp | hp
    · exact h'.stored p hp
    · exact hputs draw p hp
  | answer n hash path values =>
    obtain ⟨⟨hpath, hvalues⟩, heq⟩ := Option.ite_none_right_eq_some.mp hs
    obtain rfl := Option.some_inj.mp heq
    have hn := h'.node n
    refine h'.update ?_ h'.stored
    refine ⟨hn.handler, hn.requests, hn.reading, fun m hm => ?_, hn.updates, hn.connected⟩
    rcases List.mem_append.mp hm with hm | hm
    · exact hn.results m hm
    · exact messages_traced hP hA htr (hn.reading _ hpath)
        (fun v hv => h'.stored _ (hvalues v hv)) m hm
  | plant hash value =>
    obtain ⟨hnone, heq⟩ := Option.ite_none_right_eq_some.mp hs
    obtain rfl := Option.some_inj.mp heq
    refine ⟨h'.node, fun p hp => ?_⟩
    rcases List.mem_append.mp hp with hp | hp
    · exact h'.stored p hp
    · -- what cannot be read is traced
      obtain rfl := List.mem_singleton.mp hp
      intro data hread
      rw [hnone] at hread
      cases hread
  | relay n send rc =>
    obtain ⟨hsend, heq⟩ := Option.ite_none_right_eq_some.mp hs
    obtain rfl := Option.some_inj.mp heq
    exact h'.update ((h'.node n).relay hsend) h'.stored

omit [DecidableEq H] [DecidableEq N] in
theorem traced_start (P : DiscoveryParams H) (mac host : N → String) (clock : ℕ) :
    Traced P mac host ([] : List (Transition (DiscoveryNet N H) (NetEvent N H)))
      (start P mac host clock) := by
  have hnone : ∀ {α : Type _} {p : α → Prop}, ∀ x ∈ ([] : List α), p x :=
    fun x hx => absurd hx List.not_mem_nil
  refine ⟨fun n => ⟨⟨rfl, rfl, fun _ => hnone, fun _ => hnone, ?_⟩, hnone, ?_, hnone, hnone, ?_⟩,
    fun p hp => absurd hp List.not_mem_nil⟩
  · intro k x hx
    cases hx
  · intro p hp
    simp only [start, List.mem_cons, List.not_mem_nil, or_false] at hp
    rcases hp with rfl | rfl
    · trivial
    · trivial
  · intro name portName p hp
    cases hp

/-- **Every run of the net is traced.** -/
theorem Traced.run (hP : P.Lawful) (hA : Addresses mac host) {clock : ℕ}
    (h : Run (next P) (start P mac host clock) tr s) (htr : PlainRun tr) :
    Traced P mac host tr s := by
  induction h with
  | nil => exact traced_start P mac host clock
  | @snoc tr s s' e _ hs ih =>
    have hbefore : PlainRun tr := fun t ht => htr t (List.mem_append_left _ ht)
    exact (ih hbefore).step hP hA hs htr

/-- Ids written as the strings they are made from, and no security. -/
def plainParams : DiscoveryParams String where
  dht := plainDht
  codec := ⟨cStr, fun _ => none⟩
  key := none
  packMsg _ := []

theorem plainParams_lawful : plainParams.Lawful :=
  ⟨Function.injective_id, ⟨fun _ => rfl⟩, nofun⟩

/-- The addresses of two nodes. -/
def twoMacs (n : Bool) : String := if n then "bb" else "aa"

def twoHosts (n : Bool) : String := if n then "10.0.0.2" else "10.0.0.1"

theorem twoAddresses : Addresses twoMacs twoHosts where
  names n := by
    cases n
    · exact ⟨by decide, by decide, by decide, by decide, by decide⟩
    · exact ⟨by decide, by decide, by decide, by decide, by decide⟩
  mac n := by cases n <;> decide
  host n := by cases n <;> decide

/-- The component with a subscriber on the first node. -/
def listener : ComponentName := ⟨"app", "A", "c"⟩

/-- Its actor registers, it opens its port, and a publisher is opened on the other
node. -/
def introduction : List (NetEvent Bool String) :=
  [.ask false (.actorReg actorA),
    .iterate false ⟨0, 0, 0, .riaps (.actorReg actorA bound)⟩ 0,
    .openPort false listener ⟨.subscriber, "sub", "Msg", false⟩ ⟨"10.0.0.1", 0, 7, true⟩,
    .iterate false ⟨10, 10, 10, .riaps (.serviceLookup
      ⟨⟨"app", "Msg", .sub, .global⟩, ⟨"10.0.0.1", "A", "c", "sub"⟩⟩)⟩ 0,
    .openPort true ⟨"app", "B", "d"⟩ ⟨.publisher, "pub", "Msg", false⟩
      ⟨"10.0.0.2", 5555, 8, true⟩,
    .iterate true ⟨20, 20, 20, .riaps (.serviceReg
      ⟨⟨"app", "Msg", .pub, .global⟩, "10.0.0.2", 5555, 8⟩ true)⟩ 0]

/-- The hash table tells the first node of the publisher. -/
def notice : NetEvent Bool String :=
  .answer false "/app/Msg/pub" (.listen "/app/Msg/pub")
    [DhtData.dhtPut none 0 (toBlob "10.0.0.2:5555")]

/-- The update reaches the component. -/
def delivery : List (NetEvent Bool String) :=
  [.iterate false ⟨30, 30, 30, .dhtUpdate (some (.providerUpdate
      ⟨"/app/Msg/pub", ["10.0.0.2:5555"]⟩))⟩ 0,
    .relay false ⟨"10.0.0.2:5555", 0, ⟨⟨"10.0.0.1", "A", "c", "sub"⟩, .global, "10.0.0.2",
      5555⟩⟩ 0]

end DiscoveryNet

end Riaps
