/-
What providers offer and clients look for.

An endpoint travels a long way: a provider registers it, the discovery service of
its node puts it into the hash table and renews it there, a callback on another
node reads it, the discovery service of that node sends it to the sockets of its
actors, and an actor passes it on to a component.  On the way the keys are only
compared by their hashes, the clients of a key are kept apart from its values, and
an update does not name its application.

* `putBy_of_mem`, `checkin_of_mem` — where the values of the hash table come from;
* `Offered`, `Sought` — what the ports that were opened offer and look for;
* `matched_of_offered` — under one key they fit together;
* `Sought.ne_aside` — no client looks for the keys of zombies and groups.
-/
import RiapsCore.DiscoveryNet

open Runs StdString

namespace Riaps

namespace DiscoveryMessageHandler

variable {H : Type*} {dht : OpenDht H} {d d' : DiscoveryMessageHandler H} {l : Stamped}
  {r : DiscoveryMessageHandler H × List (Outgoing H)} {hash : H} {value : DhtValue}

/-! ### What a handler puts -/

/-- Everything an event can put into the hash table. -/
inductive PutBy (dht : OpenDht H) (d : DiscoveryMessageHandler H) :
    Event → H → DhtValue → Prop
  | service {req : ServiceRegReq} {putOk : Bool} {kv : String × String} :
      d.buildInsertKeyValuePair req.path req.host req.port = some kv →
      PutBy dht d (.serviceReg req putOk) (dht.get kv.1) (.address kv.2)
  | renewal {event : Event} {pid : Int32} {c : ServiceCheckin} :
      c ∈ d.checkins pid → PutBy dht d event (dht.get c.key) (.address c.value)
  | zombie {event : Event} (address : String) :
      PutBy dht d event (dht.get (d.zombieKey address)) (.address address)
  | group {req : GroupJoinReq} (details : GroupDetails) :
      PutBy dht d (.groupJoin req) (dht.get (groupsKey req.appName)) (.group details)

theorem putBy_of_mem_renewServices {clock : ℕ}
    (h : .put hash value ∈ (d.renewServices dht clock).2) (event : Event) :
    PutBy dht d event hash value := by
  obtain ⟨e, he, hput⟩ := List.mem_flatMap.mp h
  obtain ⟨c, hc, heq⟩ := List.mem_map.mp hput
  have hmem : c ∈ d.checkins e.1 := by
    rw [checkins, AList.mem_lookup_iff.mpr he, Option.getD_some]
    exact (List.mem_filter.mp hc).1
  obtain ⟨rfl, rfl⟩ := Outgoing.put.inj heq
  exact .renewal hmem

/-- A registration of an actor that changes the table replies that it did. -/
theorem handleActorReg_cases (d : DiscoveryMessageHandler H) (dht : OpenDht H) (req : ActorReq)
    (answers : ActorRegAnswers) :
    (d.handleActorReg dht req answers).1.clients = d.clients ∧
        (∀ port, .reply (.actorReg .ok port) ∉ (d.handleActorReg dht req answers).2) ∨
      (∀ k, (d.handleActorReg dht req answers).1.clients.lookup k
        = if k ∈ d.actorKeys req.appName req.actorName then
            some ⟨answers.socket, answers.port, req.pid, req.appName⟩ else d.clients.lookup k) ∧
      .reply (.actorReg .ok answers.port) ∈ (d.handleActorReg dht req answers).2 := by
  have hreply : ∀ d : DiscoveryMessageHandler H,
      .reply (.actorReg .ok answers.port) ∈ (d.registerActor dht req answers).2 := by
    intro d
    rw [registerActor]
    exact List.mem_append_right _ (List.mem_singleton_self _)
  rw [handleActorReg]
  split
  · exact .inr ⟨lookup_registerActor d dht req answers, hreply d⟩
  · split
    · exact .inl ⟨rfl, by simp⟩
    · refine .inr ⟨fun k => ?_, hreply _⟩
      -- the purged keys are taken again
      rw [lookup_registerActor, lookup_deregisterActor]
      have hkeys : (d.deregisterActor req.appName req.actorName).2.actorKeys req.appName
          req.actorName = d.actorKeys req.appName req.actorName := rfl
      rw [hkeys]
      by_cases hk : k ∈ d.actorKeys req.appName req.actorName
      · rw [if_pos hk, if_pos hk]
      · rw [if_neg hk, if_neg hk, if_neg hk]

variable [DecidableEq H]

/-- **Every put is one of the listed.** -/
theorem putBy_of_mem (h : d.step dht l = some r) (hput : .put hash value ∈ r.2) :
    PutBy dht d l.event hash value := by
  rcases l with ⟨clock, event⟩
  cases event with
  | actorReg req answers =>
    obtain rfl := Option.some_inj.mp h
    -- a registration of an actor puts nothing
    rw [handleActorReg] at hput
    split at hput
    · rw [registerActor] at hput
      split at hput <;> simp at hput
    · split at hput
      · simp at hput
      · rw [registerActor] at hput
        split at hput <;> simp at hput
  | actorUnreg req failed =>
    obtain rfl := Option.some_inj.mp h
    simp only [handleActorUnreg, List.mem_append, List.mem_map, List.mem_singleton] at hput
    rcases hput with ⟨c, -, heq⟩ | heq
    · obtain ⟨rfl, rfl⟩ := Outgoing.put.inj heq
      exact .zombie c.value
    · cases heq
  | serviceReg req putOk =>
    obtain ⟨kv, hkv, rfl⟩ := Option.map_eq_some_iff.mp h
    simp only [List.mem_cons, List.not_mem_nil, or_false, reduceCtorEq] at hput
    obtain ⟨rfl, rfl⟩ := Outgoing.put.inj hput
    exact .service hkv
  | serviceLookup req =>
    obtain ⟨key, -, rfl⟩ := Option.map_eq_some_iff.mp h
    dsimp only at hput
    split at hput <;> simp at hput
  | groupJoin req =>
    obtain rfl := Option.some_inj.mp h
    simp only [handleGroupJoin, List.mem_cons, List.not_mem_nil, or_false, reduceCtorEq,
      false_or] at hput
    obtain ⟨rfl, rfl⟩ := Outgoing.put.inj hput
    exact .group _
  | renewServices =>
    obtain rfl := Option.some_inj.mp h
    exact putBy_of_mem_renewServices hput _

@[simp] theorem renewed_value (clock : ℕ) (c : ServiceCheckin) :
    (renewed clock c).value = c.value := by
  rw [renewed]
  split <;> rfl

/-- A service was there before, or has just been registered. -/
theorem checkin_of_mem (h : next dht d l = some d') {pid : Int32} {c' : ServiceCheckin}
    (hc : c' ∈ d'.checkins pid) :
    (∃ c ∈ d.checkins pid, c'.key = c.key ∧ c'.value = c.value) ∨
      ∃ req putOk, l.event = .serviceReg req putOk ∧
        d.buildInsertKeyValuePair req.path req.host req.port = some (c'.key, c'.value) := by
  cases next_checkins h with
  | registered hkv hcheckins hdb =>
    rw [hcheckins] at hc
    split at hc
    · rcases List.mem_append.mp hc with hc | hc
      · exact .inl ⟨c', hc, rfl, rfl⟩
      · obtain rfl := List.mem_singleton.mp hc
        exact .inr ⟨_, _, rfl, hkv⟩
    · exact .inl ⟨c', hc, rfl, rfl⟩
  | unregistered hcheckins hdb =>
    rw [hcheckins] at hc
    exact .inl ⟨c', hc, rfl, rfl⟩
  | renewed hcheckins hdb =>
    rw [hcheckins] at hc
    obtain ⟨c, hmem, rfl⟩ := List.mem_map.mp hc
    exact .inl ⟨c, hmem, by simp, by simp⟩
  | other hreg hunreg hcheckins hdb =>
    rw [hcheckins] at hc
    exact .inl ⟨c', hc, rfl, rfl⟩

end DiscoveryMessageHandler

/-! ### Names and addresses -/

/-- An identifier, as far as keys and messages are concerned. -/
def IsName (s : String) : Prop := '/' ∉ s.toList ∧ '\x00' ∉ s.toList

/-- An IPv4 address, as far as endpoints are concerned. -/
def IsHost (s : String) : Prop := ∀ c ∈ s.toList, c.isDigit ∨ c = '.'

/-- A MAC address without its separators. -/
def IsMac (s : String) : Prop := ∀ c ∈ s.toList, c ∈ "0123456789abcdefABCDEF".toList

instance (s : String) : Decidable (IsName s) := inferInstanceAs (Decidable (_ ∧ _))

instance (s : String) : Decidable (IsHost s) := List.decidableBAll _ s.toList

instance (s : String) : Decidable (IsMac s) := List.decidableBAll _ s.toList

theorem IsHost.notMem {s : String} (h : IsHost s) {c : Char} (hdigit : c.isDigit = false)
    (hdot : c ≠ '.') : c ∉ s.toList := by
  intro hc
  rcases h c hc with hd | rfl
  · rw [hd] at hdigit
    cases hdigit
  · exact hdot rfl

theorem lt_of_isDigit {c : Char} (h : c.isDigit = true) : c.toNat < 256 := by
  rw [Char.isDigit, Bool.and_eq_true, decide_eq_true_eq, decide_eq_true_eq] at h
  have hle : c.toNat ≤ 57 := h.2
  omega

theorem IsHost.byte {s : String} (h : IsHost s) : ∀ c ∈ s.toList, c.toNat < 256 := by
  intro c hc
  rcases h c hc with hd | rfl
  · exact lt_of_isDigit hd
  · decide

/-- The names of a port are identifiers and its address is one. -/
@[mk_iff]
structure PlainPort (name : ComponentName) (config : PortConfig) (a : PortAnswers) : Prop where
  appName : IsName name.appName
  actorName : IsName name.actorName
  componentName : IsName name.componentName
  portName : IsName config.portName
  messageType : IsName config.messageType
  ipAddress : IsHost a.ipAddress

instance (name : ComponentName) (config : PortConfig) (a : PortAnswers) :
    Decidable (PlainPort name config a) :=
  decidable_of_iff _ (plainPort_iff name config a).symm

/-- The names in an event are identifiers and its addresses are addresses. -/
def NetEvent.Plain {N H : Type*} : NetEvent N H → Prop
  | .openPort _ name config a => PlainPort name config a
  | .ask _ (.actorReg req) => IsName req.appName ∧ IsName req.actorName
  | .ask _ (.groupJoin req) => IsName req.appName
  | _ => True

instance {N H : Type*} : ∀ e : NetEvent N H, Decidable e.Plain
  | .openPort .. => inferInstanceAs (Decidable (PlainPort _ _ _))
  | .ask _ (.actorReg _) => inferInstanceAs (Decidable (_ ∧ _))
  | .ask _ (.groupJoin _) => inferInstanceAs (Decidable (IsName _))
  | .ask _ (.actorUnreg _) | .ask _ (.serviceReg _) | .ask _ (.serviceLookup _) | .ask _ .other
  | .iterate .. | .answer .. | .plant .. | .relay .. => .isTrue trivial

/-- The addresses of the nodes. -/
structure Addresses {N : Type*} (mac host : N → String) : Prop where
  names : ∀ n, DiscoveryMessageHandler.NodeNames (mac n) (host n)
  mac : ∀ n, IsMac (mac n)
  host : ∀ n, IsHost (host n)

/-- What the nodes rely on: hashes do not collide, texts are read by their
`cStr()`, and the key is that of the deployment. -/
structure DiscoveryParams.Lawful {H : Type*} (P : DiscoveryParams H) : Prop where
  get_injective : Function.Injective P.dht.get
  text : P.codec.CText
  key : ∀ key, P.key = some key → key.Lawful

theorem DiscoveryParams.Lawful.read_dhtPut {H : Type*} {P : DiscoveryParams H} (h : P.Lawful)
    (draw : ℕ) (data : Blob) : (DhtData.dhtPut P.key draw data).read P.key = some data := by
  rcases hkey : P.key with _ | key
  · rfl
  · exact DhtData.read_dhtPut (h.key key hkey) draw data

/-! ### Offers and searches -/

/-- The kind that a port is registered or looks for services as. -/
def PortTypes.kind : PortTypes → Kind
  | .publisher => .pub
  | .response => .rep
  | .answer => .ans
  | .subscriber => .sub
  | .request => .req
  | .query => .qry

namespace PortConfig

/-- The host that a provider is bound to. -/
def boundHost (config : PortConfig) (a : PortAnswers) : String :=
  if config.portType = .answer then a.ipAddress else config.host a

/-- The number that a provider registers. -/
def boundPort (a : PortAnswers) : Int32 := Int32.ofNat a.port.toInt16.toUInt16.toNat

/-- The path of the services that a port provides or looks for. -/
def path (config : PortConfig) (name : ComponentName) : Path :=
  ⟨name.appName, config.messageType, config.portType.kind, config.scope⟩

/-- The client that the discovery service makes of a port. -/
def clientDetails (config : PortConfig) (name : ComponentName) (host : String) : ClientDetails :=
  ⟨name.appName, name.actorName, host, name.componentName, config.portName, config.isLocal⟩

theorem path_scope {config : PortConfig} {name : ComponentName} :
    (config.path name).scope = .local ↔ config.isLocal = true := by
  rw [path, scope]
  split <;> simp [*]

end PortConfig

section

variable {name : ComponentName} {config : PortConfig} {a : PortAnswers}

/-- A registration comes from a provider. -/
theorem openRequest_serviceReg {req : ServiceRegReq}
    (h : openRequest name config a = some (.serviceReg req)) :
    config.portType.kind.IsProvider ∧
      req.path = config.path name ∧
      req.host = config.boundHost a ∧ req.port = PortConfig.boundPort a := by
  rcases config with ⟨portType, portName, messageType, isLocal⟩
  cases portType with
  | publisher =>
    obtain rfl := DiscoReq.serviceReg.inj (Option.some_inj.mp h)
    exact ⟨.inl rfl, rfl, rfl, rfl⟩
  | response =>
    obtain ⟨-, h⟩ := Option.ite_none_right_eq_some.mp h
    obtain rfl := DiscoReq.serviceReg.inj (Option.some_inj.mp h)
    exact ⟨.inr (.inr (.inl rfl)), rfl, rfl, rfl⟩
  | answer =>
    obtain ⟨-, h⟩ := Option.ite_none_right_eq_some.mp h
    obtain rfl := DiscoReq.serviceReg.inj (Option.some_inj.mp h)
    exact ⟨.inr (.inr (.inr rfl)), rfl, rfl, rfl⟩
  | subscriber => cases Option.some_inj.mp h
  | request => cases Option.some_inj.mp (Option.ite_none_right_eq_some.mp h).2
  | query => cases Option.some_inj.mp h

/-- A lookup comes from a client. -/
theorem openRequest_serviceLookup {req : ServiceLookupReq}
    (h : openRequest name config a = some (.serviceLookup req)) :
    config.portType.kind.IsClient ∧
      req.path = config.path name ∧
      req.client = ⟨config.host a, name.actorName, name.componentName, config.portName⟩ := by
  rcases config with ⟨portType, portName, messageType, isLocal⟩
  cases portType with
  | publisher => cases Option.some_inj.mp h
  | response => cases Option.some_inj.mp (Option.ite_none_right_eq_some.mp h).2
  | answer => cases Option.some_inj.mp (Option.ite_none_right_eq_some.mp h).2
  | subscriber =>
    obtain rfl := DiscoReq.serviceLookup.inj (Option.some_inj.mp h)
    exact ⟨.inl rfl, rfl, rfl⟩
  | request =>
    obtain ⟨-, h⟩ := Option.ite_none_right_eq_some.mp h
    obtain rfl := DiscoReq.serviceLookup.inj (Option.some_inj.mp h)
    exact ⟨.inr (.inr (.inl rfl)), rfl, rfl⟩
  | query =>
    obtain rfl := DiscoReq.serviceLookup.inj (Option.some_inj.mp h)
    exact ⟨.inr (.inr (.inr rfl)), rfl, rfl⟩

end

/-- The provider is one that the client should talk to. -/
structure Fits {N : Type*} (mac : N → String) (m : N) (name' : ComponentName)
    (config' : PortConfig) (n : N) (name : ComponentName) (config : PortConfig) : Prop where
  appName : name'.appName = name.appName
  messageType : config'.messageType = config.messageType
  kind : config'.portType.kind.Counterpart config.portType.kind
  isLocal : config'.isLocal = config.isLocal
  node : config.isLocal → mac m = mac n

namespace DiscoveryNet

variable {N H : Type*} {mac host : N → String} {n m : N} {key value : String}
  {name name' : ComponentName} {config config' : PortConfig} {a a' : PortAnswers}
  {c : ClientDetails} {tr tr' : List (Transition (DiscoveryNet N H) (NetEvent N H))}

/-- The port has been opened on the node. -/
def Opened (tr : List (Transition (DiscoveryNet N H) (NetEvent N H))) (n : N)
    (name : ComponentName) (config : PortConfig) (a : PortAnswers) : Prop :=
  ∃ t ∈ tr, t.label = .openPort n name config a

/-- A provider has offered the address under the key. -/
def Offered (mac : N → String) (tr : List (Transition (DiscoveryNet N H) (NetEvent N H)))
    (key value : String) : Prop :=
  ∃ m name config a, Opened tr m name config a ∧ config.portType.kind.IsProvider ∧
    (DiscoveryMessageHandler.init (mac m) "" : DiscoveryMessageHandler H).buildInsertKeyValuePair
      (config.path name) (config.boundHost a) (PortConfig.boundPort a) = some (key, value)

/-- A client on the node has looked for the key. -/
def Sought (mac host : N → String) (tr : List (Transition (DiscoveryNet N H) (NetEvent N H)))
    (n : N) (key : String) (c : ClientDetails) : Prop :=
  ∃ name config a, Opened tr n name config a ∧ config.portType.kind.IsClient ∧
    (DiscoveryMessageHandler.init (mac n) "" : DiscoveryMessageHandler H).buildLookupKey
      (config.path name) = some key ∧
    c = config.clientDetails name (host n)

/-- The address is that of a provider that the client should talk to. -/
def Matched (mac host : N → String) (tr : List (Transition (DiscoveryNet N H) (NetEvent N H)))
    (n : N) (c : ClientDetails) (hostname : String) (port : Int32) : Prop :=
  ∃ name config a m name' config' a', Opened tr n name config a ∧
    Opened tr m name' config' a' ∧ Fits mac m name' config' n name config ∧
    c = config.clientDetails name (host n) ∧ hostname = config'.boundHost a' ∧
    port = PortConfig.boundPort a'

theorem Opened.mono (h : Opened tr n name config a) : Opened (tr ++ tr') n name config a := by
  obtain ⟨t, ht, hlabel⟩ := h
  exact ⟨t, List.mem_append_left _ ht, hlabel⟩

theorem Offered.mono (h : Offered mac tr key value) : Offered mac (tr ++ tr') key value := by
  obtain ⟨m, name, config, a, hopen, hrest⟩ := h
  exact ⟨m, name, config, a, hopen.mono, hrest⟩

theorem Sought.mono (h : Sought mac host tr n key c) : Sought mac host (tr ++ tr') n key c := by
  obtain ⟨name, config, a, hopen, hrest⟩ := h
  exact ⟨name, config, a, hopen.mono, hrest⟩

theorem Matched.mono {hostname : String} {port : Int32}
    (h : Matched mac host tr n c hostname port) :
    Matched mac host (tr ++ tr') n c hostname port := by
  obtain ⟨name, config, a, m, name', config', a', hopen, hopen', hrest⟩ := h
  exact ⟨name, config, a, m, name', config', a', hopen.mono, hopen'.mono, hrest⟩

/-! ### Keys -/

/-- All events of the history are plain. -/
def PlainRun (tr : List (Transition (DiscoveryNet N H) (NetEvent N H))) : Prop :=
  ∀ t ∈ tr, t.label.Plain

theorem Opened.plain (h : Opened tr n name config a) (htr : PlainRun tr) :
    PlainPort name config a := by
  obtain ⟨t, ht, hlabel⟩ := h
  have hplain := htr t ht
  rwa [hlabel] at hplain

theorem boundHost_isHost (h : IsHost a.ipAddress) : IsHost (config.boundHost a) := by
  rw [PortConfig.boundHost, PortConfig.host]
  split
  · exact h
  · split
    · decide
    · exact h

theorem boundPort_range (a : PortAnswers) :
    0 ≤ (PortConfig.boundPort a).toInt ∧ (PortConfig.boundPort a).toInt ≤ 65535 := by
  have hlt := a.port.toInt16.toUInt16.toNat_lt
  rw [PortConfig.boundPort, Int32.toInt_ofNat_of_lt (by omega)]
  omega

open DiscoveryMessageHandler in
/-- **Under one key, providers and clients fit together.** -/
theorem matched_of_offered (hmac : ∀ n, mac n ≠ "") (htr : PlainRun tr)
    (ho : Offered mac tr key value) (hs : Sought mac host tr n key c) :
    ∃ hostname port, Matched mac host tr n c hostname port ∧ IsHost hostname ∧
      0 ≤ port.toInt ∧ port.toInt ≤ 65535 ∧
      ∀ zombies, value ∉ zombies → readEndpoint zombies (cStr value) = some (hostname, port) := by
  obtain ⟨m, name', config', a', hopen', hp, hinsert⟩ := ho
  obtain ⟨name, config, a, hopen, hc, hlookup, rfl⟩ := hs
  have hplain := hopen.plain htr
  have hplain' := hopen'.plain htr
  have hhost : IsHost (config'.boundHost a') := boundHost_isHost hplain'.ipAddress
  have hrange := boundPort_range a'
  refine ⟨config'.boundHost a', PortConfig.boundPort a', ?_, hhost, hrange.1, hrange.2, ?_⟩
  · -- the two ways to write the key tell its parts
    obtain ⟨kind, hkind, hkey⟩ := (buildInsertKeyValuePair_key _ _ _ _ _).mp ⟨value, hinsert⟩
    obtain ⟨kind', hkind', hkey'⟩ := (buildLookupKey_key _ _ _).mp hlookup
    obtain ⟨kind₀, hkind₀, hlen⟩ := kindMap_provider hp
    obtain ⟨kind₀', hkind₀', hlen'⟩ := kindPairs_client hc
    obtain rfl := Option.some_inj.mp (hkind.symm.trans hkind₀)
    obtain rfl := Option.some_inj.mp (hkind'.symm.trans hkind₀')
    have hparts := (key_inj hplain'.appName.1 hplain.appName.1 hplain'.messageType.1
      hplain.messageType.1).mp (hkey.symm.trans hkey')
    obtain ⟨happ, htype, htail⟩ := hparts
    obtain ⟨hkinds, hscope⟩ := (keyTail_inj hlen hlen' (hmac m) (hmac n)).mp htail
    refine ⟨name, config, a, m, name', config', a', hopen, hopen',
      ⟨happ, htype, ?_, ?_, ?_⟩, rfl, rfl, rfl⟩
    · rw [← kindMap_eq_kindPairs_iff hp hc]
      exact hkind.trans ((congrArg some hkinds).trans hkind'.symm)
    · rw [Bool.eq_iff_iff, ← PortConfig.path_scope, ← PortConfig.path_scope]
      rcases hscope with ⟨hne, hne'⟩ | ⟨heq, heq', -⟩
      · exact iff_of_false hne hne'
      · exact iff_of_true heq heq'
    · intro hlocal
      rcases hscope with ⟨-, hne'⟩ | ⟨-, -, heq⟩
      · exact absurd (PortConfig.path_scope.mpr hlocal) hne'
      · exact heq
  · intro zombies hzombie
    have hcstr := cStr_buildInsertKeyValuePair hinsert (hhost.notMem (by decide) (by decide))
    have hread := readEndpoint_buildInsertKeyValuePair hinsert
      (hhost.notMem (by decide) (by decide)) hrange hzombie
    rw [show cStr value = value from hcstr]
    exact hread

/-- The hash is that of a key which is none of a service. -/
def Aside (P : DiscoveryParams H) (mac : N → String) (hash : H) : Prop :=
  (∃ app, IsName app ∧ hash = P.dht.get (DiscoveryMessageHandler.groupsKey app)) ∨
    hash = P.dht.get DiscoveryMessageHandler.zombieGlobalKey ∨
    ∃ n, hash = P.dht.get ("/zombie/locals/" ++ mac n)

open DiscoveryMessageHandler in
/-- A key of a service has three parts. -/
theorem two_parts_ne {x y app type tail : String} (hx : NoSlash x) (hy : NoSlash y)
    (happ : NoSlash app) : "/" ++ x ++ "/" ++ y ≠ "/" ++ app ++ "/" ++ type ++ "/" ++ tail := by
  intro heq
  have hlist : '/' :: (x.toList ++ '/' :: y.toList)
      = '/' :: (app.toList ++ '/' :: (type.toList ++ '/' :: tail.toList)) := by
    simpa using congrArg String.toList heq
  rw [List.cons_inj_right, Separators.append_sep_inj hx happ] at hlist
  refine hy ?_
  rw [hlist.2]
  exact List.mem_append_right _ List.mem_cons_self

open DiscoveryMessageHandler in
/-- The key that a client looks for is one of a service. -/
theorem Sought.ne_aside {P : DiscoveryParams H} (hP : P.Lawful) (hmac : ∀ n, IsMac (mac n))
    (htr : PlainRun tr) (hs : Sought mac host tr n key c) {hash : H} (ha : Aside P mac hash) :
    hash ≠ P.dht.get key := by
  obtain ⟨name, config, a, hopen, hc, hlookup, rfl⟩ := hs
  have hplain := hopen.plain htr
  obtain ⟨kind, hkind, rfl⟩ := (buildLookupKey_key _ _ _).mp hlookup
  rcases ha with ⟨app, happ, rfl⟩ | rfl | ⟨n', rfl⟩
  · intro heq
    have hkey : "/" ++ "groups" ++ "/" ++ app = _ := hP.get_injective heq
    exact two_parts_ne (by decide) happ.1 hplain.appName.1 hkey
  · intro heq
    have hkey : "/" ++ "zombie" ++ "/" ++ "globals" = _ := hP.get_injective heq
    exact two_parts_ne (by decide) (by decide) hplain.appName.1 hkey
  · -- the kind has a letter that no MAC address has
    intro heq
    have hkey : "/" ++ "zombie" ++ "/" ++ "locals" ++ "/" ++ mac n' = _ := hP.get_injective heq
    obtain ⟨-, -, htail⟩ := (key_inj (by decide) hplain.appName.1 (by decide)
      hplain.messageType.1).mp hkey
    have hletters : IsMac kind := by
      intro ch hch
      refine hmac n' ch ?_
      rw [htail, keyTail]
      split
      · rw [String.toList_append]
        exact List.mem_append_left _ hch
      · exact hch
    have hkinds : kind = "pub" ∨ kind = "srv" ∨ kind = "rep" ∨ kind = "ans" := by
      have hkind' : kindPairs config.portType.kind = some kind := hkind
      rcases hc with hc | hc | hc | hc <;> rw [hc] at hkind' <;>
        simp [kindPairs, kindMap] at hkind' <;> simp [← hkind']
    rcases hkinds with rfl | rfl | rfl | rfl <;> exact absurd hletters (by decide)

theorem notMem_nul_of_isMac {s : String} (h : IsMac s) : '\x00' ∉ s.toList :=
  fun hmem => absurd (h _ hmem) (by decide)

open DiscoveryMessageHandler in
theorem Sought.cStr_key (hmac : ∀ n, IsMac (mac n)) (htr : PlainRun tr)
    (hs : Sought mac host tr n key c) : cStr key = key := by
  obtain ⟨name, config, a, hopen, hc, hlookup, rfl⟩ := hs
  have hplain := hopen.plain htr
  obtain ⟨kind, hkind, rfl⟩ := (buildLookupKey_key _ _ _).mp hlookup
  have hnul : '\x00' ∉ kind.toList := by
    have hkind' : kindPairs config.portType.kind = some kind := hkind
    rcases hc with hc | hc | hc | hc <;> rw [hc] at hkind' <;>
      simp [kindPairs, kindMap] at hkind' <;> rw [← hkind'] <;> decide
  have htail : '\x00' ∉ (keyTail kind (config.path name).scope (mac n)).toList := by
    rw [keyTail]
    split
    · rw [String.toList_append, List.mem_append, not_or]
      exact ⟨hnul, notMem_nul_of_isMac (hmac n)⟩
    · exact hnul
  refine cStr_of_notMem ?_
  simp only [String.toList_append, List.mem_append, not_or]
  refine ⟨⟨⟨⟨⟨by decide, hplain.appName.2⟩, by decide⟩, hplain.messageType.2⟩, by decide⟩, htail⟩

theorem Sought.cStrings (hhost : ∀ n, IsHost (host n)) (htr : PlainRun tr)
    (hs : Sought mac host tr n key c) : c.CStrings := by
  obtain ⟨name, config, a, hopen, -, -, rfl⟩ := hs
  have hplain := hopen.plain htr
  intro s hs
  simp only [ClientDetails.texts, PortConfig.clientDetails, List.mem_cons, List.not_mem_nil,
    or_false] at hs
  rcases hs with rfl | rfl | rfl | rfl | rfl
  · exact hplain.appName.2
  · exact hplain.actorName.2
  · exact (hhost n).notMem (by decide) (by decide)
  · exact hplain.componentName.2
  · exact hplain.portName.2

/-- Bytes are read back. -/
theorem ofBlob_toBlob {s : String} (h : ∀ c ∈ s.toList, c.toNat < 256) :
    ofBlob (toBlob s) = s := by
  rw [ofBlob, toBlob, List.map_map, ← String.toList_inj, String.toList_ofList]
  conv_rhs => rw [← List.map_id s.toList]
  refine List.map_congr_left fun c hc => ?_
  rw [Function.comp_apply, UInt8.toNat_ofNat', Nat.mod_eq_of_lt (h c hc), Char.ofNat_toNat]
  rfl

theorem Offered.ofBlob_toBlob (htr : PlainRun tr) (h : Offered mac tr key value) :
    ofBlob (toBlob value) = value := by
  obtain ⟨m, name, config, a, hopen, -, hinsert⟩ := h
  have hhost : IsHost (config.boundHost a) := boundHost_isHost (hopen.plain htr).ipAddress
  refine DiscoveryNet.ofBlob_toBlob fun c hc => ?_
  rw [DiscoveryMessageHandler.buildInsertKeyValuePair_value hinsert, List.mem_append,
    List.mem_cons] at hc
  rcases hc with hc | rfl | hc
  · exact hhost.byte c hc
  · decide
  · rw [Nat.toString_eq_repr, Nat.toList_repr] at hc
    exact lt_of_isDigit (Nat.isDigit_of_mem_toDigits (by decide) (by decide) hc)

theorem Offered.cStr_value (htr : PlainRun tr) (h : Offered mac tr key value) :
    cStr value = value := by
  obtain ⟨m, name, config, a, hopen, -, hinsert⟩ := h
  have hhost : IsHost (config.boundHost a) := boundHost_isHost (hopen.plain htr).ipAddress
  exact DiscoveryMessageHandler.cStr_buildInsertKeyValuePair hinsert
    (hhost.notMem (by decide) (by decide))

end DiscoveryNet

end Riaps
