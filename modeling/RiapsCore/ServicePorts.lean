/-
The ports of a component that take part in the discovery of services
(`src/componentmodel/ports`, `src/componentmodel/r_discoverdapi.cc`,
`src/componentmodel/r_componentbase.cc`).

A publisher, response or answer port binds its socket and registers the address
when it is constructed; a subscriber, request or query port asks for the addresses
of its providers in `Init()`.  The reply to a lookup carries no addresses: all of
them arrive later as updates, which `HandlePortUpdate()` passes to the thread of
the component, and this connects the port.

* `openRequest` — the request that a new port makes;
* `updatePort_lookup` — what an update does to the ports of the component;
* `connected_handlePortUpdate` — a connection was made before or is the one that
  the update asks for.

What a port takes from outside (the addresses, the result of `zsock_bind` and
`zsock_connect`, the certificate) is given with the call.  Timers and the ports
inside a process have no part in this and are left out.
-/
import RiapsCore.RiapsMessages

open StdString

namespace Riaps

deriving instance DecidableEq for ActorReq, Path, Client, ServiceRegReq, ServiceLookupReq,
  GroupJoinReq, DiscoReq

/-! ### The requests (`r_discoverdapi.cc`) -/

namespace Disco

/-- `RegisterActor(app_name, actor_name)` in the process `pid`. -/
def registerActor (appName actorName : String) (pid : Int32) : DiscoReq :=
  .actorReg ⟨appName, actorName, pid⟩

/-- `DeregisterActor(actor_name, app_name)`. -/
def deregisterActor (actorName appName : String) (pid : Int32) : DiscoReq :=
  .actorUnreg ⟨appName, actorName, pid⟩

/-- `RegisterService(...)`, which takes the port as a `uint16_t`. -/
def registerService (appName messageType ipAddress : String) (port : UInt16) (kind : Kind)
    (scope : Scope) (pid : Int32) : DiscoReq :=
  .serviceReg ⟨⟨appName, messageType, kind, scope⟩, ipAddress, Int32.ofNat port.toNat, pid⟩

/-- `SubscribeToService(...)`. -/
def subscribeToService (appName partName actorName ipAddress : String) (kind : Kind)
    (scope : Scope) (portName msgType : String) : DiscoReq :=
  .serviceLookup ⟨⟨appName, msgType, kind, scope⟩, ⟨ipAddress, actorName, partName, portName⟩⟩

/-- `JoinGroup(app_name, component_id, group_id, group_services)`. -/
def joinGroup (appName componentId : String) (groupId : GroupId) (services : List GroupService)
    (pid : Int32) : DiscoReq :=
  .groupJoin ⟨appName, groupId, services, componentId, pid⟩

end Disco

/-! ### Ports -/

/-- `PortTypes`, of the ports that register or look up a service. -/
inductive PortTypes where
  | publisher | response | answer | subscriber | request | query
deriving DecidableEq, Repr

/-- The configuration of a port. -/
structure PortConfig where
  portType : PortTypes
  portName : String
  messageType : String
  isLocal : Bool
deriving DecidableEq

/-- The names of a component, which it has from its actor and its configuration. -/
structure ComponentName where
  appName : String
  actorName : String
  componentName : String
deriving DecidableEq

/-- What the constructor of a port takes from outside: `GetIPAddress()`, the
value of `port_` after `zsock_bind`, the process, and whether the port has what
security asks for, nothing or a certificate. -/
structure PortAnswers where
  ipAddress : String
  port : Int32
  pid : Int32
  certificate : Bool
deriving DecidableEq

/-- A port with the endpoints that its socket is connected to. -/
structure RiapsPort where
  config : PortConfig
  certificate : Bool
  connected : List String := []
deriving DecidableEq

namespace PortConfig

/-- `is_local ? Scope::LOCAL : Scope::GLOBAL`. -/
def scope (config : PortConfig) : Scope := if config.isLocal then .local else .global

/-- `is_local ? "127.0.0.1" : GetIPAddress()`. -/
def host (config : PortConfig) (a : PortAnswers) : String :=
  if config.isLocal then "127.0.0.1" else a.ipAddress

end PortConfig

variable (name : ComponentName) (config : PortConfig) (a : PortAnswers)

/-- The registration of a provider with the host it is bound to. -/
def ComponentName.register (host : String) (kind : Kind) : DiscoReq :=
  Disco.registerService name.appName config.messageType host a.port.toInt16.toUInt16 kind
    config.scope a.pid

/-- The lookup of a client. -/
def ComponentName.subscribe (kind : Kind) : DiscoReq :=
  Disco.subscribeToService name.appName name.componentName name.actorName (config.host a) kind
    config.scope config.portName config.messageType

/-- `PublisherPort(config, parent)`.  Without a certificate `InitSocket()` returns
early, and the port is registered all the same. -/
def PublisherPort.open : Option DiscoReq := some (name.register config a (config.host a) .pub)

/-- `ResponsePort(config, parent)`. -/
def ResponsePort.open : Option DiscoReq :=
  if a.certificate then some (name.register config a (config.host a) .rep) else none

/-- `AnswerPort(config, parent_component)`, bound to the network even when it is
local. -/
def AnswerPort.open : Option DiscoReq :=
  if a.certificate then some (name.register config a a.ipAddress .ans) else none

/-- `SubscriberPort(config, parentComponent)` and `Init()`. -/
def SubscriberPort.open : Option DiscoReq := some (name.subscribe config a .sub)

/-- `RequestPort(config, parent)` and `Init()`. -/
def RequestPort.open : Option DiscoReq :=
  if a.certificate then some (name.subscribe config a .req) else none

/-- `QueryPort(config, component)` and `Init()`, which knows no certificate. -/
def QueryPort.open : Option DiscoReq := some (name.subscribe config a .qry)

/-- The request that a new port makes. -/
def openRequest : Option DiscoReq :=
  match config.portType with
  | .publisher => PublisherPort.open name config a
  | .response => ResponsePort.open name config a
  | .answer => AnswerPort.open name config a
  | .subscriber => SubscriberPort.open name config a
  | .request => RequestPort.open name config a
  | .query => QueryPort.open name config a

/-! ### Updates -/

/-- `ConnectToPublihser(endpoint)` of a subscriber port, `ConnectToResponse(endpoint)`
of the others, with the result of `zsock_connect`. -/
def RiapsPort.connect (p : RiapsPort) (endpoint : String) (rc : Int32) : RiapsPort :=
  if p.config.portType = .subscriber ∧ ¬ p.certificate then p
  else if rc ≠ 0 then p
  else { p with connected := p.connected ++ [endpoint] }

/-- `ports_`. -/
abbrev ComponentPorts := Table String RiapsPort

namespace ComponentPorts

/-- `Init…Port(config)`: the new port takes its name in `ports_`. -/
def initPort (ports : ComponentPorts) : ComponentPorts :=
  ports.insert config.portName { config := config, certificate := a.certificate }

/-- The port is one that is connected by updates. -/
def isClient : PortTypes → Bool
  | .subscriber | .request | .query => true
  | .publisher | .response | .answer => false

/-- `CMD_UPDATE_PORT` in `component_actor`. -/
def updatePort (ports : ComponentPorts) (portname host port : String) (rc : Int32) :
    ComponentPorts :=
  match ports.lookup portname with
  | none => ports
  | some p =>
    if isClient p.config.portType then
      ports.insert portname (p.connect ("tcp://" ++ host ++ ":" ++ port) rc)
    else ports

/-- `HandlePortUpdate(port_name, host, port)` and what the thread of the component
makes of it. -/
def handlePortUpdate (ports : ComponentPorts) (portName host : String) (port : Int32)
    (rc : Int32) : ComponentPorts :=
  ports.updatePort (cStr portName) (cStr host) (toString port.toInt) rc

variable {ports : ComponentPorts} {portName host portname k : String} {port rc : Int32}
  {p p' : RiapsPort}

/-- An update changes one port and nothing but its connections. -/
theorem updatePort_lookup {host port : String}
    (h : (ports.updatePort portname host port rc).lookup k = some p') :
    ∃ p, ports.lookup k = some p ∧ (p' = p ∨ k = portname ∧
      p' = p.connect ("tcp://" ++ host ++ ":" ++ port) rc ∧ isClient p.config.portType) := by
  rw [updatePort] at h
  split at h
  · exact ⟨p', h, .inl rfl⟩
  · rename_i p hp
    split at h
    · rename_i hclient
      by_cases hk : k = portname
      · subst hk
        rw [AList.lookup_insert, Option.some_inj] at h
        exact ⟨p, hp, .inr ⟨rfl, h.symm, hclient⟩⟩
      · rw [AList.lookup_insert_ne hk] at h
        exact ⟨p', h, .inl rfl⟩
    · exact ⟨p', h, .inl rfl⟩

theorem mem_connected_connect {endpoint e : String} (h : e ∈ (p.connect endpoint rc).connected) :
    e ∈ p.connected ∨ e = endpoint := by
  rw [RiapsPort.connect] at h
  split at h
  · exact .inl h
  · split at h
    · exact .inl h
    · exact (List.mem_append.mp h).imp id List.mem_singleton.mp

/-- **A connection was there before, or the update has asked for it.** -/
theorem connected_handlePortUpdate {e : String}
    (h : (ports.handlePortUpdate portName host port rc).lookup k = some p')
    (he : e ∈ p'.connected) :
    (∃ p, ports.lookup k = some p ∧ e ∈ p.connected) ∨
      k = cStr portName ∧ e = "tcp://" ++ cStr host ++ ":" ++ toString port.toInt := by
  obtain ⟨p, hp, rfl | ⟨rfl, rfl, -⟩⟩ := updatePort_lookup h
  · exact .inl ⟨p', hp, he⟩
  · rcases mem_connected_connect he with he | he
    · exact .inl ⟨p, hp, he⟩
    · exact .inr ⟨rfl, he⟩

end ComponentPorts

end Riaps
