/-
The loop of the discovery service (`DiscoveryMessageHandler::Run()`).

One iteration waits for at most `REGULAR_MAINTAIN_PERIOD` on the sockets, does
the periodic work and handles what has arrived: a request of an actor, a command
on the pipe, or a message that the callbacks of the hash table have pushed to
`DHT_RESULT_CHANNEL`.  `last_service_checkin_` and `last_zombie_check_` are set
in `Init()` and never again, so that the periodic work is done in every
iteration once the period has passed.

An iteration reads the clock at its start, where the periodic work reads it
again, and when it handles a message; a registration reads it a third time, so
to speak, when it gets to its put, after waiting for the hash table.
-/
import RiapsCore.Discovery
import RiapsCore.Runs
import RiapsCore.StdString

open Runs

namespace Riaps

/-! ### Messages (`include/messaging/capnp/disco.capnp`) -/

structure ProviderListUpdate where
  providerpath : String
  newvalues : List String
deriving DecidableEq

/-- `ProviderListGet`; of the path only the two fields that are set. -/
structure ProviderListGet where
  appName : String
  scope : Scope
  client : Client
  results : List String

structure GroupUpdate where
  appName : String
  groupId : GroupId
  componentId : String
  services : List GroupService
deriving DecidableEq

/-- `DhtUpdate`: what the callbacks of the hash table report. -/
inductive DhtUpdate where
  | providerUpdate (u : ProviderListUpdate)
  | providerGet (g : ProviderListGet)
  | zombieList (zombies : List String)
  | groupUpdate (u : GroupUpdate)

/-- `PortUpd`. -/
structure PortUpd where
  client : Client
  scope : Scope
  host : String
  port : Int32

/-- A `PortUpd` sent to the socket of an actor, with the string of the hash
table that it was made from. -/
structure PortSend where
  endpoint : String
  socket : ℕ
  update : PortUpd

namespace DiscoveryMessageHandler

variable {H : Type*}

/-! ### Messages from the hash table -/

/-- The host and the port that an endpoint string is taken for; `none` for a
zombie and for a string that is skipped. -/
def readEndpoint (zombies : Table String ℕ) (endpoint : String) : Option (String × Int32) :=
  if endpoint ∈ zombies then none
  else
    match StdString.cut ':' endpoint with
    | none => none
    | some (host, port) =>
      match StdString.stoi port with
      | .error _ => none
      | .ok portNum => some (host, portNum)

/-- `HandleDhtGet(msgProviderGet, clients_)`. -/
def handleDhtGet (d : DiscoveryMessageHandler H) (zombies : Table String ℕ)
    (g : ProviderListGet) : List PortSend :=
  g.results.filterMap fun endpoint =>
    match readEndpoint zombies endpoint with
    | none => none
    | some (host, port) =>
      -- the client might be gone while the table was searched
      (d.clients.lookup (clientKeyBase g.appName g.client.actorName)).map fun actor =>
        ⟨endpoint, actor.socket, ⟨g.client, g.scope, host, port⟩⟩

/-- The `PortUpd` of `HandleDhtUpdate` for one subscribed client and one
endpoint. -/
def portUpdateFor (d : DiscoveryMessageHandler H) (zombies : Table String ℕ)
    (c : ClientDetails) (endpoint : String) : Option PortSend :=
  match readEndpoint zombies endpoint with
  | none => none
  | some (host, port) =>
    (d.clients.lookup (clientKeyBase c.appName c.actorName)).map fun actor =>
      ⟨endpoint, actor.socket, ⟨⟨c.actorHost, c.actorName, c.instanceName, c.portName⟩,
        if c.isLocal then .local else .global, host, port⟩⟩

/-- `HandleDhtUpdate(msgProviderUpdate, client_subscriptions_)`.  No socket of a
registered actor is null. -/
def handleDhtUpdate (d : DiscoveryMessageHandler H) (zombies : Table String ℕ)
    (u : ProviderListUpdate) : List PortSend :=
  match d.clientSubscriptions.lookup u.providerpath with
  | none => []
  | some clients => clients.flatMap fun c => u.newvalues.filterMap (d.portUpdateFor zombies c)

/-- The endpoints that are read. -/
theorem readEndpoint_eq_some_iff {zombies : Table String ℕ} {endpoint host : String}
    {port : Int32} :
    readEndpoint zombies endpoint = some (host, port) ↔
      endpoint ∉ zombies ∧ ∃ text, StdString.cut ':' endpoint = some (host, text) ∧
        StdString.stoi text = .ok port := by
  rw [readEndpoint]
  by_cases hz : endpoint ∈ zombies
  · simp [hz]
  · rw [if_neg hz]
    rcases StdString.cut ':' endpoint with _ | ⟨host', text⟩
    · simp
    · rcases hport : StdString.stoi text with _ | port'
      · simp [hz, hport]
      · simp [hz, hport]

/-- What `HandleDhtGet` sends was read from an endpoint. -/
theorem mem_handleDhtGet {d : DiscoveryMessageHandler H} {zombies : Table String ℕ}
    {g : ProviderListGet} {p : PortSend} (h : p ∈ d.handleDhtGet zombies g) :
    ∃ hp, readEndpoint zombies p.endpoint = some hp := by
  obtain ⟨endpoint, -, hsend⟩ := List.mem_filterMap.mp h
  rcases hread : readEndpoint zombies endpoint with _ | ⟨host, port⟩
  · simp [hread] at hsend
  · rw [hread] at hsend
    obtain ⟨actor, -, rfl⟩ := Option.map_eq_some_iff.mp hsend
    exact ⟨_, hread⟩

/-- What `HandleDhtUpdate` sends was read from an endpoint. -/
theorem mem_handleDhtUpdate {d : DiscoveryMessageHandler H} {zombies : Table String ℕ}
    {u : ProviderListUpdate} {p : PortSend} (h : p ∈ d.handleDhtUpdate zombies u) :
    ∃ hp, readEndpoint zombies p.endpoint = some hp := by
  rw [handleDhtUpdate] at h
  split at h
  · cases h
  · obtain ⟨c, -, h⟩ := List.mem_flatMap.mp h
    obtain ⟨endpoint, -, hsend⟩ := List.mem_filterMap.mp h
    rw [portUpdateFor] at hsend
    rcases hread : readEndpoint zombies endpoint with _ | ⟨host, port⟩
    · simp [hread] at hsend
    · rw [hread] at hsend
      obtain ⟨actor, -, rfl⟩ := Option.map_eq_some_iff.mp hsend
      exact ⟨_, hread⟩

/-- The loop of `HandleDhtGroupUpdate` over the actors: the sockets that the
update is sent to, each the first time it is met. -/
def groupSockets (appName : String) (sentCache : Finset ℕ) : List ActorDetails → List ℕ
  | [] => []
  | actor :: rest =>
    if actor.appName = appName then
      if actor.socket ∈ sentCache then groupSockets appName sentCache rest
      else actor.socket :: groupSockets appName (insert actor.socket sentCache) rest
    else groupSockets appName sentCache rest

/-- `HandleDhtGroupUpdate(msgGroupUpdate)`: the copies of the update with the
sockets they are sent to. -/
def handleDhtGroupUpdate (d : DiscoveryMessageHandler H) (u : GroupUpdate) :
    List (ℕ × GroupUpdate) :=
  (groupSockets u.appName ∅ (d.clients.entries.map Sigma.snd)).map fun socket => (socket, u)

end DiscoveryMessageHandler

/-! ### The loop -/

/-- `service_check_period_`, in milliseconds. -/
def serviceCheckPeriod : UInt16 := UInt16.ofNat 20000

/-- `zombie_check_period_`: ten minutes, which a `uint16_t` does not hold. -/
def zombieCheckPeriod : UInt16 := UInt16.ofNat 600000

/-- `MaintainZombieList()`: zombies are purged after 15 minutes. -/
def maintainZombieList (clock : ℕ) (zombies : Table String ℕ) : Table String ℕ :=
  Table.retain (fun _ stamp => ¬ ((clock : ℤ) - stamp > 60 * 15 * 1000)) zombies

/-- The handler with the members that only the loop uses. -/
structure DiscoveryLoop (H : Type*) where
  handler : DiscoveryMessageHandler H
  zombieServices : Table String ℕ
  lastServiceCheckin : ℕ
  lastZombieCheck : ℕ
  terminated : Bool

/-- The requests of `DiscoReq`. -/
inductive Request where
  | actorReg (req : ActorReq) (answers : DiscoveryMessageHandler.ActorRegAnswers)
  | actorUnreg (req : ActorReq) (failed : Finset ℕ)
  | serviceReg (req : ServiceRegReq) (putOk : Bool)
  | serviceLookup (req : ServiceLookupReq)
  | groupJoin (req : GroupJoinReq)

/-- The handler that `HandleRiapsMessage()` calls. -/
def Request.event : Request → DiscoveryMessageHandler.Event
  | .actorReg req answers => .actorReg req answers
  | .actorUnreg req failed => .actorUnreg req failed
  | .serviceReg req putOk => .serviceReg req putOk
  | .serviceLookup req => .serviceLookup req
  | .groupJoin req => .groupJoin req

/-- A command on the pipe. -/
inductive PipeCommand where
  | term
  | join (hosts : List String)
  | other

/-- What the poller returns: a command, a message of the callbacks (`none` when
it cannot be deserialized), a request, or nothing. -/
inductive Ready where
  | pipe (command : PipeCommand)
  | dhtUpdate (message : Option DhtUpdate)
  | riaps (request : Request)
  | timeout

/-- One iteration with its readings of `zclock_mono()`: at the start, when the
message is handled, and when a registration gets to its put. -/
structure Iteration where
  start : ℕ
  clock : ℕ
  put : ℕ
  which : Ready

/-- The readings of an iteration, in order. -/
def Iteration.readings (it : Iteration) : List ℕ := [it.start, it.clock, it.put]

theorem Iteration.start_mem_readings (it : Iteration) : it.start ∈ it.readings := by
  simp [readings]

theorem Iteration.put_mem_readings (it : Iteration) : it.put ∈ it.readings := by
  simp [readings]

theorem Iteration.clock_mem_readings (it : Iteration) : it.clock ∈ it.readings := by
  simp [readings]

/-- What an iteration sends: the puts of the renewal, what the request handler
sends out, the updates for the actors, and the hosts to bootstrap from. -/
structure LoopEffects (H : Type*) where
  renewals : List (Outgoing H) := []
  outgoing : List (Outgoing H) := []
  ports : List PortSend := []
  groups : List (ℕ × GroupUpdate) := []
  bootstrap : List String := []

namespace DiscoveryLoop

variable {H : Type*}

/-- `Init()` at the time `clock`, with an empty database. -/
def init (macAddress hostAddress : String) (clock : ℕ) : DiscoveryLoop H where
  handler := .init macAddress hostAddress
  zombieServices := ∅
  lastServiceCheckin := clock
  lastZombieCheck := clock
  terminated := false

/-- `RenewServices()` is due in an iteration that starts at `start`. -/
def Renews (s : DiscoveryLoop H) (start : ℕ) : Prop :=
  (start : ℤ) - s.lastServiceCheckin > serviceCheckPeriod.toNat

instance (s : DiscoveryLoop H) (start : ℕ) : Decidable (s.Renews start) :=
  inferInstanceAs (Decidable (_ > _))

/-- The periodic work at the start of an iteration. -/
def maintain (s : DiscoveryLoop H) (dht : OpenDht H) (start : ℕ) :
    DiscoveryLoop H × List (Outgoing H) :=
  let renewal := if s.Renews start then s.handler.renewServices dht start else (s.handler, [])
  let zombies :=
    if (start : ℤ) - s.lastZombieCheck > zombieCheckPeriod.toNat then
      maintainZombieList start s.zombieServices
    else s.zombieServices
  ({ s with handler := renewal.1, zombieServices := zombies }, renewal.2)

/-- The zombie list branch of `Run()`. -/
def markZombies (clock : ℕ) (zombies : List String) (table : Table String ℕ) :
    Table String ℕ :=
  zombies.foldl (fun table zombie => table.insert zombie clock) table

/-- A message on `DHT_RESULT_CHANNEL`. -/
def handleDhtMessage (s : DiscoveryLoop H) (clock : ℕ) :
    DhtUpdate → DiscoveryLoop H × LoopEffects H
  | .providerUpdate u => (s, { ports := s.handler.handleDhtUpdate s.zombieServices u })
  | .providerGet g => (s, { ports := s.handler.handleDhtGet s.zombieServices g })
  | .zombieList zombies =>
    ({ s with zombieServices := markZombies clock zombies s.zombieServices }, {})
  | .groupUpdate u => (s, { groups := s.handler.handleDhtGroupUpdate u })

/-- `HandlePipeMessage()`. -/
def handlePipeMessage (s : DiscoveryLoop H) : PipeCommand → DiscoveryLoop H × LoopEffects H
  | .term => ({ s with terminated := true }, {})
  | .join hosts => (s, { bootstrap := hosts })
  | .other => (s, {})

variable [DecidableEq H]

/-- Handle what the poller has returned. -/
def handle (s : DiscoveryLoop H) (dht : OpenDht H) (clock : ℕ) :
    Ready → Option (DiscoveryLoop H × LoopEffects H)
  | .pipe command => some (s.handlePipeMessage command)
  | .dhtUpdate none => some (s, {})
  | .dhtUpdate (some message) => some (s.handleDhtMessage clock message)
  | .riaps request =>
    (s.handler.step dht ⟨clock, request.event⟩).map fun r =>
      ({ s with handler := r.1 }, { outgoing := r.2 })
  | .timeout => some (s, {})

/-- One iteration of `Run()`. -/
def iterate (dht : OpenDht H) (s : DiscoveryLoop H) (it : Iteration) :
    Option (DiscoveryLoop H × LoopEffects H) :=
  if s.terminated then none
  else
    let (s, renewals) := s.maintain dht it.start
    (s.handle dht it.clock it.which).map fun r => (r.1, { r.2 with renewals := renewals })

/-- The step function of runs. -/
def next (dht : OpenDht H) (s : DiscoveryLoop H) (it : Iteration) : Option (DiscoveryLoop H) :=
  (s.iterate dht it).map Prod.fst

/-- The ways in which an iteration goes on after the periodic work. -/
inductive Handled (dht : OpenDht H) (s : DiscoveryLoop H) (clock : ℕ) :
    Ready → DiscoveryLoop H × LoopEffects H → Prop
  | pipe (command : PipeCommand) :
      Handled dht s clock (.pipe command) (s.handlePipeMessage command)
  | message (message : DhtUpdate) :
      Handled dht s clock (.dhtUpdate (some message)) (s.handleDhtMessage clock message)
  | request {request : Request} {r : DiscoveryMessageHandler H × List (Outgoing H)} :
      s.handler.step dht ⟨clock, request.event⟩ = some r →
      Handled dht s clock (.riaps request) ({ s with handler := r.1 }, { outgoing := r.2 })
  | unreadable : Handled dht s clock (.dhtUpdate none) (s, {})
  | timeout : Handled dht s clock .timeout (s, {})

theorem handled {dht : OpenDht H} {s : DiscoveryLoop H} {clock : ℕ} {which : Ready}
    {q : DiscoveryLoop H × LoopEffects H} (h : s.handle dht clock which = some q) :
    Handled dht s clock which q := by
  rcases which with command | message | request | _
  · obtain rfl := Option.some_inj.mp h
    exact .pipe command
  · rcases message with _ | message
    · obtain rfl := Option.some_inj.mp h
      exact .unreadable
    · obtain rfl := Option.some_inj.mp h
      exact .message message
  · obtain ⟨r, hr, rfl⟩ := Option.map_eq_some_iff.mp h
    exact .request hr
  · obtain rfl := Option.some_inj.mp h
    exact .timeout

/-- An iteration does the periodic work and handles one message. -/
theorem iterate_eq_some {dht : OpenDht H} {s : DiscoveryLoop H} {it : Iteration}
    {r : DiscoveryLoop H × LoopEffects H} (h : s.iterate dht it = some r) :
    ∃ q, (s.maintain dht it.start).1.handle dht it.clock it.which = some q ∧
      r = (q.1, { q.2 with renewals := (s.maintain dht it.start).2 }) := by
  rw [iterate] at h
  split at h
  · cases h
  · obtain ⟨q, hq, rfl⟩ := Option.map_eq_some_iff.mp h
    exact ⟨q, hq, rfl⟩

end DiscoveryLoop

end Riaps
