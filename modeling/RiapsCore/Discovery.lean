/-
`riaps::DiscoveryMessageHandler` (`include/discoveryd/r_msghandler.h`,
`src/discoveryd/r_msghandler.cc`): the requests of the actors of one node.

Each `Handle…` function becomes a function of the state and the request; it
returns the new state and, in order, what it sends out: the reply and the
operations on the distributed hash table.  What a request takes from outside
(the answers of `kill`, the new socket and its port, whether a call of the
database succeeds) is given with it.  An exception that nobody catches ends the
process: such a request has no result.

OpenDHT is a parameter: the two ways in which the code makes an id from a
string, the function `InfoHash::get` and the constructor `InfoHash(string)`.
Encryption of the stored data, sleeps and logging are left out, as is the
timeout of a `RegisteredGroup`, which nothing reads.  `clock` is a reading of
`zclock_mono()` in milliseconds.
-/
import RiapsCore.ComponentBase

namespace Riaps

/-! ### Requests and replies (`include/messaging/capnp/disco.capnp`) -/

inductive Status where
  | ok
  | err
deriving DecidableEq, Repr

/-- `Kind`; `unknown` is any value that the schema does not name. -/
inductive Kind where
  | none | pub | sub | clt | srv | req | rep | qry | ans | unknown
deriving DecidableEq, Repr

inductive Scope where
  | none | global | local | unknown
deriving DecidableEq, Repr

structure ActorReq where
  appName : String
  actorName : String
  pid : Int32

/-- The parts of `Path` that the handlers read. -/
structure Path where
  appName : String
  msgType : String
  kind : Kind
  scope : Scope

structure Client where
  actorHost : String
  actorName : String
  instanceName : String
  portName : String

structure ServiceRegReq where
  path : Path
  host : String
  port : Int32
  pid : Int32

structure ServiceLookupReq where
  path : Path
  client : Client

structure GroupJoinReq where
  appName : String
  groupId : GroupId
  services : List GroupService
  componentId : String
  pid : Int32

inductive DiscoRep where
  | actorReg (status : Status) (port : Int32)
  | actorUnreg (status : Status) (port : Int32)
  | serviceReg (status : Status)
  | serviceLookup (status : Status)
  | groupJoin (status : Status)
deriving DecidableEq

/-! ### The hash table -/

/-- The ids of OpenDHT. -/
structure OpenDht (H : Type*) where
  /-- `InfoHash::get(s)`. -/
  get : String → H
  /-- The constructor `InfoHash(s)`. -/
  ofString : String → H

/-- `GroupDetails`. -/
structure GroupDetails where
  appName : String
  componentId : String
  groupId : GroupId
  groupServices : List GroupService
deriving DecidableEq

/-- A value put into the hash table: an address, or packed group details. -/
inductive DhtValue where
  | address (value : String)
  | group (details : GroupDetails)
deriving DecidableEq

/-- What a handler sends out. -/
inductive Outgoing (H : Type*) where
  | reply (rep : DiscoRep)
  | put (key : H) (value : DhtValue)
  | listen (key : H)
  | get (key : H)
deriving DecidableEq

/-! ### State -/

/-- `ActorDetails`; `socket` is the identity of the PAIR socket. -/
structure ActorDetails where
  socket : ℕ
  port : Int32
  pid : Int32
  appName : String
deriving DecidableEq

/-- `ClientDetails`. -/
structure ClientDetails where
  appName : String
  actorName : String
  actorHost : String
  instanceName : String
  portName : String
  isLocal : Bool
deriving DecidableEq

/-- `ServiceCheckins`; the timeout is ten minutes, in milliseconds. -/
structure ServiceCheckin where
  key : String
  value : String
  createdTime : UInt64
  timeout : UInt64 := 10 * 60 * 1000
deriving DecidableEq

/-- `RegisteredGroup`. -/
structure RegisteredGroup where
  groupKey : String
  services : GroupDetails
  actorPid : Int32
deriving DecidableEq

/-- The local database: with `MDB_DUPSORT` a key has a set of values. -/
abbrev Lmdb := Finset (String × String)

/-- `Lmdb::Put(key, value)`. -/
def Lmdb.put (db : Lmdb) (key value : String) : Lmdb := insert (key, value) db

/-- `Lmdb::Del(key)`, which deletes every value of the key. -/
def Lmdb.del (db : Lmdb) (key : String) : Lmdb := db.filter fun e => e.1 ≠ key

/-- The members of the handler that the requests read or write. -/
structure DiscoveryMessageHandler (H : Type*) where
  macAddress : String
  hostAddress : String
  clients : Table String ActorDetails
  clientSubscriptions : Table String (List ClientDetails)
  groupListeners : Finset String
  registeredListeners : Finset H
  serviceCheckins : Table Int32 (List ServiceCheckin)
  groupServices : Table Int32 (List RegisteredGroup)
  db : Lmdb

namespace DiscoveryMessageHandler

variable {H : Type*}

/-- A new handler with an empty database. -/
def init (macAddress hostAddress : String) : DiscoveryMessageHandler H where
  macAddress := macAddress
  hostAddress := hostAddress
  clients := ∅
  clientSubscriptions := ∅
  groupListeners := ∅
  registeredListeners := ∅
  serviceCheckins := ∅
  groupServices := ∅
  db := ∅

/-! ### Keys -/

/-- `kindMap.at(kind)`, which throws for a kind that is not there. -/
def kindMap : Kind → Option String
  | .pub => some "pub"
  | .sub => some "sub"
  | .clt => some "clt"
  | .srv => some "srv"
  | .req => some "req"
  | .rep => some "rep"
  | .qry => some "qry"
  | .ans => some "ans"
  | .none | .unknown => Option.none

/-- `kindPairs.at(kind)`: the kind of the counterpart. -/
def kindPairs : Kind → Option String
  | .clt => kindMap .srv
  | .sub => kindMap .pub
  | .req => kindMap .rep
  | .rep => kindMap .req
  | .qry => kindMap .ans
  | .ans => kindMap .qry
  | _ => Option.none

/-- `BuildInsertKeyValuePair(...)`; the port becomes a `uint16_t`. -/
def buildInsertKeyValuePair (d : DiscoveryMessageHandler H) (path : Path) (host : String)
    (port : Int32) : Option (String × String) :=
  (kindMap path.kind).map fun kind =>
    let key := "/" ++ path.appName ++ "/" ++ path.msgType ++ "/" ++ kind
    let key := if path.scope = .local then key ++ d.macAddress else key
    (key, host ++ ":" ++ toString port.toInt16.toUInt16.toNat)

/-- The key of `BuildLookupKey(...)`. -/
def buildLookupKey (d : DiscoveryMessageHandler H) (path : Path) : Option String :=
  (kindPairs path.kind).map fun kind =>
    let key := "/" ++ path.appName ++ "/" ++ path.msgType ++ "/" ++ kind
    if path.scope = .local then key ++ d.macAddress else key

/-- `clientKeyBase`. -/
def clientKeyBase (appName actorName : String) : String := "/" ++ appName ++ "/" ++ actorName ++ "/"

/-- The key of the groups of an application. -/
def groupsKey (appName : String) : String := "/groups/" ++ appName

def zombieGlobalKey : String := "/zombie/globals"

def zombieLocalKey (d : DiscoveryMessageHandler H) : String := "/zombie/locals/" ++ d.macAddress

/-- The zombie key of an address: that of the node for a local address. -/
def zombieKey (d : DiscoveryMessageHandler H) (address : String) : String :=
  if "127.0.0.1".toList <:+: address.toList then d.zombieLocalKey else zombieGlobalKey

/-! ### Actors -/

/-- `DeregisterActor(appName, actorName)`: the port of the actor, `-1` when it
was not there, and the state without it. -/
def deregisterActor (d : DiscoveryMessageHandler H) (appName actorName : String) :
    Int32 × DiscoveryMessageHandler H :=
  let base := clientKeyBase appName actorName
  let port := ((d.clients.lookup base).map ActorDetails.port).getD (-1)
  (port, { d with
    clients := ((d.clients.erase base).erase (base ++ d.macAddress)).erase
      (base ++ d.hostAddress) })

/-- What `HandleActorReg` takes from outside: `kill(pid, 0) == 0`, and the new
socket with the port it is bound to. -/
structure ActorRegAnswers where
  isRunning : Int32 → Bool
  socket : ℕ
  port : Int32

/-- The new actor takes its three keys and, as the first one of its application,
starts to listen for the groups. -/
def registerActor (d : DiscoveryMessageHandler H) (dht : OpenDht H) (req : ActorReq)
    (answers : ActorRegAnswers) : DiscoveryMessageHandler H × List (Outgoing H) :=
  let base := clientKeyBase req.appName req.actorName
  let actor : ActorDetails := ⟨answers.socket, answers.port, req.pid, req.appName⟩
  let listens := req.appName ∉ d.groupListeners
  ({ d with
      clients := ((d.clients.insert base actor).insert (base ++ d.macAddress) actor).insert
        (base ++ d.hostAddress) actor
      groupListeners := insert req.appName d.groupListeners },
    (if listens then [.listen (dht.ofString (groupsKey req.appName))] else [])
      ++ [.reply (.actorReg .ok answers.port)])

/-- `HandleActorReg(msgActorReq)`. -/
def handleActorReg (d : DiscoveryMessageHandler H) (dht : OpenDht H) (req : ActorReq)
    (answers : ActorRegAnswers) : DiscoveryMessageHandler H × List (Outgoing H) :=
  match d.clients.lookup (clientKeyBase req.appName req.actorName) with
  | none => d.registerActor dht req answers
  | some actor =>
    if answers.isRunning actor.pid then (d, [.reply (.actorReg .err 0)])
    else (d.deregisterActor req.appName req.actorName).2.registerActor dht req answers

/-- The services that a process has registered. -/
def checkins (d : DiscoveryMessageHandler H) (pid : Int32) : List ServiceCheckin :=
  (d.serviceCheckins.lookup pid).getD []

/-- The deletions of `HandleActorUnreg`; those with a number in `failed` do not
succeed. -/
def delServices (db : Lmdb) (failed : Finset ℕ) (services : List ServiceCheckin) : Lmdb :=
  services.zipIdx.foldl (fun db s => if s.2 ∈ failed then db else db.del s.1.key) db

/-- `HandleActorUnreg(msgActorUnreg)`.  The services of the process stay in
`service_checkins_`. -/
def handleActorUnreg (d : DiscoveryMessageHandler H) (dht : OpenDht H) (req : ActorReq)
    (failed : Finset ℕ) : DiscoveryMessageHandler H × List (Outgoing H) :=
  let services := d.checkins req.pid
  let zombies : List (Outgoing H) := services.map fun s =>
    .put (dht.get (d.zombieKey s.value)) (.address s.value)
  let d := { d with db := delServices d.db failed services }
  let (port, d) := d.deregisterActor req.appName req.actorName
  let rep := if port ≠ -1 then DiscoRep.actorUnreg .ok port else .actorUnreg .err 0
  (d, zombies ++ [.reply rep])

/-! ### Services -/

/-- `HandleServiceReg(msgServiceReg)`; `putOk` tells whether the database takes
the entry. -/
def handleServiceReg (d : DiscoveryMessageHandler H) (dht : OpenDht H) (clock : ℕ)
    (req : ServiceRegReq) (putOk : Bool) :
    Option (DiscoveryMessageHandler H × List (Outgoing H)) :=
  (d.buildInsertKeyValuePair req.path req.host req.port).map fun kv =>
    let item : ServiceCheckin := { key := kv.1, value := kv.2, createdTime := UInt64.ofNat clock }
    -- only the addresses of response ports are saved
    ({ d with
        db := if req.path.kind = .rep ∧ putOk then d.db.put kv.1 kv.2 else d.db
        serviceCheckins := d.serviceCheckins.insert req.pid (d.checkins req.pid ++ [item]) },
      [.put (dht.get kv.1) (.address kv.2), .reply (.serviceReg .ok)])

section

variable [DecidableEq H]

/-- `HandleServiceLookup(msgServiceLookup)`.  `std::find` compares pointers, and
the new one is never among the old: the client is always added. -/
def handleServiceLookup (d : DiscoveryMessageHandler H) (dht : OpenDht H)
    (req : ServiceLookupReq) : Option (DiscoveryMessageHandler H × List (Outgoing H)) :=
  (d.buildLookupKey req.path).map fun key =>
    let client : ClientDetails := {
      appName := req.path.appName
      actorName := req.client.actorName
      actorHost := d.hostAddress
      instanceName := req.client.instanceName
      portName := req.client.portName
      isLocal := req.path.scope = .local }
    let subscribed := (d.clientSubscriptions.lookup key).getD []
    let hash := dht.get key
    ({ d with
        clientSubscriptions := d.clientSubscriptions.insert key (subscribed ++ [client])
        registeredListeners := insert hash d.registeredListeners },
      [.reply (.serviceLookup .ok)]
        ++ (if hash ∉ d.registeredListeners then [.listen hash] else []) ++ [.get hash])

end

/-- `HandleGroupJoin(msgGroupJoin)`. -/
def handleGroupJoin (d : DiscoveryMessageHandler H) (dht : OpenDht H) (req : GroupJoinReq) :
    DiscoveryMessageHandler H × List (Outgoing H) :=
  let details : GroupDetails := ⟨req.appName, req.componentId, req.groupId, req.services⟩
  let key := groupsKey req.appName
  let registered := (d.groupServices.lookup req.pid).getD []
  ({ d with
      groupServices := d.groupServices.insert req.pid (registered ++ [⟨key, details, req.pid⟩]) },
    [.reply (.groupJoin .ok), .get (dht.ofString key), .put (dht.get key) (.group details)])

/-- The test of `RenewServices()` on one service, in 64-bit arithmetic. -/
def due (clock : ℕ) (s : ServiceCheckin) : Bool :=
  decide (UInt64.ofNat clock - s.createdTime > s.timeout)

/-- One service after `RenewServices()`. -/
def renewed (clock : ℕ) (s : ServiceCheckin) : ServiceCheckin :=
  if due clock s then { s with createdTime := UInt64.ofNat clock } else s

/-- `RenewServices()`. -/
def renewServices (d : DiscoveryMessageHandler H) (dht : OpenDht H) (clock : ℕ) :
    DiscoveryMessageHandler H × List (Outgoing H) :=
  ({ d with
      serviceCheckins :=
        Table.mapValues (fun services => services.map (renewed clock)) d.serviceCheckins },
    d.serviceCheckins.entries.flatMap fun e =>
      (e.2.filter (due clock)).map fun s => .put (dht.get s.key) (.address s.value))

/-! ### Sequences of requests -/

/-- A request, or the periodic renewal. -/
inductive Event where
  | actorReg (req : ActorReq) (answers : ActorRegAnswers)
  | actorUnreg (req : ActorReq) (failed : Finset ℕ)
  | serviceReg (req : ServiceRegReq) (putOk : Bool)
  | serviceLookup (req : ServiceLookupReq)
  | groupJoin (req : GroupJoinReq)
  | renewServices

/-- An event and the clock when it is handled. -/
structure Stamped where
  clock : ℕ
  event : Event

variable [DecidableEq H]

/-- Handle one event. -/
def step (dht : OpenDht H) (d : DiscoveryMessageHandler H) (l : Stamped) :
    Option (DiscoveryMessageHandler H × List (Outgoing H)) :=
  match l.event with
  | .actorReg req answers => some (d.handleActorReg dht req answers)
  | .actorUnreg req failed => some (d.handleActorUnreg dht req failed)
  | .serviceReg req putOk => d.handleServiceReg dht l.clock req putOk
  | .serviceLookup req => d.handleServiceLookup dht req
  | .groupJoin req => some (d.handleGroupJoin dht req)
  | .renewServices => some (d.renewServices dht l.clock)

/-- The step function of runs. -/
def next (dht : OpenDht H) (d : DiscoveryMessageHandler H) (l : Stamped) :
    Option (DiscoveryMessageHandler H) :=
  (d.step dht l).map Prod.fst

/-! ### A small application for concrete runs -/

/-- Ids written as the strings they are made from. -/
def plainDht : OpenDht String := ⟨id, id⟩

/-- An actor `A` of the application `app` in the process 7. -/
def actorA : ActorReq := ⟨"app", "A", 7⟩

def bound : ActorRegAnswers := ⟨fun _ => false, 0, 40001⟩

/-- A response service of the application. -/
def responseService (pid : Int32) (host : String) : ServiceRegReq where
  path := ⟨"app", "Msg", .rep, .global⟩
  host := host
  port := 5555
  pid := pid

end DiscoveryMessageHandler

end Riaps
