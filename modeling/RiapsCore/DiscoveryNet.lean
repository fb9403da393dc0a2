/-
The discovery services of several nodes, the hash table that they share, and the
components that use them.

A node has its discovery service with what waits for it: the requests on
`riaps_socket_` and the messages on `DHT_RESULT_CHANNEL`.  The callbacks that the
service has handed to the hash table are kept with what they have captured; the
table calls one of them, at any time, with values that were put under its key.
The updates that the service sends to the sockets of its actors are passed on to
the components, whose ports they connect.

One event of the net is a call of one of these parts, and they come in any order.
Messages are taken from a channel in any order as well: every callback opens a
socket of its own.

* `openPort` — a component opens a port, which makes a request;
* `ask` — an actor makes one of the other requests;
* `iterate` — an iteration of a discovery service;
* `answer` — the hash table calls a callback;
* `plant` — somebody puts a value that cannot be read, as it does not verify;
* `relay` — an actor passes an update on to its component.

The actors are not part of the sources: `relay` is what the code relies on.
-/
import RiapsCore.ActorTable
import RiapsCore.DhtData
import RiapsCore.Endpoints
import RiapsCore.ServicePorts

open Runs StdString

namespace Riaps

deriving instance DecidableEq for ProviderListGet, DhtUpdate, PortUpd, PortSend, ReadPath

/-- What the nodes have in common. -/
structure DiscoveryParams (H : Type*) where
  dht : OpenDht H
  codec : Codec
  /-- The key of the deployment; without one, security is off. -/
  key : Option PrivateKey
  /-- `dht::packMsg(details)`. -/
  packMsg : GroupDetails → Blob

/-- The request without what its handler takes from outside. -/
def Request.req : Request → DiscoReq
  | .actorReg req _ => .actorReg req
  | .actorUnreg req _ => .actorUnreg req
  | .serviceReg req _ => .serviceReg req
  | .serviceLookup req => .serviceLookup req
  | .groupJoin req => .groupJoin req

/-- A request that is not made by a port. -/
def DiscoReq.isActors : DiscoReq → Bool
  | .actorReg _ | .actorUnreg _ | .groupJoin _ => true
  | .serviceReg _ | .serviceLookup _ | .other => false

/-- A node. -/
structure DiscoveryNode (H : Type*) where
  loop : DiscoveryLoop H
  /-- The requests that wait on `riaps_socket_`. -/
  requests : List DiscoReq
  /-- The callbacks that the hash table has, with their keys. -/
  reading : List (H × ReadPath)
  /-- The messages on `DHT_RESULT_CHANNEL`. -/
  results : List DhtUpdate
  /-- The application and the actor at the other end of a socket. -/
  actors : Table ℕ (String × String)
  /-- The updates sent to the actors and not passed on yet. -/
  updates : List PortSend
  components : Table ComponentName ComponentPorts

/-- The nodes and what has been put into the hash table. -/
structure DiscoveryNet (N H : Type*) where
  node : N → DiscoveryNode H
  stored : List (H × DhtData)

inductive NetEvent (N H : Type*) where
  | openPort (n : N) (name : ComponentName) (config : PortConfig) (answers : PortAnswers)
  | ask (n : N) (req : DiscoReq)
  | iterate (n : N) (it : Iteration) (draw : ℕ)
  | answer (n : N) (hash : H) (path : ReadPath) (values : List DhtData)
  | plant (hash : H) (value : DhtData)
  | relay (n : N) (send : PortSend) (rc : Int32)

namespace DiscoveryNode

variable {H : Type*}

/-- `ports_` of a component. -/
def ports (node : DiscoveryNode H) (name : ComponentName) : ComponentPorts :=
  (node.components.lookup name).getD ∅

/-- A component opens a port. -/
def openPort (node : DiscoveryNode H) (name : ComponentName) (config : PortConfig)
    (a : PortAnswers) : DiscoveryNode H :=
  { node with
    requests := node.requests ++ (openRequest name config a).toList
    components := node.components.insert name ((node.ports name).initPort config a) }

/-- The message that the iteration handles is taken from its channel. -/
def take (node : DiscoveryNode H) : Ready → Option (DiscoveryNode H)
  | .riaps request =>
    if request.req ∈ node.requests then
      some { node with requests := node.requests.erase request.req }
    else none
  | .dhtUpdate (some message) =>
    if message ∈ node.results then
      some { node with results := node.results.erase message }
    else none
  | .dhtUpdate none | .pipe _ | .timeout => some node

/-- The callback that the handler of a request hands to the hash table with one of
its operations.  It stays there: a listener is never cancelled, and a get is tried
again. -/
def readPath (d : DiscoveryMessageHandler H) : DiscoReq → Outgoing H → Option (H × ReadPath)
  | .serviceLookup req, .listen hash =>
    (d.buildLookupKey req.path).map fun key => (hash, .listen key)
  | .serviceLookup req, .get hash => some (hash, .get (d.lookupClient req))
  | .actorReg _, .listen hash => some (hash, .groups)
  | .groupJoin _, .get hash => some (hash, .groups)
  | _, _ => none

/-- The callbacks that an iteration hands to the hash table. -/
def newReading (d : DiscoveryMessageHandler H) (outgoing : List (Outgoing H)) :
    Ready → List (H × ReadPath)
  | .riaps request => outgoing.filterMap (readPath d request.req)
  | _ => []

variable [DecidableEq H]

/-- The actor that a request registers, with its new socket. -/
def registers (outgoing : List (Outgoing H)) : Ready → Option (ℕ × String × String)
  | .riaps (.actorReg req answers) =>
    if outgoing.any fun o => o = .reply (.actorReg .ok answers.port) then
      some (answers.socket, req.appName, req.actorName)
    else none
  | _ => none

/-- The node after an iteration with these effects.  A new socket is one that no
actor has: sockets of actors are not destroyed while the service runs. -/
def finish (node : DiscoveryNode H) (which : Ready)
    (r : DiscoveryLoop H × LoopEffects H) : Option (DiscoveryNode H) :=
  let after := { node with
    loop := r.1
    reading := node.reading ++ newReading node.loop.handler r.2.outgoing which
    updates := node.updates ++ r.2.ports }
  match registers r.2.outgoing which with
  | none => some after
  | some (socket, actor) =>
    if socket ∈ node.actors then none
    else some { after with actors := node.actors.insert socket actor }

/-- An actor passes an update on to the component that it names. -/
def relay (node : DiscoveryNode H) (send : PortSend) (rc : Int32) : DiscoveryNode H :=
  let left := { node with updates := node.updates.erase send }
  match node.actors.lookup send.socket with
  | none => left
  | some (appName, actorName) =>
    let name : ComponentName := ⟨appName, actorName, send.update.client.instanceName⟩
    { left with
      components := node.components.insert name ((node.ports name).handlePortUpdate
        send.update.client.portName send.update.host send.update.port rc) }

end DiscoveryNode

/-- The bytes of a value. -/
def DhtValue.blob {H : Type*} (P : DiscoveryParams H) : DhtValue → Blob
  | .address value => toBlob value
  | .group details => P.packMsg details

namespace DiscoveryNet

variable {N H : Type*}

/-- What the operations on the hash table store. -/
def puts (P : DiscoveryParams H) (draw : ℕ) (out : List (Outgoing H)) : List (H × DhtData) :=
  out.filterMap fun
    | .put hash value => some (hash, DhtData.dhtPut P.key draw (value.blob P))
    | _ => none

/-- New nodes with these addresses.  `Init()` reads and listens for zombies. -/
def start (P : DiscoveryParams H) (mac host : N → String) (clock : ℕ) : DiscoveryNet N H where
  node n :=
    { loop := .init (mac n) (host n) clock
      requests := []
      reading :=
        [(P.dht.get DiscoveryMessageHandler.zombieGlobalKey, .zombieUpdate),
          (P.dht.get ("/zombie/locals/" ++ mac n), .zombieUpdate)]
      results := []
      actors := ∅
      updates := []
      components := ∅ }
  stored := []

variable [DecidableEq N] [DecidableEq H]

/-- One event. -/
def next (P : DiscoveryParams H) (s : DiscoveryNet N H) :
    NetEvent N H → Option (DiscoveryNet N H)
  | .openPort n name config a =>
    some { s with node := Function.update s.node n ((s.node n).openPort name config a) }
  | .ask n req =>
    if req.isActors then
      some { s with
        node := Function.update s.node n
          { s.node n with requests := (s.node n).requests ++ [req] } }
    else none
  | .iterate n it draw =>
    ((s.node n).take it.which).bind fun node =>
      (node.loop.iterate P.dht it).bind fun r =>
        (node.finish it.which r).map fun node =>
          { node := Function.update s.node n node
            stored := s.stored ++ puts P draw (r.2.renewals ++ r.2.outgoing) }
  | .answer n hash path values =>
    if (hash, path) ∈ (s.node n).reading ∧ ∀ v ∈ values, (hash, v) ∈ s.stored then
      some { s with
        node := Function.update s.node n
          { s.node n with
            results := (s.node n).results ++ path.messages P.codec P.key values } }
    else none
  | .plant hash value =>
    if value.read P.key = none then some { s with stored := s.stored ++ [(hash, value)] }
    else none
  | .relay n send rc =>
    if send ∈ (s.node n).updates then
      some { s with node := Function.update s.node n ((s.node n).relay send rc) }
    else none

end DiscoveryNet

end Riaps
