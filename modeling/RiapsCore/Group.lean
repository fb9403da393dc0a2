/-
`riaps::groups::Group` (`include/groups/r_group.h`, `src/groups/r_group.cc`):
one component's membership in a group.

A `Group` owns the membership table, the `GroupLead` and the ports.  The
component's loop calls `FetchNextMessage()`, which handles one message of the
internal port or, when none has arrived, lets the `GroupLead` do its periodic
work; the application calls the sending functions.  `step` performs one such
call and returns the messages handed to the internal publisher and the
callbacks made on the parent component, in order.

Dereferencing a null pointer ends the process: such a call has no result.  The
boolean that the sending functions return is added in `ComponentBase`; the
traffic of the application's own ports is left out.
-/
import RiapsCore.GroupLead

namespace Riaps

/-- `timespec`, with the 64-bit fields it has on the supported platforms. -/
structure Timespec where
  tvSec : Int64
  tvNsec : Int64
deriving DecidableEq

/-- `GroupService`: one publisher of a group, as the discovery service reports it. -/
structure GroupService where
  messageType : String
  address : String
deriving DecidableEq

/-- `INTERNAL_MESSAGETYPE`. -/
def internalMessageType : String := "InternalGroupMessage"

/-- `INTERNAL_SUB_NAME`. -/
def internalSubName : String := "$SUB#"

/-- `PING_BASE_PERIOD`, in milliseconds. -/
def pingBasePeriod : ℤ := 10 * 1000

/-- A `GroupSubscriberPort`: its configuration and the endpoints its socket is
connected to. -/
structure SubscriberPort where
  portName : String
  messageType : String
  endpoints : Finset String

namespace SubscriberPort

/-- `ConnectToPublihser(endpoint)`; `connects` tells whether the socket accepts
the connection. -/
def connectToPublisher (port : SubscriberPort) (connects : String → String → Bool)
    (endpoint : String) : SubscriberPort :=
  if connects port.portName endpoint then { port with endpoints := insert endpoint port.endpoints }
  else port

/-- What `ConnectToNewServices` does with one port for one service. -/
def offer (port : SubscriberPort) (connects : String → String → Bool) (service : GroupService) :
    SubscriberPort :=
  if port.messageType = service.messageType then
    port.connectToPublisher connects ("tcp://" ++ service.address)
  else port

end SubscriberPort

/-- The handlers of the parent component that a group calls. -/
inductive Callback where
  | onGroupMessage (message : Frame)
  | onMessageToLeader (message : Frame)
  | onPropose (proposeId : String) (message : Frame)
  | onActionPropose (proposeId actionId : String) (timePoint : Timespec)
  | onAnnounce (proposeId : String) (accepted : Bool)
deriving DecidableEq

/-- What a call does outside the group object. -/
structure Effects where
  sent : List GroupMsg := []
  callbacks : List Callback := []

/-- The values that handling a message may take from outside: two random draws
and the uninitialised member of a new `ProposeData`. -/
structure Draws where
  electionTimeo : ElectionTimeo
  nodeTimeo : NodeTimeo
  isAction : Bool

/-- The state of a `Group` after `InitGroup()` has succeeded.  `group_leader_`
is null iff the group type has no leader; `groupLeader` is not used then. -/
structure Group where
  groupLeader : GroupLead
  hasLeader : Bool
  knownNodes : KnownNodes
  pingTimeout : Timeout milliseconds
  groupSubport : SubscriberPort
  userSubports : List SubscriberPort

namespace Group

/-- The constructor and `InitGroup()`. -/
def initGroup (id : ComponentUuid) (now : ℤ) (timeo : ElectionTimeo) (hasLeader : Bool)
    (userSubports : List SubscriberPort) : Group where
  groupLeader := GroupLead.init id now timeo
  hasLeader := hasLeader
  knownNodes := ∅
  pingTimeout := Timeout.ofCount now pingBasePeriod
  groupSubport := ⟨internalSubName, internalMessageType, ∅⟩
  userSubports := userSubports

/-- `parent_component_id()`. -/
def parentComponentId (g : Group) : ComponentUuid := g.groupLeader.componentId

/-- `leader_id()`. -/
def leaderId (g : Group) : String :=
  if g.hasLeader then g.groupLeader.getLeaderId else ""

/-! ### Membership -/

/-- `GetMemberCount()`. -/
def getMemberCount (g : Group) (now : ℤ) : UInt16 × Group :=
  let (count, known) := g.knownNodes.getMemberCount now
  (count, { g with knownNodes := known })

/-- `ConnectToNewServices(msgGroupUpdate)`: every subscriber port of the
service's message type is connected to the service. -/
def connectToNewServices (g : Group) (connects : String → String → Bool)
    (services : List GroupService) : Group :=
  -- the own publisher of the component is not left out
  services.foldl (fun g service =>
    { g with
      groupSubport := g.groupSubport.offer connects service
      userSubports := g.userSubports.map fun port => port.offer connects service }) g

/-- `SendHeartBeat(type)`. -/
def sendHeartBeat (g : Group) (type : HeartBeatType) : GroupMsg where
  header := .groupHeartBeat ⟨type, g.parentComponentId⟩

/-- `SendPing()`. -/
def sendPing (g : Group) (now : ℤ) : Group × Effects :=
  ({ g with pingTimeout := g.pingTimeout.reset now }, { sent := [g.sendHeartBeat .ping] })

/-- `SendPong()`. -/
def sendPong (g : Group) : GroupMsg := g.sendHeartBeat .pong

/-- `SendPingWithPeriod()`: a ping is due when nobody is known, or when some
known component has timed out, and the last ping is old enough. -/
def sendPingWithPeriod (g : Group) (now : ℤ) : Group × Effects :=
  if Table.size g.knownNodes = 0 ∧ g.pingTimeout.isTimeout now then g.sendPing now
  else if (g.knownNodes.entries.any fun e => e.2.isTimeout now) ∧ g.pingTimeout.isTimeout now then
    g.sendPing now
  else (g, {})

/-! ### Sending -/

/-- `SendMessage(message, "")`. -/
def sendMessage (g : Group) (message : Frame) : List GroupMsg :=
  [{ header := .groupMessage g.parentComponentId, frame := some message }]

/-- `SendMessageToLeader(message)`. -/
def sendMessageToLeader (g : Group) (message : Frame) : List GroupMsg :=
  if g.leaderId = "" then []
  else [{ header := .messageToLeader g.parentComponentId, frame := some message }]

/-- `SendLeaderMessage(message)`, which publishes a `GroupMessage`. -/
def sendLeaderMessage (g : Group) (message : Frame) : List GroupMsg :=
  if g.leaderId ≠ g.parentComponentId then []
  else [{ header := .groupMessage g.parentComponentId, frame := some message }]

/-- `ProposeValueToLeader(message, proposeId)`. -/
def proposeValueToLeader (g : Group) (message : Frame) (proposeId : String) : List GroupMsg :=
  if g.leaderId = "" then []
  else
    [{ header := .consensus {
        sourceComponentId := g.parentComponentId
        voteType := .value
        body := .proposeToLeader proposeId }
       frame := some message }]

/-- `ProposeActionToLeader(proposeId, actionId, absTime)`; the message has room
for 32 bits of each field of the time point. -/
def proposeActionToLeader (g : Group) (proposeId actionId : String) (absTime : Timespec) :
    List GroupMsg :=
  if g.leaderId = "" then []
  else
    [{ header := .consensus {
        sourceComponentId := g.parentComponentId
        voteType := .action
        body := .proposeToLeader proposeId
        tsyncCoordA := ⟨actionId, ⟨absTime.tvSec.toInt32, absTime.tvNsec.toInt32⟩⟩ } }]

/-- `SendVote(propose_id, accept)`. -/
def sendVote (g : Group) (proposeId : String) (accept : Bool) : List GroupMsg :=
  [{ header := .consensus {
      sourceComponentId := g.parentComponentId
      body := .vote proposeId (if accept then .accepted else .rejected) } }]

/-! ### `FetchNextMessage()` -/

/-- Call a member function of the `GroupLead`. -/
def drive (g : Group) (i : GroupLead.Input) : Group × Effects :=
  ({ g with groupLeader := (g.groupLeader.step i).1 }, { sent := (g.groupLeader.step i).2 })

/-- No message has arrived: the `GroupLead` updates itself. -/
def poll (g : Group) (now : ℤ) : Group × Effects :=
  if g.hasLeader then
    let (lead, known, out) := g.groupLeader.update now g.knownNodes
    ({ g with groupLeader := lead, knownNodes := known }, { sent := out })
  else (g, {})

/-- The call that a consensus message leads to at a component that takes itself
for the leader. -/
def leaderCall (g : Group) (now : ℤ) (draws : Draws) (c : Consensus) (frame : Option Frame) :
    Option GroupLead.Input :=
  match c.body, c.voteType with
  | .proposeToLeader proposeId, .value =>
    some (.propose now g.knownNodes draws.isAction proposeId frame)
  | .proposeToLeader proposeId, .action =>
    some (.actionPropose now g.knownNodes proposeId c.tsyncCoordA)
  | .vote proposeId result, _ => some (.vote now proposeId result c.sourceComponentId)
  -- forwarded proposals and announcements do not concern the leader
  | _, _ => none

/-- The callback that a consensus message leads to at any other component.  The
frame of a proposed value is used without a check. -/
def memberCallbacks (c : Consensus) (frame : Option Frame) : Option (List Callback) :=
  match c.body, c.voteType with
  | .proposeToClients proposeId _, .value => frame.map fun f => [.onPropose proposeId f]
  | .proposeToClients proposeId _, .action =>
    some [.onActionPropose proposeId c.tsyncCoordA.actionId
      ⟨c.tsyncCoordA.time.tvSec.toInt64, c.tsyncCoordA.time.tvNsec.toInt64⟩]
  | .announce proposeId result, _ => some [.onAnnounce proposeId (result = .accepted)]
  | _, _ => some []

/-- A message of the internal port has arrived. -/
def receive (g : Group) (now : ℤ) (draws : Draws) (m : GroupMsg) : Option (Group × Effects) :=
  match m.header with
  | .groupMessage _ => some (g, { callbacks := m.frame.toList.map .onGroupMessage })
  | .groupHeartBeat hb =>
    let g := { g with
      knownNodes := g.knownNodes.heartBeat now draws.nodeTimeo hb.sourceComponentId }
    match hb.heartBeatType with
    | .ping => some (g, { sent := [g.sendPong] })
    | .pong => some (g, {})
  | .leaderElection e =>
    -- `group_leader_` is dereferenced without a check
    if g.hasLeader then some (g.drive (.message now draws.electionTimeo e)) else none
  | .messageToLeader _ =>
    if g.leaderId ≠ g.parentComponentId then some (g, {})
    else some (g, { callbacks := m.frame.toList.map .onMessageToLeader })
  | .consensus c =>
    if g.leaderId = g.parentComponentId then
      match g.leaderCall now draws c m.frame with
      | some i => some (g.drive i)
      | none => some (g, {})
    else (memberCallbacks c m.frame).map fun cbs => (g, { callbacks := cbs })
  -- no branch of the source asks for a `leaderMessage`
  | .leaderMessage _ => some (g, {})

/-! ### The calls made on a group -/

/-- The calls of the component's loop and of the application. -/
inductive Call where
  | poll (now : ℤ)
  | connect (connects : String → String → Bool) (services : List GroupService)
  | memberCount (now : ℤ)
  | ping (now : ℤ)
  | pingWithPeriod (now : ℤ)
  | message (message : Frame)
  | messageToLeader (message : Frame)
  | leaderMessage (message : Frame)
  | proposeValue (message : Frame) (proposeId : String)
  | proposeAction (proposeId actionId : String) (absTime : Timespec)
  | vote (proposeId : String) (accept : Bool)

/-- Everything that can happen to a group: a call, or a message. -/
inductive Event where
  | call (c : Call)
  | receive (now : ℤ) (draws : Draws) (m : GroupMsg)

/-- Perform one call. -/
def perform (g : Group) : Call → Group × Effects
  | .poll now => g.poll now
  | .connect connects services => (g.connectToNewServices connects services, {})
  | .memberCount now => ((g.getMemberCount now).2, {})
  | .ping now => g.sendPing now
  | .pingWithPeriod now => g.sendPingWithPeriod now
  | .message message => (g, { sent := g.sendMessage message })
  | .messageToLeader message => (g, { sent := g.sendMessageToLeader message })
  | .leaderMessage message => (g, { sent := g.sendLeaderMessage message })
  | .proposeValue message proposeId => (g, { sent := g.proposeValueToLeader message proposeId })
  | .proposeAction proposeId actionId absTime =>
    (g, { sent := g.proposeActionToLeader proposeId actionId absTime })
  | .vote proposeId accept => (g, { sent := g.sendVote proposeId accept })

/-- What happens on an event; `none` when the process does not survive it. -/
def step (g : Group) : Event → Option (Group × Effects)
  | .call c => some (g.perform c)
  | .receive now draws m => g.receive now draws m

end Group

end Riaps
