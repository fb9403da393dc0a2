/-
The groups of a component (`componentmodel/r_componentbase.h`,
`src/componentmodel/r_componentbase.cc`).

`ComponentBase` keeps the groups it is a member of in `groups_`, a `std::map`
ordered by `GroupId::operator<`: two ids are the same key when neither is less
than the other.  The functions for sending to a group look the group up and
pass the call on; in the end `Group::SendMessage` picks the publisher port by
its name and returns what the port's `Send` gives, converted to `bool`.

A sending function is described by a `Sending`: its return value, and the
message that it hands to a port, if it gets there.  It makes one ZeroMQ call at
most, whose outcome is an argument.
-/
import RiapsCore.Group
import RiapsCore.Ports

namespace Riaps

/-- `riaps::groups::GroupId`; `operator==` is equality of both fields. -/
structure GroupId where
  groupTypeId : String
  groupName : String
deriving DecidableEq, Repr

namespace GroupId

/-- `operator<`. -/
def lt (a b : GroupId) : Bool :=
  if a.groupTypeId = b.groupTypeId then decide (a.groupName < b.groupName)
  else decide (a.groupTypeId < b.groupTypeId)

/-- The order in which `std::map` sees two keys. -/
def cmp (a b : GroupId) : Ordering :=
  if a.lt b then .lt else if b.lt a then .gt else .eq

end GroupId

/-- `INTERNAL_PUB_NAME`. -/
def internalPubName : String := "$PUB#"

/-- What is handed to a publisher port of a group. -/
inductive Zmsg where
  /-- A message with a `GroupInternals` header. -/
  | group (m : GroupMsg)
  /-- An application message as it is. -/
  | plain (message : Frame)
deriving DecidableEq

/-- The result of a sending function, and the port and message it hands over. -/
structure Sending (α : Type*) where
  returned : α
  handed : Option (String × Zmsg) := none
deriving DecidableEq

/-- A group after `InitGroup()` with the names of its publisher ports, in the
order of `group_ports_`.  The internal publisher is always among them. -/
structure GroupHandle where
  group : Group
  pubports : List String
  internal_mem : internalPubName ∈ pubports

namespace GroupHandle

/-- `Group::SendMessage(zmsg_t**, portName)`: the first publisher port of that
name sends, and its `PortError` becomes the result. -/
def sendZmsg (h : GroupHandle) (r : SendResult) (zmsg : Zmsg) (portName : String) :
    Sending Bool :=
  match h.pubports.find? (· = portName) with
  | some port => ⟨(SenderPort.send r).toBool, some (port, zmsg)⟩
  | none => ⟨false, none⟩

/-- `Group::SendMessage(message, portName)`. -/
def sendMessage (h : GroupHandle) (r : SendResult) (message : Frame) (portName : String) :
    Sending Bool :=
  if portName ≠ "" then h.sendZmsg r (.plain message) portName
  else
    h.sendZmsg r
      (.group { header := .groupMessage h.group.parentComponentId, frame := some message })
      internalPubName

/-- The end of the functions that build a message for the internal port: they
return `false` when they have built none. -/
def submit (h : GroupHandle) (r : SendResult) (out : List GroupMsg) : Sending Bool :=
  match out with
  | [] => ⟨false, none⟩
  | m :: _ => h.sendZmsg r (.group m) internalPubName

/-- `Group::SendMessageToLeader(message)`. -/
def sendMessageToLeader (h : GroupHandle) (r : SendResult) (message : Frame) : Sending Bool :=
  h.submit r (h.group.sendMessageToLeader message)

/-- `Group::SendLeaderMessage(message)`. -/
def sendLeaderMessage (h : GroupHandle) (r : SendResult) (message : Frame) : Sending Bool :=
  h.submit r (h.group.sendLeaderMessage message)

/-- `Group::ProposeValueToLeader(message, proposeId)`. -/
def proposeValueToLeader (h : GroupHandle) (r : SendResult) (message : Frame)
    (proposeId : String) : Sending Bool :=
  h.submit r (h.group.proposeValueToLeader message proposeId)

/-- `Group::ProposeActionToLeader(proposeId, actionId, absTime)`. -/
def proposeActionToLeader (h : GroupHandle) (r : SendResult) (proposeId actionId : String)
    (absTime : Timespec) : Sending Bool :=
  h.submit r (h.group.proposeActionToLeader proposeId actionId absTime)

/-- `Group::SendVote(propose_id, accept)`. -/
def sendVote (h : GroupHandle) (r : SendResult) (proposeId : String) (accept : Bool) :
    Sending Bool :=
  h.submit r (h.group.sendVote proposeId accept)

/-- A group of one component, without ports of the application. -/
def solo : GroupHandle where
  group := Group.initGroup GroupLead.compA 0 GroupLead.shortTimeo true []
  pubports := [internalPubName]
  internal_mem := List.mem_singleton.mpr rfl

end GroupHandle

/-- `groups_`. -/
abbrev Groups := Std.TreeMap GroupId GroupHandle GroupId.cmp

/-- The part of a `ComponentBase` that concerns its groups. -/
structure ComponentBase where
  componentUuid : ComponentUuid
  groups : Groups

namespace ComponentBase

/-! ### Membership -/

/-- `getGroupById(groupId)`. -/
def getGroupById (c : ComponentBase) (groupId : GroupId) : Option GroupHandle :=
  c.groups[groupId]?

/-- `JoinGroup(GroupId&)`; `newGroup` is the group when `InitGroup()`, called for
a group that is not there yet, succeeds. -/
def joinGroup (c : ComponentBase) (groupId : GroupId) (newGroup : Option GroupHandle) :
    Bool × ComponentBase :=
  if groupId ∈ c.groups then (false, c)
  else
    match newGroup with
    | some group => (true, { c with groups := c.groups.insert groupId group })
    | none => (false, c)

/-- `JoinGroup(GroupId&&)`. -/
def joinGroupRvalue (c : ComponentBase) (groupId : GroupId) (newGroup : Option GroupHandle) :
    Bool × ComponentBase :=
  c.joinGroup groupId newGroup

/-- `LeaveGroup(GroupId&)`. -/
def leaveGroup (c : ComponentBase) (groupId : GroupId) : Bool × ComponentBase :=
  if groupId ∈ c.groups then (true, { c with groups := c.groups.erase groupId })
  else (false, c)

/-- `LeaveGroup(GroupId&&)`, which calls `JoinGroup`. -/
def leaveGroupRvalue (c : ComponentBase) (groupId : GroupId) (newGroup : Option GroupHandle) :
    Bool × ComponentBase :=
  c.joinGroup groupId newGroup

/-- `IsMemberOf(groupId)`. -/
def isMemberOf (c : ComponentBase) (groupId : GroupId) : Bool :=
  c.groups.keys.any fun g => g = groupId

/-- `GetGroupMemberships()`. -/
def getGroupMemberships (c : ComponentBase) : List GroupId := c.groups.keys

/-- `GetGroupMembershipsByType(groupType)`. -/
def getGroupMembershipsByType (c : ComponentBase) (groupType : String) : List GroupId :=
  c.groups.keys.filter fun g => g.groupTypeId = groupType

/-! ### Sending -/

/-- The functions that look the group up and pass the call on; `absent` is
returned when the component is not a member. -/
def withGroup {α : Type*} (c : ComponentBase) (groupId : GroupId) (absent : α)
    (call : GroupHandle → Sending α) : Sending α :=
  match c.getGroupById groupId with
  | none => { returned := absent }
  | some h => call h

/-- `SendGroupMessage(groupId, message, portName)`, in both overloads. -/
def sendGroupMessage (c : ComponentBase) (r : SendResult) (groupId : GroupId) (message : Frame)
    (portName : String) : Sending Bool :=
  c.withGroup groupId false fun h => h.sendMessage r message portName

/-- `SendMessageToLeader(groupId, message)`. -/
def sendMessageToLeader (c : ComponentBase) (r : SendResult) (groupId : GroupId)
    (message : Frame) : Sending Bool :=
  c.withGroup groupId false fun h => h.sendMessageToLeader r message

/-- `IsLeader(group)`. -/
def isLeader (c : ComponentBase) (h : GroupHandle) : Bool := c.componentUuid.val = h.group.leaderId

/-- `SendLeaderMessage(groupId, message)`. -/
def sendLeaderMessage (c : ComponentBase) (r : SendResult) (groupId : GroupId)
    (message : Frame) : Sending Bool :=
  c.withGroup groupId false fun h =>
    if ¬ c.isLeader h then { returned := false } else h.sendLeaderMessage r message

/-- `SendVote(groupId, proposeId, accept)`. -/
def sendVote (c : ComponentBase) (r : SendResult) (groupId : GroupId) (proposeId : String)
    (accept : Bool) : Sending Bool :=
  c.withGroup groupId false fun h => h.sendVote r proposeId accept

/-- The end of `SendPropose` and `ProposeAction`: the id of the proposal, or the
empty string when the group returned `false`. -/
def proposeResult (strUuid : ComponentUuid) (s : Sending Bool) : Sending String where
  returned := if s.returned then strUuid else ""
  handed := s.handed

/-- `SendPropose(groupId, message)`, with `strUuid` drawn for the proposal. -/
def sendPropose (c : ComponentBase) (r : SendResult) (groupId : GroupId) (message : Frame)
    (strUuid : ComponentUuid) : Sending String :=
  c.withGroup groupId "" fun h =>
    proposeResult strUuid (h.proposeValueToLeader r message strUuid)

/-- `ProposeAction(groupId, actionId, absTime)`, with `strUuid` drawn for the
proposal. -/
def proposeAction (c : ComponentBase) (r : SendResult) (groupId : GroupId) (actionId : String)
    (absTime : Timespec) (strUuid : ComponentUuid) : Sending String :=
  c.withGroup groupId "" fun h =>
    proposeResult strUuid (h.proposeActionToLeader r strUuid actionId absTime)

end ComponentBase

end Riaps
