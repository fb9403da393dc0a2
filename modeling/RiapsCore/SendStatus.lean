/-
Whether a sending function reports what happened to its message.

`SenderPort::Send` reports success when ZeroMQ took the message over.  On the
way up, `Group::SendMessage` converts the `PortError` to `bool`, which is true
on an error, and `QueryPort::SendQuery` passes a return code, zero on success,
as the success flag.  So every function above them reports the opposite of what
happened whenever it gets to a send:

* `sendZmsg_inverts`, `submit_inverts`, `withGroup_inverts` — a function that
  sends returns true iff the send failed;
* `sendOp_truthful_iff` — a function reports the truth iff it is a `Send` or a
  `SendAnswer`, or it makes no send.
-/
import RiapsCore.ComponentBase

namespace Riaps

/-- The sending functions, with the arguments that decide what they do. -/
inductive SendOp where
  | send
  | sendAnswer
  | sendQuery (msgId requestId : String)
  | groupSendMessage (h : GroupHandle) (message : Frame) (portName : String)
  | groupSendZmsg (h : GroupHandle) (zmsg : Zmsg) (portName : String)
  | groupSendMessageToLeader (h : GroupHandle) (message : Frame)
  | groupSendLeaderMessage (h : GroupHandle) (message : Frame)
  | groupSendVote (h : GroupHandle) (proposeId : String) (accept : Bool)
  | sendGroupMessage (c : ComponentBase) (groupId : GroupId) (message : Frame)
      (portName : String)
  | sendMessageToLeader (c : ComponentBase) (groupId : GroupId) (message : Frame)
  | sendLeaderMessage (c : ComponentBase) (groupId : GroupId) (message : Frame)
  | sendVote (c : ComponentBase) (groupId : GroupId) (proposeId : String) (accept : Bool)
  | sendPropose (c : ComponentBase) (groupId : GroupId) (message : Frame)
      (strUuid : ComponentUuid)
  | proposeAction (c : ComponentBase) (groupId : GroupId) (actionId : String)
      (absTime : Timespec) (strUuid : ComponentUuid)

/-- The function reports success and hands its message to a socket: the two
things to compare. -/
structure Report where
  success : Bool
  handed : Bool
deriving DecidableEq

namespace Report

/-- A `PortError`, from a port that always gets to its send. -/
def ofPort (e : PortError) : Report := ⟨e.success, true⟩

/-- A function that returns `true` for success. -/
def ofBool (s : Sending Bool) : Report := ⟨s.returned, s.handed.isSome⟩

/-- A function that returns the id of the proposal for success. -/
def ofId (strUuid : ComponentUuid) (s : Sending String) : Report :=
  ⟨s.returned = strUuid, s.handed.isSome⟩

end Report

namespace SendOp

/-- Run the function; `r` is the outcome of the send that it makes, if any. -/
def run (r : SendResult) : SendOp → Report
  | .send => .ofPort (SenderPort.send r)
  | .sendAnswer => .ofPort (AnswerPort.sendAnswer r)
  | .sendQuery msgId requestId => .ofPort (QueryPort.sendQuery r msgId requestId).1
  | .groupSendMessage h message portName => .ofBool (h.sendMessage r message portName)
  | .groupSendZmsg h zmsg portName => .ofBool (h.sendZmsg r zmsg portName)
  | .groupSendMessageToLeader h message => .ofBool (h.sendMessageToLeader r message)
  | .groupSendLeaderMessage h message => .ofBool (h.sendLeaderMessage r message)
  | .groupSendVote h proposeId accept => .ofBool (h.sendVote r proposeId accept)
  | .sendGroupMessage c groupId message portName =>
    .ofBool (c.sendGroupMessage r groupId message portName)
  | .sendMessageToLeader c groupId message => .ofBool (c.sendMessageToLeader r groupId message)
  | .sendLeaderMessage c groupId message => .ofBool (c.sendLeaderMessage r groupId message)
  | .sendVote c groupId proposeId accept => .ofBool (c.sendVote r groupId proposeId accept)
  | .sendPropose c groupId message strUuid =>
    .ofId strUuid (c.sendPropose r groupId message strUuid)
  | .proposeAction c groupId actionId absTime strUuid =>
    .ofId strUuid (c.proposeAction r groupId actionId absTime strUuid)

/-- Success is reported exactly when a send was made and returned `0`. -/
def Truthful (op : SendOp) (r : SendResult) : Prop :=
  (op.run r).success = true ↔ (op.run r).handed = true ∧ r.rc = 0

instance (op : SendOp) (r : SendResult) : Decidable (op.Truthful r) :=
  inferInstanceAs (Decidable (_ ↔ _))

/-- The two functions that return the `PortError` of `SenderPort::Send` itself. -/
def ReturnsPortError : SendOp → Prop
  | .send | .sendAnswer => True
  | _ => False

/-- The group is one of the component's and `P` holds of it. -/
def OfMember (c : ComponentBase) (groupId : GroupId) (P : GroupHandle → Prop) : Prop :=
  ∃ h, c.getGroupById groupId = some h ∧ P h

/-- The function gets to a send: the group and the port exist, and there is a
leader, or the component is the leader, where the function asks for one. -/
def Sends : SendOp → Prop
  | .send | .sendAnswer | .sendQuery _ _ => True
  | .groupSendMessage h _ portName => portName = "" ∨ portName ∈ h.pubports
  | .groupSendZmsg h _ portName => portName ∈ h.pubports
  | .groupSendMessageToLeader h _ => h.group.leaderId ≠ ""
  | .groupSendLeaderMessage h _ => h.group.leaderId = h.group.parentComponentId
  | .groupSendVote _ _ _ => True
  | .sendGroupMessage c groupId _ portName =>
    OfMember c groupId fun h => portName = "" ∨ portName ∈ h.pubports
  | .sendMessageToLeader c groupId _ => OfMember c groupId fun h => h.group.leaderId ≠ ""
  | .sendLeaderMessage c groupId _ => OfMember c groupId fun h =>
    c.componentUuid.val = h.group.leaderId ∧ h.group.leaderId = h.group.parentComponentId
  | .sendVote c groupId _ _ => OfMember c groupId fun _ => True
  | .sendPropose c groupId _ _ => OfMember c groupId fun h => h.group.leaderId ≠ ""
  | .proposeAction c groupId _ _ _ => OfMember c groupId fun h => h.group.leaderId ≠ ""

end SendOp

/-! ### The inversion, layer by layer -/

/-- The function sends iff `P`, and reports success iff that send failed. -/
structure Inverts (report : Report) (r : SendResult) (P : Prop) : Prop where
  handed : report.handed = true ↔ P
  success : report.success = true ↔ P ∧ r.rc ≠ 0

variable {r : SendResult} {P : Prop} {report : Report}

/-- What reports the opposite of the truth is truthful only without a send. -/
theorem Inverts.truthful_iff (h : Inverts report r P) :
    (report.success = true ↔ report.handed = true ∧ r.rc = 0) ↔ ¬ P := by
  rw [h.success, h.handed]
  by_cases hP : P
  · by_cases hr : r.rc = 0
    · simp [hP, hr]
    · simp [hP, hr]
  · simp [hP]

theorem Inverts.congr {Q : Prop} (h : Inverts report r P) (hPQ : P ↔ Q) :
    Inverts report r Q := by
  rwa [hPQ] at h

/-- The conversion of a `PortError` to `bool` is true on an error. -/
theorem send_toBool (r : SendResult) : (SenderPort.send r).toBool = true ↔ r.rc ≠ 0 := by
  rw [SenderPort.send]
  split
  · rename_i hr
    simp [PortError.toBool, PortError.error, hr]
  · rename_i hr
    simp [PortError.toBool, PortError.error, hr]

theorem sendZmsg_inverts (h : GroupHandle) (r : SendResult) (zmsg : Zmsg) (portName : String) :
    Inverts (.ofBool (h.sendZmsg r zmsg portName)) r (portName ∈ h.pubports) := by
  rw [GroupHandle.sendZmsg]
  rcases hp : h.pubports.find? (· = portName) with _ | port
  · have hnone : portName ∉ h.pubports := by
      intro hmem
      simpa using List.find?_eq_none.mp hp portName hmem
    exact ⟨by simp [Report.ofBool, hnone], by simp [Report.ofBool, hnone]⟩
  · have hmem : portName ∈ h.pubports := by
      have heq : port = portName := by simpa using List.find?_some hp
      exact heq ▸ List.mem_of_find?_eq_some hp
    refine ⟨by simp [Report.ofBool, hmem], ?_⟩
    show (SenderPort.send r).toBool = true ↔ _
    rw [send_toBool]
    simp [hmem]

theorem sendMessage_inverts (h : GroupHandle) (r : SendResult) (message : Frame)
    (portName : String) :
    Inverts (.ofBool (h.sendMessage r message portName)) r
      (portName = "" ∨ portName ∈ h.pubports) := by
  rw [GroupHandle.sendMessage]
  split
  · rename_i hname
    exact (sendZmsg_inverts h r _ portName).congr (by simp [hname])
  · rename_i hname
    refine (sendZmsg_inverts h r _ internalPubName).congr ?_
    simp [h.internal_mem, not_not.mp hname]

/-- The functions that build a message for the internal port. -/
theorem submit_inverts (h : GroupHandle) (r : SendResult) (out : List GroupMsg) :
    Inverts (.ofBool (h.submit r out)) r (out ≠ []) := by
  cases out with
  | nil => exact ⟨by simp [GroupHandle.submit, Report.ofBool],
      by simp [GroupHandle.submit, Report.ofBool]⟩
  | cons m out =>
    show Inverts (.ofBool (h.sendZmsg r (.group m) internalPubName)) r _
    exact (sendZmsg_inverts h r _ internalPubName).congr (by simp [h.internal_mem])

theorem sendMessageToLeader_inverts (h : GroupHandle) (message : Frame) :
    Inverts (.ofBool (h.sendMessageToLeader r message)) r (h.group.leaderId ≠ "") := by
  refine (submit_inverts h r _).congr ?_
  rw [Group.sendMessageToLeader]
  split <;> simp [*]

theorem sendLeaderMessage_inverts (h : GroupHandle) (message : Frame) :
    Inverts (.ofBool (h.sendLeaderMessage r message)) r
      (h.group.leaderId = h.group.parentComponentId) := by
  refine (submit_inverts h r _).congr ?_
  rw [Group.sendLeaderMessage]
  split <;> simp_all

theorem sendVote_inverts (h : GroupHandle) (proposeId : String) (accept : Bool) :
    Inverts (.ofBool (h.sendVote r proposeId accept)) r True :=
  (submit_inverts h r _).congr (by simp [Group.sendVote])

theorem proposeValueToLeader_inverts (h : GroupHandle) (message : Frame) (proposeId : String) :
    Inverts (.ofBool (h.proposeValueToLeader r message proposeId)) r
      (h.group.leaderId ≠ "") := by
  refine (submit_inverts h r _).congr ?_
  rw [Group.proposeValueToLeader]
  split <;> simp [*]

theorem proposeActionToLeader_inverts (h : GroupHandle) (proposeId actionId : String)
    (absTime : Timespec) :
    Inverts (.ofBool (h.proposeActionToLeader r proposeId actionId absTime)) r
      (h.group.leaderId ≠ "") := by
  refine (submit_inverts h r _).congr ?_
  rw [Group.proposeActionToLeader]
  split <;> simp [*]

/-- The functions of the component, which send nothing when it is not a member
of the group. -/
theorem withGroup_inverts {α : Type*} {c : ComponentBase} {groupId : GroupId} {absent : α}
    {call : GroupHandle → Sending α} {Q : GroupHandle → Prop} (read : Sending α → Report)
    (habsent : read { returned := absent } = ⟨false, false⟩)
    (hcall : ∀ h, Inverts (read (call h)) r (Q h)) :
    Inverts (read (c.withGroup groupId absent call)) r (SendOp.OfMember c groupId Q) := by
  rw [ComponentBase.withGroup, SendOp.OfMember]
  rcases c.getGroupById groupId with _ | h
  · show Inverts (read { returned := absent }) r _
    rw [habsent]
    exact ⟨by simp, by simp⟩
  · exact (hcall h).congr (by simp)

/-- An id is returned iff the group returned `true`: no id is the empty
string. -/
theorem ofId_proposeResult (strUuid : ComponentUuid) (s : Sending Bool) :
    Report.ofId strUuid (ComponentBase.proposeResult strUuid s) = .ofBool s := by
  have hne : ("" : String) ≠ strUuid := fun h => strUuid.property h.symm
  rcases hret : s.returned with _ | _
  · simp [Report.ofId, Report.ofBool, ComponentBase.proposeResult, hret, hne]
  · simp [Report.ofId, Report.ofBool, ComponentBase.proposeResult, hret]

theorem ofId_absent (strUuid : ComponentUuid) :
    Report.ofId strUuid { returned := "" } = ⟨false, false⟩ := by
  have hne : ("" : String) ≠ strUuid := fun h => strUuid.property h.symm
  simp [Report.ofId, hne]

/-- Every function but the two that return a `PortError` of `Send` reports the
opposite of what happened to its message. -/
theorem run_inverts (op : SendOp) (hop : ¬ op.ReturnsPortError) (r : SendResult) :
    Inverts (op.run r) r op.Sends := by
  cases op with
  | send => exact absurd trivial hop
  | sendAnswer => exact absurd trivial hop
  | sendQuery msgId requestId =>
    exact ⟨by simp [SendOp.run, Report.ofPort, SendOp.Sends],
      by simp [SendOp.run, Report.ofPort, SendOp.Sends, QueryPort.sendQuery]⟩
  | groupSendMessage h message portName => exact sendMessage_inverts h r message portName
  | groupSendZmsg h zmsg portName => exact sendZmsg_inverts h r zmsg portName
  | groupSendMessageToLeader h message => exact sendMessageToLeader_inverts h message
  | groupSendLeaderMessage h message => exact sendLeaderMessage_inverts h message
  | groupSendVote h proposeId accept => exact sendVote_inverts h proposeId accept
  | sendGroupMessage c groupId message portName =>
    exact withGroup_inverts .ofBool rfl fun h => sendMessage_inverts h r message portName
  | sendMessageToLeader c groupId message =>
    exact withGroup_inverts .ofBool rfl fun h => sendMessageToLeader_inverts h message
  | sendLeaderMessage c groupId message =>
    refine withGroup_inverts .ofBool rfl fun h => ?_
    -- the component asks whether it is the leader before the group does
    by_cases hl : c.componentUuid.val = h.group.leaderId
    · simp only [ComponentBase.isLeader, hl, decide_true, not_true_eq_false, if_false]
      exact (sendLeaderMessage_inverts h message).congr (by simp)
    · simp only [ComponentBase.isLeader, hl, decide_false, Bool.false_eq_true,
        not_false_eq_true, if_true]
      exact ⟨by simp [Report.ofBool], by simp [Report.ofBool]⟩
  | sendVote c groupId proposeId accept =>
    exact withGroup_inverts .ofBool rfl fun h => sendVote_inverts h proposeId accept
  | sendPropose c groupId message strUuid =>
    refine withGroup_inverts (.ofId strUuid) (ofId_absent strUuid) fun h => ?_
    rw [ofId_proposeResult]
    exact proposeValueToLeader_inverts h message strUuid
  | proposeAction c groupId actionId absTime strUuid =>
    refine withGroup_inverts (.ofId strUuid) (ofId_absent strUuid) fun h => ?_
    rw [ofId_proposeResult]
    exact proposeActionToLeader_inverts h strUuid actionId absTime

/-- `SenderPort::Send` and `AnswerPort::SendAnswer` report the truth. -/
theorem truthful_of_returnsPortError (op : SendOp) (hop : op.ReturnsPortError)
    (r : SendResult) : op.Truthful r := by
  have hsend : (SenderPort.send r).success = true ↔ True ∧ r.rc = 0 := by
    rw [SenderPort.send]
    split <;> simp [*]
  cases op with
  | send => simpa [SendOp.Truthful, SendOp.run, Report.ofPort] using hsend
  | sendAnswer =>
    simpa [SendOp.Truthful, SendOp.run, Report.ofPort, AnswerPort.sendAnswer] using hsend
  | _ => exact absurd hop id

/-- **When a sending function reports the truth.**  For every outcome of the
send, a function reports success exactly when its message was handed over iff
it returns the `PortError` of `SenderPort::Send` itself or makes no send. -/
theorem sendOp_truthful_iff (op : SendOp) (r : SendResult) :
    op.Truthful r ↔ op.ReturnsPortError ∨ ¬ op.Sends := by
  by_cases hop : op.ReturnsPortError
  · exact ⟨fun _ => .inl hop, fun _ => truthful_of_returnsPortError op hop r⟩
  · rw [SendOp.Truthful, (run_inverts op hop r).truthful_iff]
    exact ⟨.inr, fun h => h.resolve_left hop⟩

/-- A vote and a query that ZeroMQ takes over are both reported as failed. -/
theorem taken_over_reported_failed :
    ¬ (SendOp.groupSendVote .solo "p" true).Truthful ⟨0, 0⟩ ∧
      ¬ (SendOp.sendQuery "m" "").Truthful ⟨0, 0⟩ := by
  decide

end Riaps
