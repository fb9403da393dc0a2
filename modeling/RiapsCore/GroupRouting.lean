/-
From a sending function to the handler at the receivers.

The sending functions and `FetchNextMessage()` agree on a handler only through
the union members and the vote type of the message.  `intended` says which
handler each sending function is for, and at which receivers:

* `routed_iff_routable` — every message reaches its handler, once, with its contents, and
  no other handler, except that `SendLeaderMessage` reaches `OnGroupMessage`
  and that a time point outside 32 bits changes on its way to the leader;
* `action_time_kept_iff` — the time point of a coordinated action arrives at
  the members as it was proposed iff its seconds fit 32 bits.
-/
import RiapsCore.GroupSteps
import Mathlib.Algebra.Group.Int.Defs

namespace Riaps

/-- The `int64_t` fits the 32-bit fields of `TimeSpec`. -/
def Fits32 (x : Int64) : Prop := -2 ^ 31 ≤ x.toInt ∧ x.toInt < 2 ^ 31

instance (x : Int64) : Decidable (Fits32 x) := inferInstanceAs (Decidable (_ ∧ _))

/-- Storing in a 32-bit field and reading it back keeps a value iff it fits. -/
theorem toInt64_toInt32_eq_iff (x : Int64) : x.toInt32.toInt64 = x ↔ Fits32 x := by
  have hstored : x.toInt32.toInt64.toInt = x.toInt.bmod (2 ^ 32) := by
    rw [Int32.toInt_toInt64, Int64.toInt_toInt32]
  have hmod := Int.bmod_def x.toInt (2 ^ 32)
  constructor
  · intro heq
    rw [heq] at hstored
    constructor <;> omega
  · rintro ⟨hlow, hhigh⟩
    apply Int64.toInt_inj.mp
    rw [hstored]
    omega

/-- A `timespec` after the encoding of an action proposal. -/
def Timespec.stored (t : Timespec) : Timespec := ⟨t.tvSec.toInt32.toInt64, t.tvNsec.toInt32.toInt64⟩

theorem Timespec.stored_eq_iff (t : Timespec) :
    t.stored = t ↔ Fits32 t.tvSec ∧ Fits32 t.tvNsec := by
  rw [← toInt64_toInt32_eq_iff, ← toInt64_toInt32_eq_iff]
  rcases t with ⟨sec, nsec⟩
  simp [Timespec.stored]

/-! ### Who handles a message -/

/-- The functions that `FetchNextMessage()` may call on a message, with what is
handed to them. -/
inductive Handler where
  | component (cb : Callback)
  | onMessageFromLeader (message : Frame)
  | onProposeFromClient (proposeId : String) (message : Option Frame)
  | onActionProposeFromClient (proposeId actionId : String) (timePoint : Timespec)
  | onVote (proposeId : String) (result : VoteResults) (source : String)
  | update
deriving DecidableEq

namespace Handler

/-- The member function of `GroupLead` behind an input. -/
def ofInput : GroupLead.Input → Handler
  | .propose _ _ _ proposeId message => .onProposeFromClient proposeId message
  | .actionPropose _ _ proposeId tsca =>
    .onActionProposeFromClient proposeId tsca.actionId
      ⟨tsca.time.tvSec.toInt64, tsca.time.tvNsec.toInt64⟩
  | .vote _ proposeId result source => .onVote proposeId result source
  | .update _ _ | .message _ _ _ => .update

end Handler

namespace Group

/-- The handlers that receiving a message calls, in order; `none` when the
process does not survive it. -/
def handlers (g : Group) (now : ℤ) (draws : Draws) (m : GroupMsg) : Option (List Handler) :=
  (g.receive now draws m).map fun r =>
    r.2.callbacks.map .component
      ++ (leadInput g (.receive now draws m)).toList.map Handler.ofInput

/-- What an application sends to a group on the internal port. -/
inductive Send where
  | groupMessage (message : Frame)
  | messageToLeader (message : Frame)
  | leaderMessage (message : Frame)
  | proposeValue (message : Frame) (proposeId : String)
  | proposeAction (proposeId actionId : String) (absTime : Timespec)
  | vote (proposeId : String) (accept : Bool)

namespace Send

/-- The sending function behind it. -/
def call : Send → Call
  | .groupMessage message => .message message
  | .messageToLeader message => .messageToLeader message
  | .leaderMessage message => .leaderMessage message
  | .proposeValue message proposeId => .proposeValue message proposeId
  | .proposeAction proposeId actionId absTime => .proposeAction proposeId actionId absTime
  | .vote proposeId accept => .vote proposeId accept

/-- What goes to the leader: the handler is called where the receiver takes
itself for the leader, and nowhere else. -/
def atLeader (g' : Group) (h : Handler) : List Handler :=
  if g'.leaderId = g'.parentComponentId then [h] else []

/-- The handlers that a message of `g` is meant for at the receiver `g'`. -/
def intended (op : Send) (g g' : Group) : List Handler :=
  match op with
  | .groupMessage message => [.component (.onGroupMessage message)]
  | .messageToLeader message => atLeader g' (.component (.onMessageToLeader message))
  | .leaderMessage message => [.onMessageFromLeader message]
  | .proposeValue message proposeId => atLeader g' (.onProposeFromClient proposeId (some message))
  | .proposeAction proposeId actionId absTime =>
    atLeader g' (.onActionProposeFromClient proposeId actionId absTime)
  | .vote proposeId accept =>
    atLeader g' (.onVote proposeId (if accept then .accepted else .rejected) g.parentComponentId)

/-- The messages of the call reach the handlers they are meant for at `g'`. -/
def Routed (op : Send) (g g' : Group) (now : ℤ) (draws : Draws) : Prop :=
  ∀ m ∈ (g.perform op.call).2.sent, g'.handlers now draws m = some (op.intended g g')

instance (op : Send) (g g' : Group) (now : ℤ) (draws : Draws) :
    Decidable (op.Routed g g' now draws) :=
  inferInstanceAs (Decidable (∀ m ∈ _, _ = _))

/-- The call is not a `SendLeaderMessage` that sends, and not an action
proposal which brings the leader a time point outside 32 bits. -/
def Routable (op : Send) (g g' : Group) : Prop :=
  match op with
  | .leaderMessage _ => g.leaderId ≠ g.parentComponentId
  | .proposeAction _ _ absTime =>
    g.leaderId ≠ "" → g'.leaderId = g'.parentComponentId →
      Fits32 absTime.tvSec ∧ Fits32 absTime.tvNsec
  | _ => True

end Send

variable {g g' : Group} {now : ℤ} {draws : Draws}

/-- A consensus message for the leader calls the `GroupLead` there and nothing
elsewhere. -/
theorem handlers_consensus {c : Consensus} {frame : Option Frame} {i : GroupLead.Input}
    (hcall : g'.leaderCall now draws c frame = some i)
    (hmember : memberCallbacks c frame = some []) :
    g'.handlers now draws ⟨.consensus c, frame⟩
      = some (Send.atLeader g' (Handler.ofInput i)) := by
  by_cases hl : g'.leaderId = g'.parentComponentId
  · simp [handlers, receive, leadInput, Send.atLeader, hl, hcall, drive]
  · simp [handlers, receive, leadInput, Send.atLeader, hl, hmember]

/-- A message that is not about a decision calls what its callbacks say. -/
theorem handlers_groupMessage (source : String) (message : Frame) :
    g'.handlers now draws ⟨.groupMessage source, some message⟩
      = some [.component (.onGroupMessage message)] := rfl

theorem handlers_messageToLeader (source : String) (message : Frame) :
    g'.handlers now draws ⟨.messageToLeader source, some message⟩
      = some (Send.atLeader g' (.component (.onMessageToLeader message))) := by
  by_cases hl : g'.leaderId = g'.parentComponentId
  · simp [handlers, receive, leadInput, Send.atLeader, hl]
  · simp [handlers, receive, leadInput, Send.atLeader, hl]

/-- `SendLeaderMessage` publishes a `GroupMessage`, or nothing. -/
theorem leaderMessage_routed_iff (message : Frame) :
    (Send.leaderMessage message).Routed g g' now draws ↔ g.leaderId ≠ g.parentComponentId := by
  by_cases hl : g.leaderId = g.parentComponentId
  · refine iff_of_false ?_ (not_not.mpr hl)
    intro hrouted
    have hm := hrouted ⟨.groupMessage g.parentComponentId, some message⟩
      (by simp [Send.call, perform, sendLeaderMessage, hl])
    rw [handlers_groupMessage] at hm
    simp [Send.intended] at hm
  · refine iff_of_true ?_ hl
    intro m hm
    simp [Send.call, perform, sendLeaderMessage, hl] at hm

/-- An action proposal brings the leader the time point that the message could
hold. -/
theorem proposeAction_routed_iff (proposeId actionId : String) (absTime : Timespec) :
    (Send.proposeAction proposeId actionId absTime).Routed g g' now draws ↔
      (g.leaderId ≠ "" → g'.leaderId = g'.parentComponentId →
        Fits32 absTime.tvSec ∧ Fits32 absTime.tvNsec) := by
  have hread : ∀ t : Timespec, Send.atLeader g' (.onActionProposeFromClient proposeId actionId t)
      = Send.atLeader g' (.onActionProposeFromClient proposeId actionId absTime) ↔
        (g'.leaderId = g'.parentComponentId → t = absTime) := by
    intro t
    by_cases hl : g'.leaderId = g'.parentComponentId
    · simp [Send.atLeader, hl]
    · simp [Send.atLeader, hl]
  have hsent : (g.perform (Send.proposeAction proposeId actionId absTime).call).2.sent
      = g.proposeActionToLeader proposeId actionId absTime := rfl
  rw [Send.Routed, hsent, proposeActionToLeader]
  by_cases hlead : g.leaderId = ""
  · refine iff_of_true ?_ (fun hne => absurd hlead hne)
    intro m hm
    simp [hlead] at hm
  · rw [if_neg hlead]
    simp only [List.mem_singleton, forall_eq]
    rw [handlers_consensus rfl rfl, Option.some_inj]
    show Send.atLeader g' (.onActionProposeFromClient proposeId actionId absTime.stored) = _ ↔ _
    rw [Send.intended, hread, Timespec.stored_eq_iff]
    simp [hlead]

/-- `a` after its election. -/
def electedGroup : Group :=
  { initGroup GroupLead.compA 0 GroupLead.shortTimeo true [] with
    groupLeader := GroupLead.electedInputs.foldl (fun gl i => (gl.step i).1)
      (GroupLead.init GroupLead.compA 0 GroupLead.shortTimeo) }

/-- `b` after a heartbeat of `a`. -/
def followerGroup : Group :=
  { initGroup GroupLead.compB 0 GroupLead.shortTimeo true [] with
    groupLeader := ((GroupLead.init GroupLead.compB 0 GroupLead.shortTimeo).step
      (.message (220 * milliseconds) GroupLead.shortTimeo { appendEntry := some ⟨"a", 1⟩ })).1 }

def someDraws : Draws := ⟨GroupLead.shortTimeo, shortNodeTimeo, false⟩

/-- What the leader sends on receiving an action proposal: at most the proposal
itself, to the members. -/
theorem forwarded_action {c : Consensus} {proposeId : String} {frame : Option Frame}
    {r : Group × Effects} {m' : GroupMsg} (hbody : c.body = .proposeToLeader proposeId)
    (htype : c.voteType = .action) (hr : g'.receive now draws ⟨.consensus c, frame⟩ = some r)
    (hm : m' ∈ r.2.sent) :
    ∃ source leaderId, m' = ⟨.consensus ⟨source, .action, .proposeToClients proposeId leaderId,
      c.tsyncCoordA⟩, none⟩ := by
  by_cases hl : g'.leaderId = g'.parentComponentId
  · have hcall : g'.leaderCall now draws c frame
        = some (.actionPropose now g'.knownNodes proposeId c.tsyncCoordA) := by
      rw [leaderCall, hbody, htype]
    simp only [receive, hl, if_true, hcall, Option.some_inj] at hr
    subst hr
    simp only [drive, GroupLead.step, GroupLead.onActionProposeFromClient] at hm
    split at hm
    · simp at hm
    · split at hm
      · simp at hm
      · rw [List.mem_singleton.mp hm]
        exact ⟨_, _, rfl⟩
  · have hmember : memberCallbacks c frame = some [] := by
      rw [memberCallbacks, hbody, htype]
    simp only [receive, hl, if_false, hmember, Option.map_some, Option.some_inj] at hr
    subst hr
    simp at hm

/-- The two hops of an action: for every message that `leader` sends on
receiving the proposal of `proposer`, the callbacks it leads to at `member`. -/
def relayedAction (proposer leader member : Group) (now now' : ℤ) (draws draws' : Draws)
    (proposeId actionId : String) (absTime : Timespec) : List (Option (List Callback)) :=
  (proposer.perform (.proposeAction proposeId actionId absTime)).2.sent.flatMap fun m =>
    (leader.receive now draws m).toList.flatMap fun r =>
      r.2.sent.map fun m' => (member.receive now' draws' m').map fun r' => r'.2.callbacks

/-- A member that is not the leader gets the action with the time point that
the messages could hold. -/
theorem relayedAction_stored {proposer leader member : Group} {now now' : ℤ}
    {draws draws' : Draws} {proposeId actionId : String} {absTime : Timespec}
    {cbs : Option (List Callback)}
    (hmember : member.leaderId ≠ member.parentComponentId)
    (h : cbs ∈ relayedAction proposer leader member now now' draws draws' proposeId actionId
      absTime) :
    cbs = some [.onActionPropose proposeId actionId absTime.stored] := by
  obtain ⟨m, hm, h⟩ := List.mem_flatMap.mp h
  obtain ⟨r, hr, h⟩ := List.mem_flatMap.mp h
  obtain ⟨m', hm', rfl⟩ := List.mem_map.mp h
  simp only [perform, proposeActionToLeader] at hm
  split at hm
  · simp at hm
  · rw [List.mem_singleton.mp hm] at hr
    obtain ⟨source, leaderId, rfl⟩ :=
      forwarded_action rfl rfl (Option.mem_toList.mp hr) hm'
    simp [receive, hmember, memberCallbacks, Timespec.stored]

/-- **A coordinated action keeps its time point** on its way from a proposer
through the leader to a member iff the seconds fit 32 bits. -/
theorem action_time_kept_iff {proposer leader member : Group} {now now' : ℤ}
    {draws draws' : Draws} {proposeId actionId : String} {absTime : Timespec}
    {cbs : Option (List Callback)}
    (hnsec : 0 ≤ absTime.tvNsec.toInt ∧ absTime.tvNsec.toInt < 10 ^ 9)
    (hmember : member.leaderId ≠ member.parentComponentId)
    (h : cbs ∈ relayedAction proposer leader member now now' draws draws' proposeId actionId
      absTime) :
    cbs = some [.onActionPropose proposeId actionId absTime] ↔ Fits32 absTime.tvSec := by
  have hfits : Fits32 absTime.tvNsec := ⟨by omega, by omega⟩
  rw [relayedAction_stored hmember h]
  have hcb : (some [Callback.onActionPropose proposeId actionId absTime.stored]
      = some [.onActionPropose proposeId actionId absTime]) ↔ absTime.stored = absTime := by
    simp
  rw [hcb, Timespec.stored_eq_iff]
  exact and_iff_left hfits

/-- `b` proposes an action to `a` and gets it back with its time point. -/
theorem action_time_kept :
    ∃ cbs ∈ relayedAction followerGroup electedGroup followerGroup (230 * milliseconds)
        (240 * milliseconds) someDraws someDraws "p" "x" ⟨1700000000, 999999999⟩,
      cbs = some [.onActionPropose "p" "x" ⟨1700000000, 999999999⟩] := by
  have hmember : followerGroup.leaderId ≠ followerGroup.parentComponentId := by decide
  have hcbs : some [.onActionPropose "p" "x" ⟨1700000000, 999999999⟩] ∈
      relayedAction followerGroup electedGroup followerGroup (230 * milliseconds)
        (240 * milliseconds) someDraws someDraws "p" "x" ⟨1700000000, 999999999⟩ := by decide
  exact ⟨_, hcbs, (action_time_kept_iff (by decide) hmember hcbs).mpr (by decide)⟩

/-- One second after the last that 32 bits can hold, the action arrives with a
time point before the epoch. -/
theorem action_time_lost :
    followerGroup.leaderId ≠ followerGroup.parentComponentId ∧
      (∃ cbs ∈ relayedAction followerGroup electedGroup followerGroup (230 * milliseconds)
          (240 * milliseconds) someDraws someDraws "p" "x" ⟨2147483648, 0⟩,
        cbs = some [.onActionPropose "p" "x" ⟨-2147483648, 0⟩] ∧
          cbs ≠ some [.onActionPropose "p" "x" ⟨2147483648, 0⟩]) := by
  decide

end Group

end Riaps
