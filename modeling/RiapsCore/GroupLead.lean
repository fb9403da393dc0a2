/-
`riaps::groups::GroupLead` (`include/groups/r_grouplead.h`,
`src/groups/r_grouplead.cc`): leader election and consensus of one component.

Each member function becomes a function of the object state, the clock reading
`now`, the random value drawn during the call and the group's membership table;
it returns the new state and the messages it publishes, in order.  The
callback installed by `SetOnLeaderChanged` only logs, as does `_logger`; both
are left out.

`Input` lists the calls that `Group::FetchNextMessage()` makes, and `step`
performs one of them.  A sequence of calls is a run of `next`.
-/
import RiapsCore.KnownNodes

namespace Riaps

abbrev minElectionTimeout : ℤ := 150
abbrev maxElectionTimeout : ℤ := 500
abbrev appendEntryTimeout : ℤ := 75

/-- A value returned by `GenerateElectionTimeo()`. -/
abbrev ElectionTimeo := { d : ℤ // minElectionTimeout ≤ d ∧ d ≤ maxElectionTimeout }

inductive NodeState where
  | follower
  | candidate
  | leader
deriving DecidableEq, Repr

/-- `GroupLead::ProposeData`. -/
structure ProposeData where
  nodesInVote : Finset String
  nodesVoted : Finset String
  proposeDeadline : Timeout milliseconds
  accepted : UInt16
  rejected : UInt16
  isAction : Bool
  actionId : String

namespace ProposeData

/-- The constructor.  It does not initialise `isAction`, so the caller passes
whatever value the member happens to have. -/
def create (knownNodes : Finset String) (timeout : Timeout milliseconds) (isAction : Bool) :
    ProposeData where
  nodesInVote := knownNodes
  nodesVoted := ∅
  proposeDeadline := timeout
  accepted := 0
  rejected := 0
  isAction := isAction
  actionId := ""

/-- The lines of `OnVote` that count one vote. -/
def count (pd : ProposeData) (source : String) (result : VoteResults) : ProposeData :=
  let pd := { pd with nodesVoted := insert source pd.nodesVoted }
  match result with
  | .accepted => { pd with accepted := pd.accepted + 1 }
  | .rejected => { pd with rejected := pd.rejected + 1 }

/-- The majority that `OnVote` asks for: `groupSize/2 + 1` for an even size and
`ceil(groupSize/2.0)` for an odd one. -/
def majority (pd : ProposeData) : ℕ :=
  let groupSize := pd.nodesInVote.card
  if groupSize % 2 = 0 then groupSize / 2 + 1 else groupSize / 2 + groupSize % 2

end ProposeData

/-- The state of a `GroupLead`.  `componentId` stands for
`m_group->parent_component()->ComponentUuid()`.  `actionData` shares its
`ProposeData` objects with `proposeData`; only their deadlines, which never
change, are read through it, so copies serve. -/
structure GroupLead where
  componentId : ComponentUuid
  currentState : NodeState
  electionTimeout : Timeout milliseconds
  appEntryTimeout : Timeout milliseconds
  electionTerm : UInt32
  numberOfNodesInVote : UInt32
  votes : Table String ℤ
  leaderId : String
  proposeData : Table String ProposeData
  actionData : Table String ProposeData

namespace GroupLead

/-- The constructor, called at `now` with `timeo` drawn for the first election
timeout.  `m_numberOfNodesInVote` is left uninitialised there and is read only
after a candidacy has set it. -/
def init (componentId : ComponentUuid) (now : ℤ) (timeo : ElectionTimeo) : GroupLead where
  componentId := componentId
  currentState := .follower
  electionTimeout := Timeout.ofCount now timeo
  appEntryTimeout := Timeout.ofCount now appendEntryTimeout
  electionTerm := 0
  numberOfNodesInVote := 0
  votes := ∅
  leaderId := ""
  proposeData := ∅
  actionData := ∅

/-- `GetLeaderId()`. -/
def getLeaderId (gl : GroupLead) : String := gl.leaderId

/-- `ChangeLeader(newLeader)`. -/
def changeLeader (gl : GroupLead) (newLeader : String) : GroupLead :=
  if gl.leaderId ≠ newLeader then { gl with leaderId := newLeader } else gl

/-! ### The messages it sends -/

/-- `SendRequestForVote()`. -/
def sendRequestForVote (gl : GroupLead) : GroupMsg where
  header := .leaderElection { requestForVoteReq := some ⟨gl.componentId, gl.electionTerm⟩ }

/-- `SendAppendEntry()`. -/
def sendAppendEntry (gl : GroupLead) : GroupMsg where
  header := .leaderElection { appendEntry := some ⟨gl.componentId, gl.electionTerm⟩ }

/-- `SendVote(voteFor)`. -/
def sendVote (gl : GroupLead) (voteFor : String) : GroupMsg where
  header := .leaderElection
    { requestForVoteRep := some ⟨gl.componentId, voteFor, gl.electionTerm⟩ }

/-- `Announce(proposeId, result)`. -/
def announce (proposeId : String) (result : VoteResults) : GroupMsg where
  header := .consensus { body := .announce proposeId result }

/-- The forwarded proposal that both `OnActionProposeFromClient` and
`OnProposeFromClient` publish. -/
def proposeToClients (gl : GroupLead) (voteType : VoteType) (proposeId : String)
    (tsca : TimeSyncCoordA) (frame : Option Frame) : GroupMsg where
  header := .consensus {
    sourceComponentId := gl.componentId
    voteType := voteType
    body := .proposeToClients proposeId gl.getLeaderId
    tsyncCoordA := tsca }
  frame := frame

/-! ### `Update()` -/

/-- FOLLOWER --> CANDIDATE. -/
def becomeCandidate (gl : GroupLead) (now : ℤ) (memberCount : UInt16) : GroupLead :=
  let gl := gl.changeLeader ""
  { gl with
    currentState := .candidate
    -- the component itself is not one of the counted members
    numberOfNodesInVote := memberCount.toUInt32 + 1
    electionTerm := gl.electionTerm + 1
    votes := (∅ : Table String ℤ).insert gl.componentId now
    electionTimeout := gl.electionTimeout.resetDuration now maxElectionTimeout }

/-- CANDIDATE --> FOLLOWER when the vote has timed out. -/
def voteTimeout (gl : GroupLead) (now : ℤ) : GroupLead :=
  { gl with
    currentState := .follower
    electionTimeout := gl.electionTimeout.resetDuration now maxElectionTimeout }

/-- The bookkeeping of a leader that has just sent its heartbeat. -/
def afterAppendEntry (gl : GroupLead) (now : ℤ) : GroupLead :=
  { gl with
    appEntryTimeout := gl.appEntryTimeout.reset now
    leaderId := gl.componentId }

/-- The proposals whose deadline has passed. -/
def expired (gl : GroupLead) (now : ℤ) : List String :=
  (Table.retain (fun _ pd => pd.proposeDeadline.isTimeout now) gl.proposeData).keys

/-- The loop over `m_proposeData` of an idle leader: expired proposals are
announced as rejected and erased. -/
def maintain (gl : GroupLead) (now : ℤ) : GroupLead × List GroupMsg :=
  ({ gl with
      proposeData :=
        Table.retain (fun _ pd => ¬ pd.proposeDeadline.isTimeout now) gl.proposeData },
    (gl.expired now).map fun proposeId => announce proposeId .rejected)

/-- `Update()`.  Returns the membership table too, which a candidacy purges by
calling `GetMemberCount()`. -/
def update (gl : GroupLead) (now : ℤ) (known : KnownNodes) :
    GroupLead × KnownNodes × List GroupMsg :=
  match gl.currentState with
  | .follower =>
    if gl.electionTimeout.isTimeout now then
      let (memberCount, known) := known.getMemberCount now
      let gl := gl.becomeCandidate now memberCount
      (gl, known, [gl.sendRequestForVote])
    else (gl, known, [])
  | .candidate =>
    if gl.electionTimeout.isTimeout now then (gl.voteTimeout now, known, [])
    else (gl, known, [])
  | .leader =>
    if gl.appEntryTimeout.isTimeout now then
      (gl.afterAppendEntry now, known, [gl.sendAppendEntry])
    else
      -- proposals are looked after only in a call that sends no heartbeat
      let (gl, out) := gl.maintain now
      (gl, known, out)

/-! ### `Update(LeaderElection::Reader&)` -/

/-- `GetNumberOfVotes()`. -/
def getNumberOfVotes (gl : GroupLead) : UInt32 := UInt32.ofNat (Table.size gl.votes)

/-- The majority test on a counted vote; `ceil(n/2.0)` of an odd `n` is
`n/2 + 1`. -/
def hasMajority (gl : GroupLead) : Bool :=
  let n := gl.numberOfNodesInVote
  if n % 2 = 0 then decide (n / 2 + 1 ≤ gl.getNumberOfVotes)
  else if n % 2 = 1 then decide (n / 2 + n % 2 ≤ gl.getNumberOfVotes)
  else false

/-- A vote request reaches a follower. -/
def onVoteReqFollower (gl : GroupLead) (timeo : ElectionTimeo) (req : RequestForVoteReq) :
    GroupLead × List GroupMsg :=
  if gl.electionTerm < req.electionTerm ∧ req.sourceComponentId ≠ gl.componentId then
    let gl := { gl with
      electionTerm := req.electionTerm
      electionTimeout := gl.electionTimeout.resetCount timeo }
    (gl, [gl.sendVote req.sourceComponentId])
  else (gl, [])

/-- A vote request reaches a candidate or a leader. -/
def onVoteReqOther (gl : GroupLead) (timeo : ElectionTimeo) (req : RequestForVoteReq) :
    GroupLead × List GroupMsg :=
  if req.electionTerm > gl.electionTerm then
    let gl := { gl with currentState := .follower, electionTerm := req.electionTerm }
    -- the source tests `m_currentState` after the assignment above
    let gl := if gl.currentState = .leader then gl.changeLeader "" else gl
    let gl := { gl with electionTimeout := gl.electionTimeout.resetCount timeo }
    (gl, [gl.sendVote req.sourceComponentId])
  else (gl, [])

/-- A vote reaches a candidate. -/
def onVoteRep (gl : GroupLead) (now : ℤ) (rep : RequestForVoteRep) :
    GroupLead × List GroupMsg :=
  if gl.componentId ≠ rep.sourceComponentId ∧ rep.electionTerm = gl.electionTerm ∧
      rep.voteForId = gl.componentId then
    let gl := { gl with votes := gl.votes.insert rep.sourceComponentId now }
    if gl.hasMajority then
      let gl := { gl with currentState := .leader }
      (gl.changeLeader gl.componentId, [gl.sendAppendEntry])
    else (gl, [])
  else (gl, [])

/-- A leader's heartbeat reaches a follower. -/
def onAppendEntryFollower (gl : GroupLead) (timeo : ElectionTimeo) (entry : AppendEntry) :
    GroupLead :=
  -- the term is taken over as it is, also when it is lower
  let gl := { gl with
    electionTimeout := gl.electionTimeout.resetCount timeo
    electionTerm := entry.electionTerm }
  gl.changeLeader entry.sourceComponentId

/-- A leader's heartbeat reaches a leader. -/
def onAppendEntryLeader (gl : GroupLead) (timeo : ElectionTimeo) (entry : AppendEntry) :
    GroupLead :=
  if entry.electionTerm > gl.electionTerm then
    let gl := { gl with currentState := .follower, electionTerm := entry.electionTerm }
    let gl := gl.changeLeader entry.sourceComponentId
    { gl with electionTimeout := gl.electionTimeout.resetCount timeo }
  else gl

/-- `Update(internalMessage)`.  A message with a vote request is treated as one
in every state; the other parts are looked at in the states that use them. -/
def updateMessage (gl : GroupLead) (now : ℤ) (timeo : ElectionTimeo)
    (m : LeaderElection) : GroupLead × List GroupMsg :=
  match m.requestForVoteReq, gl.currentState with
  | some req, .follower => gl.onVoteReqFollower timeo req
  | some req, .candidate | some req, .leader => gl.onVoteReqOther timeo req
  -- a candidate looks for votes and ignores heartbeats
  | none, .candidate =>
    match m.requestForVoteRep with
    | some rep => gl.onVoteRep now rep
    | none => (gl, [])
  | none, .follower =>
    match m.appendEntry with
    | some entry => (gl.onAppendEntryFollower timeo entry, [])
    | none => (gl, [])
  | none, .leader =>
    match m.appendEntry with
    | some entry => (gl.onAppendEntryLeader timeo entry, [])
    | none => (gl, [])

/-! ### Consensus -/

/-- The deadline of a proposal: one second after its registration. -/
def proposeTimeout (now : ℤ) : Timeout milliseconds := Timeout.ofDuration now 1000

/-- `OnActionProposeFromClient(headerMessage, tscaMessage)`. -/
def onActionProposeFromClient (gl : GroupLead) (now : ℤ) (known : KnownNodes)
    (proposeId : String) (tsca : TimeSyncCoordA) : GroupLead × List GroupMsg :=
  if gl.getLeaderId ≠ gl.componentId then (gl, [])
  -- a vote on the same action is still going on
  else if (gl.actionData.lookup tsca.actionId).any
      (fun pd => ¬ pd.proposeDeadline.isTimeout now) then (gl, [])
  else
    let pd := { ProposeData.create (known.getKnownComponents now) (proposeTimeout now) true with
      actionId := tsca.actionId }
    let gl := { gl with
      proposeData := gl.proposeData.insert proposeId pd
      actionData := gl.actionData.insert tsca.actionId pd }
    (gl, [gl.proposeToClients .action proposeId tsca none])

/-- `OnProposeFromClient(headerMessage, messageFrame)`; `isAction` is the
uninitialised member of the new `ProposeData`. -/
def onProposeFromClient (gl : GroupLead) (now : ℤ) (known : KnownNodes)
    (isAction : Bool) (proposeId : String) (messageFrame : Option Frame) :
    GroupLead × List GroupMsg :=
  if gl.getLeaderId ≠ gl.componentId then (gl, [])
  else
    let pd := ProposeData.create (known.getKnownComponents now) (proposeTimeout now) isAction
    let gl := { gl with proposeData := gl.proposeData.insert proposeId pd }
    (gl, [gl.proposeToClients .value proposeId {} messageFrame])

/-- Erase a decided proposal, and its action when it has one. -/
def eraseProposal (gl : GroupLead) (proposeId : String) (pd : ProposeData) : GroupLead :=
  { gl with
    actionData := if pd.isAction then gl.actionData.erase pd.actionId else gl.actionData
    proposeData := gl.proposeData.erase proposeId }

/-- `OnVote(message, sourceComponentId)`. -/
def onVote (gl : GroupLead) (now : ℤ) (proposeId : String) (result : VoteResults)
    (source : String) : GroupLead × List GroupMsg :=
  match gl.proposeData.lookup proposeId with
  | none => (gl, [])
  | some pd =>
    if pd.proposeDeadline.isTimeout now then
      (gl.eraseProposal proposeId pd, [announce proposeId .rejected])
    -- the voter was not known when the proposal was registered
    else if source ∉ pd.nodesInVote then (gl, [])
    else
      -- `nodesVoted` is written here and not asked
      let pd := pd.count source result
      if pd.majority ≤ pd.accepted.toNat then
        (gl.eraseProposal proposeId pd, [announce proposeId .accepted])
      else if pd.majority ≤ pd.rejected.toNat then
        (gl.eraseProposal proposeId pd, [announce proposeId .rejected])
      else ({ gl with proposeData := gl.proposeData.insert proposeId pd }, [])

/-! ### Sequences of calls -/

/-- One call of a member function, with everything it reads from outside. -/
inductive Input where
  | update (now : ℤ) (known : KnownNodes)
  | message (now : ℤ) (timeo : ElectionTimeo) (m : LeaderElection)
  | actionPropose (now : ℤ) (known : KnownNodes) (proposeId : String)
      (tsca : TimeSyncCoordA)
  | propose (now : ℤ) (known : KnownNodes) (isAction : Bool) (proposeId : String)
      (messageFrame : Option Frame)
  | vote (now : ℤ) (proposeId : String) (result : VoteResults) (source : String)

/-- The clock reading of a call. -/
def Input.now : Input → ℤ
  | .update now _ => now
  | .message now _ _ => now
  | .actionPropose now _ _ _ => now
  | .propose now _ _ _ _ => now
  | .vote now _ _ _ => now

/-- Perform one call: the new state and the messages published. -/
def step (gl : GroupLead) : Input → GroupLead × List GroupMsg
  | .update now known => ((gl.update now known).1, (gl.update now known).2.2)
  | .message now timeo m => gl.updateMessage now timeo m
  | .actionPropose now known proposeId tsca => gl.onActionProposeFromClient now known proposeId tsca
  | .propose now known isAction proposeId frame =>
    gl.onProposeFromClient now known isAction proposeId frame
  | .vote now proposeId result source => gl.onVote now proposeId result source

/-- The step function of runs of one `GroupLead`: every call is possible. -/
def next (gl : GroupLead) (i : Input) : Option GroupLead := some (gl.step i).1

theorem next_eq_some {gl gl' : GroupLead} {i : Input} :
    gl.next i = some gl' ↔ gl' = (gl.step i).1 := by
  rw [next, Option.some_inj]
  exact eq_comm

/-! ### A small group for concrete runs -/

def compA : ComponentUuid := ⟨"a", by decide⟩
def compB : ComponentUuid := ⟨"b", by decide⟩
def compC : ComponentUuid := ⟨"c", by decide⟩

/-- The smallest election timeout. -/
def shortTimeo : ElectionTimeo := ⟨150, by decide⟩

/-- `a` times out, asks for votes and gets the one of `b` in a group of two. -/
def electedInputs : List Input :=
  [.update (200 * milliseconds) ((∅ : KnownNodes).insert "b" (.ofCount 0 11000)),
    .message (210 * milliseconds) shortTimeo { requestForVoteRep := some ⟨"b", "a", 1⟩ }]

end GroupLead

end Riaps
