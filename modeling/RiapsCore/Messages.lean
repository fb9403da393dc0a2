/-
The messages of the coordination layer (`include/messaging/capnp/distcoord.capnp`).

Text fields that a sender leaves unset read as the empty string, enumerations
as their first value.  `LeaderElection` is a struct with three optional
sub-structs, not a union: a received message may carry any of them together,
and the receiver asks for each with `has…()`.  `GroupInternals` and the body
of `Consensus` are unions.

A `GroupMsg` is one multipart ZeroMQ message on the internal group port: the
encoded header and, for some kinds, a second frame with the application data.
-/
import Mathlib.Data.Finset.Insert

namespace Riaps

/-- The text form of a component's uuid (`ComponentUuid()`): `zuuid_str` never
gives the empty string. -/
abbrev ComponentUuid := { s : String // s ≠ "" }

/-- The bytes of a frame after the header. -/
abbrev Frame := List UInt8

inductive HeartBeatType where
  | ping
  | pong
deriving DecidableEq, Repr

structure GroupHeartBeat where
  heartBeatType : HeartBeatType
  sourceComponentId : String
deriving DecidableEq, Repr

/-! ### Leader election -/

structure AppendEntry where
  sourceComponentId : String
  electionTerm : UInt32
deriving DecidableEq, Repr

structure RequestForVoteReq where
  sourceComponentId : String
  electionTerm : UInt32
deriving DecidableEq, Repr

structure RequestForVoteRep where
  sourceComponentId : String
  voteForId : String
  electionTerm : UInt32
deriving DecidableEq, Repr

structure LeaderElection where
  appendEntry : Option AppendEntry := none
  requestForVoteReq : Option RequestForVoteReq := none
  requestForVoteRep : Option RequestForVoteRep := none
deriving DecidableEq, Repr

/-! ### Consensus -/

inductive VoteResults where
  | accepted
  | rejected
deriving DecidableEq, Repr

inductive VoteType where
  | value
  | action
deriving DecidableEq, Repr

structure TimeSpec where
  tvSec : Int32 := 0
  tvNsec : Int32 := 0
deriving DecidableEq

structure TimeSyncCoordA where
  actionId : String := ""
  time : TimeSpec := {}
deriving DecidableEq

/-- The union inside `Consensus`. -/
inductive ConsensusBody where
  | proposeToLeader (proposeId : String)
  | proposeToClients (proposeId leaderId : String)
  | vote (proposeId : String) (voteResult : VoteResults)
  | announce (proposeId : String) (voteResult : VoteResults)
deriving DecidableEq

structure Consensus where
  sourceComponentId : String := ""
  voteType : VoteType := .value
  body : ConsensusBody
  tsyncCoordA : TimeSyncCoordA := {}
deriving DecidableEq

/-! ### The internal group port -/

inductive GroupInternals where
  | groupHeartBeat (m : GroupHeartBeat)
  | leaderElection (m : LeaderElection)
  | messageToLeader (sourceComponentId : String)
  | consensus (m : Consensus)
  | groupMessage (sourceComponentId : String)
  | leaderMessage (sourceComponentId : String)
deriving DecidableEq

/-- One message on the internal port: header and optional second frame. -/
structure GroupMsg where
  header : GroupInternals
  frame : Option Frame := none
deriving DecidableEq

namespace GroupMsg

/-- The election message a group message carries, if it is one. -/
def election (m : GroupMsg) : Option LeaderElection :=
  match m.header with
  | .leaderElection e => some e
  | _ => none

/-- The group heartbeat that a message is, if it is one. -/
def heartBeat (m : GroupMsg) : Option GroupHeartBeat :=
  match m.header with
  | .groupHeartBeat hb => some hb
  | _ => none

/-- The vote a group message carries in an election, if it is one. -/
def voteRep (m : GroupMsg) : Option RequestForVoteRep :=
  m.election.bind (·.requestForVoteRep)

/-- The heartbeat of a leader that a group message carries, if it is one. -/
def entry (m : GroupMsg) : Option AppendEntry :=
  m.election.bind (·.appendEntry)

/-- The decision a group message announces, if it is one. -/
def announced (m : GroupMsg) : Option (String × VoteResults) :=
  match m.header with
  | .consensus ⟨_, _, .announce proposeId result, _⟩ => some (proposeId, result)
  | _ => none

/-- The proposal a group message submits to the leader, if it is one. -/
def proposed (m : GroupMsg) : Option String :=
  match m.header with
  | .consensus ⟨_, _, .proposeToLeader proposeId, _⟩ => some proposeId
  | _ => none

/-- The proposal that a leader passes on with a message, if it is one. -/
def forwarded (m : GroupMsg) : Option String :=
  match m.header with
  | .consensus ⟨_, _, .proposeToClients proposeId _, _⟩ => some proposeId
  | _ => none

end GroupMsg

end Riaps
