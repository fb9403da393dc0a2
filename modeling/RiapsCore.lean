import RiapsCore.LeaderRole
import RiapsCore.OneVote
import RiapsCore.ElectionTimeout
import RiapsCore.LiveMembers
import RiapsCore.ElectionSafety
import RiapsCore.Agreement
import RiapsCore.OwnPublisher
import RiapsCore.ActionVotes
import RiapsCore.ComponentBase
import RiapsCore.GroupRouting
import RiapsCore.Memberships
import RiapsCore.SendStatus
import RiapsCore.Discovery
import RiapsCore.ScheduledTimers
import RiapsCore.DiscoverySteps
import RiapsCore.ServiceRenewal
import RiapsCore.CrashDatabase
import RiapsCore.GroupKeys
import RiapsCore.Separators
import RiapsCore.ServiceKeys
import RiapsCore.DiscoveryLoop
import RiapsCore.ActorTable
import RiapsCore.ZombieServices
import RiapsCore.Leases
import RiapsCore.Recovery
import RiapsCore.ServiceLapse
import RiapsCore.DhtData
import RiapsCore.Validator
import RiapsCore.Validation
import RiapsCore.DhtTracker
import RiapsCore.Discoveryd
import RiapsCore.Beacons
import RiapsCore.Endpoints
import RiapsCore.Notifications
import RiapsCore.RiapsMessages
import RiapsCore.Stability
import RiapsCore.TrackedNodes
import RiapsCore.SelfPublication
import RiapsCore.ValidatorPurge
import RiapsCore.ZmqAddress
import RiapsCore.LmdbTransactions
import RiapsCore.Parameters
import RiapsCore.PeriodicTimer
import RiapsCore.SporadicTimer
import RiapsCore.TimeoutResets
import RiapsCore.GroupTraffic
import RiapsCore.GroupCallbacks
import RiapsCore.Candidacy
import RiapsCore.HeardMembers
import RiapsCore.ServicePorts
import RiapsCore.DiscoveryNet
import RiapsCore.ServiceWiring
import RiapsCore.Connections
import RiapsCore.ProviderUpdates
import RiapsCore.SortedDups
import RiapsCore.LmdbFile
import RiapsCore.LmdbHistory
import RiapsCore.Presence
import RiapsCore.Admission
import RiapsCore.VoteStanding
import RiapsCore.ConsensusRound
