/-
The main loop of `rdiscoveryd` (`src/discoveryd/r_discoveryd.cc`) and the
tracker it feeds.

An iteration polls the control socket and the UDP listener, lets the validator
answer (`ReplyAll`), and handles what has arrived.  A beacon is a source address
and a payload: the source is passed on to the tracker, the payload is checked by
the validator, and if it is valid, the source is kept in `ipcache` and joined
the first time it is seen.

The main loop and the tracker are two threads with a queue between them, in
which the beacons wait.  The clock of an iteration is read in the branch that
handles what has arrived; `ReplyAll` reads no clock.
-/
import RiapsCore.DhtTracker
import RiapsCore.Validator

open Runs StdString

namespace Riaps

/-- What the poller of the main loop returns. -/
inductive Polled where
  | control (command : String) (newhost : Option String)
  | beacon (ipaddress : String) (payload : Option String)
  | timeout
deriving DecidableEq

/-- One iteration: what the poller returns, what the validator finds, the clock,
and the check period that is drawn if the validator makes an entry. -/
structure MainIteration where
  polled : Polled
  arrived : Arrived
  now : ℤ
  period : CheckPeriod

/-- The variables of `main` that the loop reads or writes.  The times in
`externalipcache` are never read. -/
structure Discoveryd where
  address : String
  validator : DiscoveryValidator
  ipcache : Table String (Timeout milliseconds)
  externalipcache : Finset String

/-- What an iteration sends out: JOIN messages to the actor, beacons to the
tracker, and the identity that `ReplyAll` sends. -/
structure MainEffects where
  joins : List String := []
  beacons : List String := []
  identity : Option (String × Blob) := none

/-- `CMD_DISCO_JOIN`. -/
def cmdDiscoJoin : String := "JOIN"

/-- The payload of the beacons of nodes without security, byte by byte. -/
def announcement : String := ofBlob [0xE2, 0x95, 0xA9, 0xE2, 0x96, 0xA0]

/-- `maintain_cache(ipcache)`. -/
def maintainCache (now : ℤ) (ipcache : Table String (Timeout milliseconds)) :
    Table String (Timeout milliseconds) :=
  Table.retain (fun _ timeout => ¬ timeout.isTimeout now) ipcache

namespace Discoveryd

/-- Before the loop, with security on. -/
def init (address : String) (validator : DiscoveryValidator) : Discoveryd where
  address := address
  validator := validator
  ipcache := ∅
  externalipcache := ∅

/-- The control branch. -/
def handleControl (s : Discoveryd) (command : String) (newhost : Option String) :
    Discoveryd × List String :=
  match newhost with
  | none => (s, [])
  | some newhost =>
    if command = cmdDiscoJoin ∧ newhost ∉ s.externalipcache then
      ({ s with externalipcache := insert newhost s.externalipcache }, [newhost])
    else (s, [])

/-- The beacon branch for a valid payload. -/
def handleValidBeacon (s : Discoveryd) (now : ℤ) (ipaddress : String) :
    Discoveryd × List String :=
  if ipaddress = s.address then (s, [])
  else
    ({ s with ipcache :=
        maintainCache now (s.ipcache.insert ipaddress (.ofDuration now 30000)) },
      if ipaddress ∈ s.ipcache then [] else [ipaddress])

/-- The address that `IsValid` is called with: any payload with security on, the
announcement otherwise. -/
def checkedPayload (s : Discoveryd) (payload : Option String) : Option String :=
  if s.validator.hasSecurity then payload
  else if payload = some announcement then payload
  else none

/-- The branch that handles what has arrived; an exception of `IsValid` ends the
process. -/
def handlePolled (env : ValidatorEnv) (s : Discoveryd) (it : MainIteration) :
    Option (Discoveryd × MainEffects) :=
  match it.polled with
  | .control command newhost =>
    let (s, joins) := s.handleControl command newhost
    some (s, { joins := joins })
  | .beacon ipaddress payload =>
    match s.checkedPayload payload with
    | none => some (s, { beacons := [ipaddress] })
    | some payload =>
      match s.validator.isValid env it.now it.period payload with
      | .error _ => none
      | .ok r =>
        let s := { s with validator := r.validator }
        let (s, joins) := if r.answer then s.handleValidBeacon it.now ipaddress else (s, [])
        some (s, { joins := joins, beacons := [ipaddress] })
  | .timeout => some ({ s with ipcache := maintainCache it.now s.ipcache }, {})

/-- One iteration of the loop. -/
def iterate (env : ValidatorEnv) (s : Discoveryd) (it : MainIteration) :
    Option (Discoveryd × MainEffects) :=
  let (validator, identity) := s.validator.replyAll env it.arrived
  (handlePolled env { s with validator := validator } it).map fun r =>
    (r.1, { r.2 with identity := identity })

/-- The step function of runs. -/
def next (env : ValidatorEnv) (s : Discoveryd) (it : MainIteration) : Option Discoveryd :=
  (s.iterate env it).map Prod.fst

end Discoveryd

/-! ### With the tracker -/

/-- The daemon: the main loop, the tracker, and the beacons on their way from
one to the other. -/
structure Rdiscoveryd where
  main : Discoveryd
  tracker : DhtTracker
  queue : List String

/-- A step of one of the two threads.  The tracker takes a beacon from the queue
or another input; beacons come from the main loop only. -/
inductive DaemonStep where
  | main (it : MainIteration)
  | trackerBeacon (now : ℤ)
  | tracker (now : ℤ) (input : TrackerInput)

namespace Rdiscoveryd

def init (main : Discoveryd) (now : ℤ) : Rdiscoveryd := ⟨main, .init now, []⟩

/-- The step function of runs. -/
def next (env : ValidatorEnv) (s : Rdiscoveryd) : DaemonStep → Option Rdiscoveryd
  | .main it =>
    (s.main.iterate env it).map fun r =>
      { s with main := r.1, queue := s.queue ++ r.2.beacons }
  | .trackerBeacon now =>
    match s.queue with
    | [] => none
    | ip :: queue =>
      (s.tracker.iterate now (.beaconIp ip)).map fun r => { s with tracker := r.1, queue := queue }
  | .tracker _ (.beaconIp _) => none
  | .tracker now input =>
    (s.tracker.iterate now input).map fun r => { s with tracker := r.1 }

end Rdiscoveryd

end Riaps
