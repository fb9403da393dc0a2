/-
`DiscoveryValidator` (`include/discoveryd/r_validator.h`,
`src/discoveryd/r_validator.cc`): which nodes may be trusted.

A node announces the address of its validator.  The first time the address is
seen, and again when the check period of its entry is over, the validator asks
it to identify itself; a reply that names the address with a valid signature
validates the entry.

The crypto library and `inet_pton` are parameters.  The sockets of the entries
carry no state of their own: a reply may come in on any of them.  `IsValid` may
throw, which ends the process: such a call has no result.
-/
import RiapsCore.DhtData
import RiapsCore.Runs
import RiapsCore.Timeout
import Mathlib.Data.Int.ConditionallyCompleteOrder
import Mathlib.Order.ConditionallyCompleteLattice.Finset

open Runs StdString

namespace Riaps

/-- What the validator uses of the libraries it calls. -/
structure ValidatorEnv where
  key : PrivateKey
  /-- `inet_pton(AF_INET, address, ...) != 0`. -/
  inetPton : String → Bool

/-- `node_info`. -/
structure NodeInfo where
  checkPeriod : Timeout seconds
  validated : Bool
deriving DecidableEq

/-- The draws of `Timeout<seconds>(45, 60)`. -/
abbrev CheckPeriod := Set.Icc (45 : ℤ) 60

structure DiscoveryValidator where
  hasSecurity : Bool
  validatorAddress : String
  signature : Blob
  lastDelete : Timeout minutes
  clusterNodes : Table String NodeInfo

/-- `IDENTIFY_MESSAGE`. -/
def identifyMessage : String := "Identify yourself!"

namespace NodeInfo

/-- `CreateNode(node_address)`: the constructor of the timeout stores the period
and leaves the end point alone. -/
def createNode (period : CheckPeriod) : NodeInfo := ⟨Timeout.blank.resetCount period, false⟩

/-- `Validate(node_address)`; the answer tells whether the node is asked to
identify itself. -/
def validate (node : NodeInfo) (now : ℤ) : NodeInfo × Bool :=
  if node.checkPeriod.isTimeout now then (⟨node.checkPeriod.reset now, false⟩, true)
  else (node, false)

end NodeInfo

/-- `IsValidZmqAddress(zmq_address)`. -/
def isValidZmqAddress (inetPton : String → Bool) (zmqAddress : String) : Except StoiError Bool :=
  match afterFirst "tcp://".toList zmqAddress.toList with
  | none => .ok false
  | some addressPort =>
    match cut ':' (String.ofList addressPort) with
    | none => .ok false
    | some (address, port) =>
      match stoi port with
      | .error e => .error e
      | .ok port => if port ≤ 0 ∨ port ≥ 65535 then .ok false else .ok (inetPton (cStr address))

/-- A call of `IsValid`: its answer, the new state, and whether an identify
request was sent to the node. -/
structure IsValidResult where
  answer : Bool
  validator : DiscoveryValidator
  identifies : Bool

/-- What `ReplyAll` finds: nothing, a request on the socket of the validator, or
a reply on the socket of an entry. -/
inductive Arrived where
  | nothing
  | request (command : String)
  | reply (address : String) (signature : Blob)
deriving DecidableEq

namespace DiscoveryValidator

/-- `InitWithSecurity(ip_address, private_key)`, with the endpoint that the
socket is bound to. -/
def initWithSecurity (env : ValidatorEnv) (now : ℤ) (draw : ℕ) (endpoint : String) :
    DiscoveryValidator where
  hasSecurity := true
  validatorAddress := endpoint
  signature := env.key.sign draw (toBlob endpoint)
  lastDelete := .ofCount now 1
  clusterNodes := ∅

/-- Without security, the other members are not used. -/
def initNoSecurity (now : ℤ) : DiscoveryValidator where
  hasSecurity := false
  validatorAddress := ""
  signature := []
  lastDelete := .ofDuration now 0
  clusterNodes := ∅

/-- `DeleteOldNodes()`. -/
def deleteOldNodes (v : DiscoveryValidator) (now : ℤ) : DiscoveryValidator :=
  { v with
    clusterNodes :=
      if v.lastDelete.isTimeout now then
        Table.retain (fun _ node => ¬ node.checkPeriod.isTimeout now) v.clusterNodes
      else v.clusterNodes
    lastDelete := v.lastDelete.reset now }

/-- The part of `IsValid` after the check of the address. -/
def checkNode (v : DiscoveryValidator) (now : ℤ) (period : CheckPeriod) (nodeAddress : String) :
    IsValidResult :=
  let v := v.deleteOldNodes now
  let node := (v.clusterNodes.lookup nodeAddress).getD (.createNode period)
  let (node, identifies) :=
    if ¬ node.validated ∨ node.checkPeriod.isTimeout now then node.validate now else (node, false)
  ⟨node.validated, { v with clusterNodes := v.clusterNodes.insert nodeAddress node }, identifies⟩

/-- `IsValid(node_address)`. -/
def isValid (env : ValidatorEnv) (v : DiscoveryValidator) (now : ℤ) (period : CheckPeriod)
    (nodeAddress : String) : Except StoiError IsValidResult :=
  if ¬ v.hasSecurity then .ok ⟨true, v, false⟩
  else
    match isValidZmqAddress env.inetPton nodeAddress with
    | .error e => .error e
    | .ok false => .ok ⟨false, v, false⟩
    | .ok true => .ok (v.checkNode now period nodeAddress)

/-- `ReplyAll()`, with the identity that it sends out. -/
def replyAll (env : ValidatorEnv) (v : DiscoveryValidator) (arrived : Arrived) :
    DiscoveryValidator × Option (String × Blob) :=
  if ¬ v.hasSecurity then (v, none)
  else
    match arrived with
    | .nothing => (v, none)
    | .request command =>
      (v, if command = identifyMessage then some (v.validatorAddress, v.signature) else none)
    | .reply address signature =>
      match v.clusterNodes.lookup address with
      | none => (v, none)
      | some node =>
        if env.key.checkSignature (toBlob address) signature then
          ({ v with clusterNodes := v.clusterNodes.insert address { node with validated := true } },
            none)
        else (v, none)

/-! ### Sequences of calls -/

inductive Call where
  | isValid (nodeAddress : String) (period : CheckPeriod)
  | replyAll (arrived : Arrived)

/-- A call and the clock when it is made. -/
structure Timed where
  now : ℤ
  call : Call

/-- The step function of runs. -/
def next (env : ValidatorEnv) (v : DiscoveryValidator) (l : Timed) : Option DiscoveryValidator :=
  match l.call with
  | .isValid nodeAddress period =>
    match v.isValid env l.now period nodeAddress with
    | .error _ => none
    | .ok r => some r.validator
  | .replyAll arrived => some (v.replyAll env arrived).1

/-- The node that a call asks to identify itself. -/
def identifies (env : ValidatorEnv) (v : DiscoveryValidator) (l : Timed) : Option String :=
  match l.call with
  | .isValid nodeAddress period =>
    match v.isValid env l.now period nodeAddress with
    | .error _ => none
    | .ok r => if r.identifies then some nodeAddress else none
  | .replyAll _ => none

/-- The address that a call receives a reply from, if its signature is valid. -/
def verifiedReply (env : ValidatorEnv) (l : Timed) : Option String :=
  match l.call with
  | .replyAll (.reply address signature) =>
    if env.key.checkSignature (toBlob address) signature then some address else none
  | _ => none

variable {env : ValidatorEnv} {v v' : DiscoveryValidator} {l : Timed} {now : ℤ}
  {period : CheckPeriod} {a b : String}

/-! ### What a call does to an entry -/

/-- The entry of a node that has just been asked to identify itself. -/
def askedNode (now count : ℤ) : NodeInfo := ⟨⟨now, count, now + count * seconds⟩, false⟩

/-- A scan drops the entries that have expired. -/
theorem lookup_deleteOldNodes_iff {node : NodeInfo} :
    (v.deleteOldNodes now).clusterNodes.lookup a = some node ↔
      v.clusterNodes.lookup a = some node ∧
        (v.lastDelete.isTimeout now → ¬ node.checkPeriod.isTimeout now) := by
  rw [deleteOldNodes]
  dsimp only
  by_cases hscan : v.lastDelete.isTimeout now
  · rw [if_pos hscan, Table.lookup_retain, decide_eq_true_eq]
    simp [hscan]
  · rw [if_neg hscan]
    simp [hscan]

theorem lookup_deleteOldNodes (v : DiscoveryValidator) (now : ℤ) (a : String) :
    (v.deleteOldNodes now).clusterNodes.lookup a = v.clusterNodes.lookup a ∨
      (v.deleteOldNodes now).clusterNodes.lookup a = none := by
  rcases h : (v.deleteOldNodes now).clusterNodes.lookup a with _ | node
  · exact .inr rfl
  · exact .inl (lookup_deleteOldNodes_iff.mp h).1.symm

theorem validate_of_isTimeout {node : NodeInfo} (h : node.checkPeriod.isTimeout now) :
    node.validate now = (askedNode now node.checkPeriod.timeout, true) := by
  rw [NodeInfo.validate, if_pos h]
  rfl

theorem validate_of_not_isTimeout {node : NodeInfo} (h : ¬ node.checkPeriod.isTimeout now) :
    node.validate now = (node, false) := by
  rw [NodeInfo.validate, if_neg h]

/-- A call on a well-formed address leaves a fresh entry as it is, and asks the
node to identify itself otherwise. -/
theorem checkNode_cases (v : DiscoveryValidator) (hnow : 0 < now) (period : CheckPeriod)
    (a : String) :
    (∃ node, v.clusterNodes.lookup a = some node ∧ ¬ node.checkPeriod.isTimeout now ∧
      v.checkNode now period a = ⟨node.validated, { v.deleteOldNodes now with
        clusterNodes := (v.deleteOldNodes now).clusterNodes.insert a node }, false⟩) ∨
    ∃ count : ℤ, (count = period ∨
        ∃ node, v.clusterNodes.lookup a = some node ∧ count = node.checkPeriod.timeout) ∧
      v.checkNode now period a = ⟨false, { v.deleteOldNodes now with
        clusterNodes := (v.deleteOldNodes now).clusterNodes.insert a (askedNode now count) },
        true⟩ := by
  rcases hlook : (v.deleteOldNodes now).clusterNodes.lookup a with _ | node
  · -- the end point of a new entry is the epoch
    have hnew : (NodeInfo.createNode period).checkPeriod.isTimeout now := hnow
    have hasks := validate_of_isTimeout hnew
    refine .inr ⟨(NodeInfo.createNode period).checkPeriod.timeout, .inl rfl, ?_⟩
    simp [checkNode, hlook, hnew, hasks, askedNode]
  · have hold : v.clusterNodes.lookup a = some node := by
      rcases lookup_deleteOldNodes v now a with h | h
      · rw [← h, hlook]
      · rw [h] at hlook
        cases hlook
    by_cases hto : node.checkPeriod.isTimeout now
    · refine .inr ⟨node.checkPeriod.timeout, .inr ⟨node, hold, rfl⟩, ?_⟩
      simp [checkNode, hlook, hto, validate_of_isTimeout hto, askedNode]
    · refine .inl ⟨node, hold, hto, ?_⟩
      by_cases hval : node.validated
      · simp [checkNode, hlook, hto, hval]
      · simp [checkNode, hlook, validate_of_not_isTimeout hto, hval]

/-- Of the other entries, a call changes what it deletes. -/
theorem lookup_checkNode_of_ne (v : DiscoveryValidator) (now : ℤ) (period : CheckPeriod)
    (hab : a ≠ b) :
    (v.checkNode now period b).validator.clusterNodes.lookup a
      = (v.deleteOldNodes now).clusterNodes.lookup a :=
  AList.lookup_insert_ne hab

/-- The three ways out of `IsValid`. -/
theorem isValid_cases {r : IsValidResult} (h : v.isValid env now period a = .ok r) :
    v.hasSecurity = false ∧ r = ⟨true, v, false⟩ ∨
    v.hasSecurity = true ∧ (r = ⟨false, v, false⟩ ∨ r = v.checkNode now period a) := by
  rw [isValid] at h
  split at h
  · rename_i hsec
    exact .inl ⟨eq_false_of_ne_true hsec, (Except.ok.inj h).symm⟩
  · rename_i hsec
    refine .inr ⟨not_not.mp hsec, ?_⟩
    split at h
    · cases h
    · exact .inl (Except.ok.inj h).symm
    · exact .inr (Except.ok.inj h).symm

theorem isValid_hasSecurity {r : IsValidResult} (h : v.isValid env now period a = .ok r) :
    r.validator.hasSecurity = v.hasSecurity := by
  rcases isValid_cases h with ⟨-, rfl⟩ | ⟨-, rfl | rfl⟩
  · rfl
  · rfl
  · rfl

/-- `ReplyAll` changes nothing but entries. -/
theorem replyAll_eq (env : ValidatorEnv) (v : DiscoveryValidator) (arrived : Arrived) :
    ∃ nodes, (v.replyAll env arrived).1 = { v with clusterNodes := nodes } := by
  unfold replyAll
  split
  · exact ⟨_, rfl⟩
  · cases arrived with
    | nothing => exact ⟨_, rfl⟩
    | request command => exact ⟨_, rfl⟩
    | reply address signature =>
      dsimp only
      split
      · exact ⟨_, rfl⟩
      · split
        · exact ⟨_, rfl⟩
        · exact ⟨_, rfl⟩

theorem replyAll_hasSecurity (env : ValidatorEnv) (v : DiscoveryValidator) (arrived : Arrived) :
    (v.replyAll env arrived).1.hasSecurity = v.hasSecurity := by
  obtain ⟨nodes, h⟩ := replyAll_eq env v arrived
  rw [h]

theorem replyAll_lastDelete (env : ValidatorEnv) (v : DiscoveryValidator) (arrived : Arrived) :
    (v.replyAll env arrived).1.lastDelete = v.lastDelete := by
  obtain ⟨nodes, h⟩ := replyAll_eq env v arrived
  rw [h]

/-- Everything a call can do to the entry of the node `a`. -/
inductive EntryStep (env : ValidatorEnv) (a : String) (v : DiscoveryValidator) :
    Timed → DiscoveryValidator → Prop
  | kept {l : Timed} {v' : DiscoveryValidator} :
      v'.clusterNodes.lookup a = v.clusterNodes.lookup a → identifies env v l ≠ some a →
      EntryStep env a v l v'
  | dropped {l : Timed} {v' : DiscoveryValidator} :
      v'.clusterNodes.lookup a = none → identifies env v l ≠ some a → EntryStep env a v l v'
  | asked {now : ℤ} {period : CheckPeriod} {count : ℤ} {v' : DiscoveryValidator} :
      (count = period ∨
        ∃ node, v.clusterNodes.lookup a = some node ∧ count = node.checkPeriod.timeout) →
      v'.clusterNodes.lookup a = some (askedNode now count) →
      identifies env v ⟨now, .isValid a period⟩ = some a →
      EntryStep env a v ⟨now, .isValid a period⟩ v'
  | validated {l : Timed} {node : NodeInfo} {v' : DiscoveryValidator} :
      verifiedReply env l = some a → v.clusterNodes.lookup a = some node →
      v'.clusterNodes.lookup a = some { node with validated := true } →
      identifies env v l ≠ some a → EntryStep env a v l v'

theorem next_checkNode_entry (hnow : 0 < now) (h : v.isValid env now period b
    = .ok (v.checkNode now period b)) (a : String) :
    EntryStep env a v ⟨now, .isValid b period⟩ (v.checkNode now period b).validator := by
  have hident : identifies env v ⟨now, .isValid b period⟩
      = if (v.checkNode now period b).identifies then some b else none := by
    simp only [identifies, h]
  by_cases hab : a = b
  · subst hab
    rcases checkNode_cases v hnow period a with ⟨node, hnode, -, hr⟩ | ⟨count, hcount, hr⟩
    · refine .kept ?_ ?_
      · rw [hr, AList.lookup_insert, hnode]
      · rw [hident, hr]
        simp
    · refine .asked hcount ?_ ?_
      · rw [hr, AList.lookup_insert]
      · rw [hident, hr]
        rfl
  · have hne : identifies env v ⟨now, .isValid b period⟩ ≠ some a := by
      rw [hident]
      split
      · simpa using Ne.symm hab
      · simp
    have hlook := lookup_checkNode_of_ne v now period hab
    rcases lookup_deleteOldNodes v now a with hkept | hgone
    · exact .kept (hlook.trans hkept) hne
    · exact .dropped (hlook.trans hgone) hne

theorem next_replyAll_entry (env : ValidatorEnv) (v : DiscoveryValidator) (now : ℤ)
    (arrived : Arrived) (a : String) :
    EntryStep env a v ⟨now, .replyAll arrived⟩ (v.replyAll env arrived).1 := by
  have hne : identifies env v ⟨now, .replyAll arrived⟩ ≠ some a := by simp [identifies]
  unfold replyAll
  split
  · exact .kept rfl hne
  · cases arrived with
    | nothing => exact .kept rfl hne
    | request command => exact .kept rfl hne
    | reply address signature =>
      dsimp only
      split
      · exact .kept rfl hne
      · rename_i node hnode
        split
        · rename_i hsig
          by_cases hab : a = address
          · subst hab
            refine .validated ?_ hnode (AList.lookup_insert _) hne
            simp only [verifiedReply, hsig, if_true]
          · exact .kept (AList.lookup_insert_ne hab) hne
        · exact .kept rfl hne

/-- **Every call is one of the listed steps** on each entry. -/
theorem next_entry (h : next env v l = some v') (hnow : 0 < l.now) (a : String) :
    EntryStep env a v l v' := by
  rcases l with ⟨now, call⟩
  cases call with
  | isValid b period =>
    rcases hr : v.isValid env now period b with _ | r
    · simp [next, hr] at h
    · obtain rfl : r.validator = v' := by simpa [next, hr] using h
      have hkept : r.identifies = false → r.validator = v →
          EntryStep env a v ⟨now, .isValid b period⟩ r.validator := by
        intro hno hsame
        refine .kept (by rw [hsame]) ?_
        simp [identifies, hr, hno]
      rcases isValid_cases hr with ⟨-, rfl⟩ | ⟨-, rfl | rfl⟩
      · exact hkept rfl rfl
      · exact hkept rfl rfl
      · exact next_checkNode_entry hnow hr a
  | replyAll arrived =>
    obtain rfl := Option.some_inj.mp h
    exact next_replyAll_entry env v now arrived a

end DiscoveryValidator

end Riaps
