/-
Endpoints between the hash table and the clients.

`BuildInsertKeyValuePair` writes an endpoint as `host:port`.  It comes back to a
client on two paths, by `HandleDhtUpdate` for the clients that are subscribed and
by `HandleDhtGet` for the one that has just asked; both split it at the first
`':'` and read the port with `stoi`:

* `handleDhtGet_getRequest` — a get is the update of one client;
* `readEndpoint_buildInsertKeyValuePair` — what was written is read back;
* `delivery_paths_agree` — so the two paths agree, and deliver what was written;
* `malformed_dropped_iff` — the strings that neither path forwards by mistake.
-/
import RiapsCore.DhtData
import RiapsCore.Subscriptions

open Runs StdString

namespace Riaps

/-- The request that the callback of `DhtGet` makes of a client and a result. -/
def getRequest (codec : Codec) (c : ClientDetails) (result : String) : ProviderListGet where
  appName := codec.text c.appName
  scope := if c.isLocal then .local else .global
  client := {
    actorHost := codec.text c.actorHost
    actorName := codec.text c.actorName
    instanceName := codec.text c.instanceName
    portName := codec.text c.portName }
  results := [codec.text result]

theorem getCallback_eq (codec : Codec) (key : Option PrivateKey) (c : ClientDetails)
    (v : DhtData) :
    getCallback codec key c v
      = (v.read key).map fun data => .providerGet (getRequest codec c (ofBlob data)) := by
  rw [getCallback]
  rcases v.read key with _ | data
  · rfl
  · rfl

/-- A `Text` that is read by its `cStr()`, as all are. -/
structure Codec.CText (codec : Codec) : Prop where
  text_eq : ∀ s, codec.text s = cStr s

namespace ClientDetails

def texts (c : ClientDetails) : List String :=
  [c.appName, c.actorName, c.actorHost, c.instanceName, c.portName]

/-- The texts are C strings. -/
def CStrings (c : ClientDetails) : Prop := ∀ s ∈ c.texts, '\x00' ∉ s.toList

instance (c : ClientDetails) : Decidable c.CStrings :=
  inferInstanceAs (Decidable (∀ s ∈ c.texts, '\x00' ∉ s.toList))

/-- The client of a `PortUpd`. -/
def toClient (c : ClientDetails) : Client :=
  ⟨c.actorHost, c.actorName, c.instanceName, c.portName⟩

def scope (c : ClientDetails) : Scope := if c.isLocal then .local else .global

end ClientDetails

/-- The texts of a client come back from a message. -/
theorem getRequest_eq {codec : Codec} (hcodec : codec.CText) {c : ClientDetails}
    (hc : c.CStrings) (result : String) :
    getRequest codec c result = ⟨c.appName, c.scope, c.toClient, [cStr result]⟩ := by
  have htext : ∀ s ∈ c.texts, codec.text s = s := by
    intro s hs
    rw [hcodec.text_eq, cStr_of_notMem (hc s hs)]
  simp only [getRequest, ClientDetails.toClient, ClientDetails.scope, hcodec.text_eq result,
    htext c.appName (by simp [ClientDetails.texts]),
    htext c.actorName (by simp [ClientDetails.texts]),
    htext c.actorHost (by simp [ClientDetails.texts]),
    htext c.instanceName (by simp [ClientDetails.texts]),
    htext c.portName (by simp [ClientDetails.texts])]

namespace DiscoveryMessageHandler

variable {H : Type*}

/-! ### The two paths -/

/-- **A get is the update of one client.** -/
theorem handleDhtGet_getRequest (d : DiscoveryMessageHandler H) (zombies : Table String ℕ)
    {codec : Codec} (hcodec : codec.CText) {c : ClientDetails} (hc : c.CStrings)
    (v : String) :
    d.handleDhtGet zombies (getRequest codec c v)
      = (d.portUpdateFor zombies c (cStr v)).toList := by
  rw [getRequest_eq hcodec hc, handleDhtGet, portUpdateFor, List.filterMap_cons,
    List.filterMap_nil]
  dsimp only
  rcases readEndpoint zombies (cStr v) with _ | ⟨host, port⟩
  · rfl
  · dsimp only [ClientDetails.toClient]
    rcases d.clients.lookup (clientKeyBase c.appName c.actorName) with _ | actor
    · rfl
    · rfl

/-- An update with one endpoint, in terms of the clients. -/
theorem handleDhtUpdate_singleton (d : DiscoveryMessageHandler H) (zombies : Table String ℕ)
    (key endpoint : String) :
    d.handleDhtUpdate zombies ⟨key, [endpoint]⟩
      = (d.subscribed key).flatMap fun c => (d.portUpdateFor zombies c endpoint).toList := by
  have hone : ∀ c, [endpoint].filterMap (d.portUpdateFor zombies c)
      = (d.portUpdateFor zombies c endpoint).toList := by
    intro c
    rw [List.filterMap_cons, List.filterMap_nil]
    rcases d.portUpdateFor zombies c endpoint with _ | p
    · rfl
    · rfl
  rw [handleDhtUpdate, subscribed]
  dsimp only
  rcases d.clientSubscriptions.lookup key with _ | clients
  · rfl
  · simp only [hone, Option.getD_some]

/-! ### The round trip -/

/-- The conversion to `uint16_t` keeps a port number. -/
theorem toNat_port {port : Int32} (h : 0 ≤ port.toInt ∧ port.toInt ≤ 65535) :
    port.toInt16.toUInt16.toNat = port.toInt.toNat := by
  have hbits : port.toInt16.toUInt16.toNat = port.toInt16.toBitVec.toNat := rfl
  rw [hbits, Int32.toBitVec_toInt16]
  rw [← Int32.toInt_toBitVec] at h ⊢
  generalize port.toBitVec = b at *
  rw [BitVec.signExtend_eq_setWidth_of_le _ (by omega), BitVec.toNat_setWidth]
  rw [BitVec.toInt_eq_toNat_cond] at h ⊢
  split at h <;> omega

theorem stoi_port {port : Int32} (h : 0 ≤ port.toInt ∧ port.toInt ≤ 65535) :
    stoi (toString port.toInt16.toUInt16.toNat) = .ok port := by
  rw [toNat_port h, stoi_toString (by omega), ← Int32.ofInt_eq_ofNat,
    Int.toNat_of_nonneg h.1, Int32.ofInt_toInt]

section

variable {d : DiscoveryMessageHandler H} {path : Path} {host : String} {port : Int32}
  {kv : String × String}

theorem buildInsertKeyValuePair_value (h : d.buildInsertKeyValuePair path host port = some kv) :
    kv.2.toList = host.toList ++ ':' :: (toString port.toInt16.toUInt16.toNat).toList := by
  obtain ⟨kind, -, rfl⟩ := Option.map_eq_some_iff.mp h
  simp

/-- **What was written is read back.** -/
theorem readEndpoint_buildInsertKeyValuePair {zombies : Table String ℕ}
    (h : d.buildInsertKeyValuePair path host port = some kv) (hhost : ':' ∉ host.toList)
    (hport : 0 ≤ port.toInt ∧ port.toInt ≤ 65535) (hzombie : kv.2 ∉ zombies) :
    readEndpoint zombies kv.2 = some (host, port) :=
  readEndpoint_eq_some_iff.mpr ⟨hzombie, _,
    cut_eq_some_iff.mpr ⟨buildInsertKeyValuePair_value h, hhost⟩, stoi_port hport⟩

theorem cStr_buildInsertKeyValuePair (h : d.buildInsertKeyValuePair path host port = some kv)
    (hhost : '\x00' ∉ host.toList) : cStr kv.2 = kv.2 := by
  refine cStr_of_notMem fun hmem => ?_
  rw [buildInsertKeyValuePair_value h, List.mem_append, List.mem_cons] at hmem
  rcases hmem with hmem | hmem | hmem
  · exact hhost hmem
  · cases hmem
  · rw [Nat.toString_eq_repr, Nat.toList_repr] at hmem
    cases Nat.isDigit_of_mem_toDigits (by decide) (by decide) hmem

end

/-- A host, `':'` and a port number, and nothing else. -/
def WellFormed (v : String) : Prop :=
  ∃ host digits : List Char, v.toList = host ++ ':' :: digits ∧ host ≠ [] ∧ ':' ∉ host ∧
    digits ≠ [] ∧ (∀ c ∈ digits, c.isDigit = true) ∧ 1 ≤ decimal digits ∧ decimal digits ≤ 65535

/-- The string of the hash table is forwarded to a client only if it is well
formed, whatever the state is and what else the message holds. -/
def DropsMalformed (H : Type*) (v : String) : Prop :=
  ∀ (d : DiscoveryMessageHandler H) (zombies : Table String ℕ),
    (∀ g, ∀ p ∈ d.handleDhtGet zombies g, p.endpoint = cStr v → WellFormed v) ∧
    ∀ u, ∀ p ∈ d.handleDhtUpdate zombies u, p.endpoint = cStr v → WellFormed v

/-- The string has no NUL, the host is not empty, and the text of the port is a
number of the range without space, sign or rest, if they are split and read as
the handlers do it. -/
def ReadExactly (v : String) : Prop :=
  ∀ host port : String, ∀ value : ℤ, cut ':' (cStr v) = some (host, port) →
    Numeral port.toList value → -2 ^ 31 ≤ value ∧ value < 2 ^ 31 →
    '\x00' ∉ v.toList ∧ host ≠ "" ∧ (∀ c ∈ port.toList, c.isDigit = true) ∧
      1 ≤ value ∧ value ≤ 65535

theorem WellFormed.cut_eq {v : String} (h : WellFormed v) :
    ∃ host digits : String, cut ':' v = some (host, digits) ∧ host ≠ "" ∧
      digits.toList ≠ [] ∧ (∀ c ∈ digits.toList, c.isDigit = true) ∧
      1 ≤ decimal digits.toList ∧ decimal digits.toList ≤ 65535 := by
  obtain ⟨host, digits, hv, hhost, hcolon, hne, hdigits, hrange⟩ := h
  refine ⟨String.ofList host, String.ofList digits, cut_eq_some_iff.mpr ?_, ?_, ?_⟩
  · rw [String.toList_ofList, String.toList_ofList]
    exact ⟨hv, hcolon⟩
  · intro hempty
    rw [← String.toList_ofList (l := host), hempty] at hhost
    exact hhost rfl
  · rw [String.toList_ofList]
    exact ⟨hne, hdigits, hrange⟩

/-- A well-formed string with a NUL has it in the host, and is not split. -/
theorem WellFormed.notMem_nul {v host port : String} (h : WellFormed v)
    (hcut : cut ':' (cStr v) = some (host, port)) : '\x00' ∉ v.toList := by
  obtain ⟨host', digits, hcut', -, -, hdigits, -⟩ := h.cut_eq
  obtain ⟨rest, hwhole⟩ := cut_of_cut_cStr hcut
  obtain ⟨rfl, -⟩ := Prod.mk.inj (Option.some_inj.mp (hwhole.symm.trans hcut'))
  rw [(cut_eq_some_iff.mp hcut').1]
  intro hnul
  rw [List.mem_append, List.mem_cons] at hnul
  rcases hnul with hnul | hnul | hnul
  · refine notMem_cStr v ?_
    rw [(cut_eq_some_iff.mp hcut).1]
    exact List.mem_append_left _ hnul
  · cases hnul
  · cases hdigits _ hnul

theorem WellFormed.readExactly {v : String} (h : WellFormed v) : ReadExactly v := by
  intro host port value hcut hnum _
  have hnul : '\x00' ∉ v.toList := h.notMem_nul hcut
  obtain ⟨host', digits, hcut', hhost, hne, hdigits, hrange⟩ := h.cut_eq
  rw [cStr_of_notMem hnul, hcut', Option.some_inj, Prod.mk.injEq] at hcut
  obtain ⟨rfl, rfl⟩ := hcut
  have hvalue : value = decimal digits.toList := hnum.unique (numeral_digits hne hdigits)
  exact ⟨hnul, hhost, hdigits, by omega, by omega⟩

/-- An endpoint that is read, when this happens exactly, is well formed. -/
theorem ReadExactly.wellFormed {v : String} (h : ReadExactly v) {zombies : Table String ℕ}
    {hp : String × Int32} (hread : readEndpoint zombies (cStr v) = some hp) : WellFormed v := by
  obtain ⟨-, port, hcut, hstoi⟩ := readEndpoint_eq_some_iff.mp hread
  obtain ⟨value, hnum, hrange, -⟩ := stoi_eq_ok_iff.mp hstoi
  obtain ⟨hnul, hhost, hdigits, hlow, hhigh⟩ := h hp.1 port value hcut hnum hrange
  rw [cStr_of_notMem hnul] at hcut
  obtain ⟨hsplit, hcolon⟩ := cut_eq_some_iff.mp hcut
  have hne : port.toList ≠ [] := hnum.ne_nil
  have hvalue : value = decimal port.toList := hnum.unique (numeral_digits hne hdigits)
  refine ⟨hp.1.toList, port.toList, hsplit, ?_, hcolon, hne, hdigits, by omega, by omega⟩
  rwa [ne_eq, String.toList_eq_nil_iff]

/-- Without zombies, what can be read is forwarded to a registered actor. -/
theorem exists_mem_handleDhtGet (H : Type*) {endpoint : String} {hp : String × Int32}
    (hread : readEndpoint ∅ endpoint = some hp) :
    ∃ (d : DiscoveryMessageHandler H) (g : ProviderListGet) (p : PortSend),
      p ∈ d.handleDhtGet ∅ g ∧ p.endpoint = endpoint := by
  let actor : ActorDetails := ⟨0, 40001, 7, "app"⟩
  let d : DiscoveryMessageHandler H :=
    { init "mac" "10.0.0.1" with
      clients := AList.singleton (clientKeyBase "app" "A") actor }
  let client : Client := ⟨"h", "A", "i", "p"⟩
  refine ⟨d, ⟨"app", .global, client, [endpoint]⟩, ⟨endpoint, 0, client, .global, hp.1, hp.2⟩,
    List.mem_filterMap.mpr ⟨endpoint, List.mem_singleton_self _, ?_⟩, rfl⟩
  rw [hread]
  rfl

/-- **When malformed endpoints are dropped.**  A string of the hash table is
forwarded only if it is well formed, iff the handlers read it exactly. -/
theorem malformed_dropped_iff (v : String) : DropsMalformed H v ↔ ReadExactly v := by
  constructor
  · intro h host port value hcut hnum hrange
    have hread : readEndpoint ∅ (cStr v) = some (host, Int32.ofInt value) :=
      readEndpoint_eq_some_iff.mpr
        ⟨by simp, port, hcut, stoi_eq_ok_iff.mpr ⟨value, hnum, hrange, rfl⟩⟩
    obtain ⟨d, g, p, hp, hendpoint⟩ := exists_mem_handleDhtGet H hread
    exact ((h d ∅).1 g p hp hendpoint).readExactly host port value hcut hnum hrange
  · intro h d zombies
    constructor
    · intro g p hp hendpoint
      obtain ⟨_, hread⟩ := mem_handleDhtGet hp
      rw [hendpoint] at hread
      exact h.wellFormed hread
    · intro u p hp hendpoint
      obtain ⟨_, hread⟩ := mem_handleDhtUpdate hp
      rw [hendpoint] at hread
      exact h.wellFormed hread

/-- A port number that is too large is forwarded, on both paths. -/
theorem malformed_endpoint_forwarded :
    ¬ WellFormed "10.0.0.2:99999" ∧
    ∃ tr s, Run (next plainDht) (init "mac" "10.0.0.1") tr s ∧
      (∃ c ∈ s.subscribed "/app/Msg/rep", ∃ p ∈ s.handleDhtGet ∅
        (getRequest ⟨cStr, fun _ => none⟩ c "10.0.0.2:99999"), p.update.port = 99999) ∧
      ∃ p ∈ s.handleDhtUpdate ∅ ⟨"/app/Msg/rep", ["10.0.0.2:99999"]⟩, p.update.port = 99999 := by
  constructor
  · intro h
    obtain ⟨host, digits, hcut, -, -, -, -, hhigh⟩ := h.cut_eq
    obtain ⟨rfl, rfl⟩ := Prod.mk.inj (Option.some_inj.mp
      ((show cut ':' "10.0.0.2:99999" = some ("10.0.0.2", "99999") by decide).symm.trans hcut))
    exact absurd hhigh (by decide)
  · exact exists_run_of_replay (next plainDht) (init "mac" "10.0.0.1") _
      [⟨0, .actorReg actorA bound⟩, ⟨10, .serviceLookup (requestLookup "p")⟩] (by decide)

end DiscoveryMessageHandler

end Riaps
