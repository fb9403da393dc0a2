/-
`DhtData` (`include/discoveryd/r_dhtdata.h`, `src/discoveryd/r_dhtdata.cc`) and
the callbacks that read it (`src/discoveryd/r_msghandler.cc`).

With security on, a value of the hash table carries encrypted data and a
signature of the data; each of the four callbacks decrypts the values it is
given and skips those whose signature does not verify.  What a callback pushes
to `DHT_RESULT_CHANNEL` is then a function of the data that verified:

* `messages_eq` — every read path first reads the values and then makes its
  messages from what it has read;
* `filterMap_read_eq` — what is read depends on the values that verify, and not on
  `raw_data`;
* `unverified_inert` — so values that do not verify have no effect, and what is
  put is read back.

The crypto library is a parameter, with its random draws as an argument of what
uses them.
-/
import RiapsCore.DiscoveryLoop
import Mathlib.Data.UInt

open StdString

namespace Riaps

/-- A `dht::crypto::PrivateKey` with its public key. -/
structure PrivateKey where
  /-- `sign(data)`. -/
  sign : ℕ → Blob → Blob
  /-- `getPublicKey().encrypt(data)`. -/
  encrypt : ℕ → Blob → Blob
  /-- `decrypt(cipher)`, which may throw a `CryptoException`. -/
  decrypt : Blob → Option Blob
  /-- `getPublicKey().checkSignature(data, signature)`. -/
  checkSignature : Blob → Blob → Bool

/-- Decryption undoes encryption, and a signature verifies. -/
structure PrivateKey.Lawful (key : PrivateKey) : Prop where
  decrypt_encrypt : ∀ draw data, key.decrypt (key.encrypt draw data) = some data
  checkSignature_sign : ∀ draw data, key.checkSignature data (key.sign draw data) = true

/-- What the callbacks use of the libraries they call. -/
structure Codec where
  /-- The `Text` that Cap'n Proto makes of a `std::string`. -/
  text : String → String
  /-- `dht::unpackMsg<GroupDetails>(blob)`, which may throw. -/
  unpackMsg : Blob → Option GroupDetails

structure DhtData where
  rawData : Blob := []
  encryptedData : Blob := []
  signature : Blob := []
deriving DecidableEq

namespace DhtData

/-- `EncryptData(data, private_key)`. -/
def encryptData (v : DhtData) (key : PrivateKey) (draw : ℕ) (data : Blob) : DhtData :=
  { v with signature := key.sign draw data, encryptedData := key.encrypt draw data }

/-- `DecryptData(private_key)`: the value with its data, or `none` when the
function returns `false`. -/
def decryptData (v : DhtData) (key : PrivateKey) : Option DhtData :=
  match key.decrypt v.encryptedData with
  | none => none
  | some data =>
    if key.checkSignature data v.signature then some { v with rawData := data } else none

/-- The value that `DhtPut(keyhash, data)` puts; without a key, security is
off. -/
def dhtPut (key : Option PrivateKey) (draw : ℕ) (data : Blob) : DhtData :=
  match key with
  | none => { rawData := data }
  | some key => encryptData {} key draw data

/-- The check with which a callback starts on a value, and the data it goes on
with. -/
def read (key : Option PrivateKey) (v : DhtData) : Option Blob :=
  match key with
  | none => some v.rawData
  | some key => (v.decryptData key).map DhtData.rawData

end DhtData

/-! ### The callbacks -/

/-- `HandleZombieUpdate(values)`. -/
def handleZombieUpdate (key : Option PrivateKey) (values : List DhtData) : List DhtUpdate :=
  let dhtResults := values.filterMap fun v => (v.read key).map ofBlob
  if dhtResults = [] then [] else [.zombieList (dhtResults.map cStr)]

/-- The listen callback of `HandleServiceLookup`: after each value it pushes the
results so far. -/
def listenCallback (codec : Codec) (key : Option PrivateKey) (lookupKey : String)
    (updateResults : List String) : List DhtData → List DhtUpdate
  | [] => []
  | v :: values =>
    match v.read key with
    | none => listenCallback codec key lookupKey updateResults values
    | some data =>
      let updateResults := updateResults ++ [ofBlob data]
      .providerUpdate ⟨codec.text lookupKey, updateResults.map cStr⟩
        :: listenCallback codec key lookupKey updateResults values

/-- The get callback of `DhtGet` on one value. -/
def getCallback (codec : Codec) (key : Option PrivateKey) (client : ClientDetails) (v : DhtData) :
    Option DhtUpdate :=
  match v.read key with
  | none => none
  | some data =>
    some (.providerGet {
      appName := codec.text client.appName
      scope := if client.isLocal then .local else .global
      client := {
        actorHost := codec.text client.actorHost
        actorName := codec.text client.actorName
        instanceName := codec.text client.instanceName
        portName := codec.text client.portName }
      results := [codec.text (ofBlob data)] })

/-- The message of `PushDhtValuesToDisco` for one group. -/
def groupUpdateOf (codec : Codec) (v : GroupDetails) : GroupUpdate where
  appName := codec.text v.appName
  groupId := ⟨codec.text v.groupId.groupTypeId, codec.text v.groupId.groupName⟩
  componentId := codec.text v.componentId
  services := v.groupServices.map fun s => ⟨codec.text s.messageType, codec.text s.address⟩

/-- `PushDhtValuesToDisco(values)`; data that is no `GroupDetails` ends the
loop. -/
def pushDhtValuesToDisco (codec : Codec) (key : Option PrivateKey) :
    List DhtData → List DhtUpdate
  | [] => []
  | v :: values =>
    match v.read key with
    | none => pushDhtValuesToDisco codec key values
    | some data =>
      match codec.unpackMsg data with
      | none => []
      | some details =>
        .groupUpdate (groupUpdateOf codec details) :: pushDhtValuesToDisco codec key values

/-- The read paths, with what their callbacks have captured. -/
inductive ReadPath where
  | zombieUpdate
  | listen (lookupKey : String)
  | get (client : ClientDetails)
  | groups

/-- What a read path pushes to `DHT_RESULT_CHANNEL` for the values it is
given. -/
def ReadPath.messages (codec : Codec) (key : Option PrivateKey) (values : List DhtData) :
    ReadPath → List DhtUpdate
  | .zombieUpdate => handleZombieUpdate key values
  | .listen lookupKey => listenCallback codec key lookupKey [] values
  | .get client => values.filterMap (getCallback codec key client)
  | .groups => pushDhtValuesToDisco codec key values

namespace DhtData

variable {codec : Codec} {key : PrivateKey}

/-- The encrypted data decrypts to data that the signature is valid for. -/
def Verifies (key : PrivateKey) (v : DhtData) : Bool :=
  (key.decrypt v.encryptedData).any fun data => key.checkSignature data v.signature

/-- The values that verify, without their `raw_data`. -/
def verified (key : PrivateKey) (values : List DhtData) : List (Blob × Blob) :=
  (values.filter (Verifies key)).map fun v => (v.encryptedData, v.signature)

/-! ### Reading -/

/-- What is read, in terms of the two fields it is read from. -/
theorem read_some (key : PrivateKey) (v : DhtData) :
    v.read (some key) = (key.decrypt v.encryptedData).bind fun data =>
      if key.checkSignature data v.signature then some data else none := by
  rw [read, decryptData]
  rcases key.decrypt v.encryptedData with _ | data
  · rfl
  · rw [Option.bind_some]
    dsimp only
    split <;> rfl

/-- A value that does not verify is not read. -/
theorem read_eq_none_iff (key : PrivateKey) (v : DhtData) :
    v.read (some key) = none ↔ Verifies key v = false := by
  rw [read_some, Verifies]
  rcases key.decrypt v.encryptedData with _ | data
  · simp
  · rw [Option.bind_some, Option.any_some]
    split <;> simp_all

/-- The values that verify determine what is read. -/
theorem filterMap_read_eq (key : PrivateKey) (values : List DhtData) :
    values.filterMap (read (some key))
      = (verified key values).filterMap fun p => read (some key) ⟨[], p.1, p.2⟩ := by
  have hfields : ∀ v : DhtData,
      read (some key) v = read (some key) ⟨[], v.encryptedData, v.signature⟩ := by
    intro v
    rw [read_some, read_some]
  induction values with
  | nil => rfl
  | cons v values ih =>
    rcases hv : Verifies key v with _ | _
    · rw [List.filterMap_cons_none ((read_eq_none_iff key v).mpr hv), ih, verified, verified,
        List.filter_cons_of_neg (by simp [hv])]
    · rw [verified, List.filter_cons_of_pos hv, List.map_cons, List.filterMap_cons,
        List.filterMap_cons, ← hfields, ih, verified]

/-- What was put with the key is read back. -/
theorem read_dhtPut (hkey : key.Lawful) (draw : ℕ) (data : Blob) :
    (dhtPut (some key) draw data).read (some key) = some data := by
  rw [read_some, dhtPut, encryptData]
  dsimp only
  rw [hkey.decrypt_encrypt, Option.bind_some, hkey.checkSignature_sign, if_pos rfl]

/-! ### The read paths -/

theorem read_dhtPut_none (data : Blob) : (dhtPut none 0 data).read none = some data := rfl

/-- The listen callback works on what it has read. -/
theorem listenCallback_eq (key : Option PrivateKey) (lookupKey : String) (results : List String)
    (values : List DhtData) :
    listenCallback codec key lookupKey results values
      = listenCallback codec none lookupKey results
          ((values.filterMap (read key)).map (dhtPut none 0)) := by
  induction values generalizing results with
  | nil => rfl
  | cons v values ih =>
    rw [listenCallback]
    rcases hv : v.read key with _ | data
    · rw [List.filterMap_cons_none hv]
      exact ih results
    · rw [List.filterMap_cons_some hv, List.map_cons, listenCallback, read_dhtPut_none]
      dsimp only
      rw [ih]

theorem pushDhtValuesToDisco_eq (key : Option PrivateKey) (values : List DhtData) :
    pushDhtValuesToDisco codec key values
      = pushDhtValuesToDisco codec none ((values.filterMap (read key)).map (dhtPut none 0)) := by
  induction values with
  | nil => rfl
  | cons v values ih =>
    rw [pushDhtValuesToDisco]
    rcases hv : v.read key with _ | data
    · rw [List.filterMap_cons_none hv]
      exact ih
    · rw [List.filterMap_cons_some hv, List.map_cons, pushDhtValuesToDisco, read_dhtPut_none]
      dsimp only
      rw [ih]

/-- **Every read path checks first**: it pushes what it would push without
security for the data that was read. -/
theorem messages_eq (codec : Codec) (key : Option PrivateKey) (values : List DhtData)
    (p : ReadPath) :
    p.messages codec key values
      = p.messages codec none ((values.filterMap (read key)).map (dhtPut none 0)) := by
  cases p with
  | zombieUpdate =>
    have hresults : ∀ (k : Option PrivateKey) (vs : List DhtData),
        (vs.filterMap fun v => (v.read k).map ofBlob) = (vs.filterMap (read k)).map ofBlob := by
      intro k vs
      rw [List.map_filterMap]
    have hread : ∀ ds : List Blob, (ds.map (dhtPut none 0)).filterMap (read none) = ds := by
      intro ds
      rw [List.filterMap_map]
      exact List.filterMap_some
    simp only [ReadPath.messages, handleZombieUpdate, hresults, hread]
  | listen lookupKey => exact listenCallback_eq key lookupKey [] values
  | get client =>
    simp only [ReadPath.messages]
    rw [List.filterMap_map, List.filterMap_filterMap]
    refine congrArg (fun f => values.filterMap f) (funext fun v => ?_)
    rw [getCallback]
    rcases v.read key with _ | data
    · rfl
    · rw [Option.bind_some, Function.comp_apply, getCallback, read_dhtPut_none]
  | groups => exact pushDhtValuesToDisco_eq key values

/-- **Unverified data has no effect.**  On every read path, two deliveries with
the same values that verify push the same messages, whatever the other values and
the `raw_data` fields are; and with a lawful key, a value that was put is read
back as the data it was put for. -/
theorem unverified_inert (codec : Codec) (key : PrivateKey) (hkey : key.Lawful) :
    (∀ (p : ReadPath) (values values' : List DhtData),
      verified key values = verified key values' →
      p.messages codec (some key) values = p.messages codec (some key) values') ∧
    ∀ draw data, (dhtPut (some key) draw data).read (some key) = some data := by
  refine ⟨fun p values values' h => ?_, read_dhtPut hkey⟩
  rw [messages_eq, filterMap_read_eq, h, ← filterMap_read_eq, ← messages_eq]

/-! ### A toy key -/

/-- Encryption marks and reverses the data; the signature is a checksum. -/
def toyKey : PrivateKey where
  sign _ data := [data.sum]
  encrypt draw data := UInt8.ofNat draw :: 42 :: data.reverse
  decrypt
    | _ :: 42 :: cipher => some cipher.reverse
    | _ => none
  checkSignature data signature := signature = [data.sum]

theorem toyKey_lawful : toyKey.Lawful where
  decrypt_encrypt draw data := by simp [toyKey]
  checkSignature_sign draw data := by simp [toyKey]

/-- A forged value and other `raw_data` do not change the zombie list. -/
theorem unverified_inert_forged :
    ReadPath.messages ⟨id, fun _ => none⟩ (some toyKey)
        [⟨[65], [1, 42, 66], [66]⟩, ⟨[67], [1, 42, 66], [68]⟩] .zombieUpdate
      = ReadPath.messages ⟨id, fun _ => none⟩ (some toyKey) [⟨[], [1, 42, 66], [66]⟩]
        .zombieUpdate ∧
    (dhtPut (some toyKey) 5 [1, 2]).read (some toyKey) = some [1, 2] := by
  obtain ⟨hinert, hread⟩ := unverified_inert ⟨id, fun _ => none⟩ toyKey toyKey_lawful
  exact ⟨hinert .zombieUpdate _ _ (by decide), hread 5 [1, 2]⟩

end DhtData

end Riaps
