/-
Where group joins are stored and where they are looked for.

`HandleGroupJoin` stores the details of a group through
`DhtPut(const string&, …)`, whose id is the hash `InfoHash::get(key)`; it reads,
and `HandleActorReg` listens, under `InfoHash(key)`, which takes the key for 40
hexadecimal digits.

* `meets_iff` — what this asks of the two functions, for an application;
* `never_meets` — the constructor gives one id to many application names, so
  that no application meets it.
-/
import RiapsCore.Discovery

namespace Riaps

variable {H : Type*}

/-- What OpenDHT's constructor does with a string: fewer than 40 characters give
the id `zero`, and of a longer one the first 40 are read. -/
structure ParsesHex (dht : OpenDht H) (zero : H) : Prop where
  short : ∀ s : String, s.length < 40 → dht.ofString s = zero
  digits : ∀ s t : String, 40 ≤ s.length → 40 ≤ t.length →
    s.toList.take 40 = t.toList.take 40 → dht.ofString s = dht.ofString t

namespace Outgoing

/-- The id under which group details are stored. -/
def storedKey : Outgoing H → Option H
  | .put key (.group _) => some key
  | _ => none

/-- The id that is read. -/
def readKey : Outgoing H → Option H
  | .get key => some key
  | _ => none

/-- The id that is listened on. -/
def listenedKey : Outgoing H → Option H
  | .listen key => some key
  | _ => none

end Outgoing

namespace DiscoveryMessageHandler

/-- The joins of the application are stored where they are read and listened
for, and are not listened for by another application. -/
structure Meets (dht : OpenDht H) (appName : String) : Prop where
  read : ∀ (d : DiscoveryMessageHandler H) (join : GroupJoinReq), join.appName = appName →
    ∀ k ∈ (d.handleGroupJoin dht join).2.filterMap Outgoing.storedKey,
    ∀ k' ∈ (d.handleGroupJoin dht join).2.filterMap Outgoing.readKey, k = k'
  listened : ∀ (d d' : DiscoveryMessageHandler H) (join : GroupJoinReq) (reg : ActorReq)
    (answers : ActorRegAnswers), join.appName = appName → reg.appName = appName →
    ∀ k ∈ (d.handleGroupJoin dht join).2.filterMap Outgoing.storedKey,
    ∀ k' ∈ (d'.handleActorReg dht reg answers).2.filterMap Outgoing.listenedKey, k = k'
  apart : ∀ (d d' : DiscoveryMessageHandler H) (reg reg' : ActorReq)
    (answers answers' : ActorRegAnswers), reg.appName = appName → reg'.appName ≠ appName →
    ∀ k ∈ (d.handleActorReg dht reg answers).2.filterMap Outgoing.listenedKey,
    ∀ k' ∈ (d'.handleActorReg dht reg' answers').2.filterMap Outgoing.listenedKey, k ≠ k'

variable {dht : OpenDht H} {zero : H}

theorem storedKeys_handleGroupJoin (d : DiscoveryMessageHandler H) (join : GroupJoinReq) :
    (d.handleGroupJoin dht join).2.filterMap Outgoing.storedKey
      = [dht.get (groupsKey join.appName)] := rfl

theorem readKeys_handleGroupJoin (d : DiscoveryMessageHandler H) (join : GroupJoinReq) :
    (d.handleGroupJoin dht join).2.filterMap Outgoing.readKey
      = [dht.ofString (groupsKey join.appName)] := rfl

/-- The first actor of an application on a node listens. -/
theorem listenedKeys_first (reg : ActorReq) (answers : ActorRegAnswers) :
    ((init "" "").handleActorReg dht reg answers).2.filterMap Outgoing.listenedKey
      = [dht.ofString (groupsKey reg.appName)] := rfl

theorem listenedKeys_registerActor (d : DiscoveryMessageHandler H) (reg : ActorReq)
    (answers : ActorRegAnswers) :
    ∀ k ∈ (d.registerActor dht reg answers).2.filterMap Outgoing.listenedKey,
      k = dht.ofString (groupsKey reg.appName) := by
  intro k hk
  rw [registerActor] at hk
  by_cases hl : reg.appName ∉ d.groupListeners
  · simpa [hl, Outgoing.listenedKey] using hk
  · simp [hl, Outgoing.listenedKey] at hk

/-- Whatever is listened on is made from the name of the application. -/
theorem listenedKeys_handleActorReg (d : DiscoveryMessageHandler H) (reg : ActorReq)
    (answers : ActorRegAnswers) :
    ∀ k ∈ (d.handleActorReg dht reg answers).2.filterMap Outgoing.listenedKey,
      k = dht.ofString (groupsKey reg.appName) := by
  rw [handleActorReg]
  split
  · exact listenedKeys_registerActor d reg answers
  · split
    · intro k hk
      simp [Outgoing.listenedKey] at hk
    · exact listenedKeys_registerActor _ reg answers

/-- The property in terms of the two functions of OpenDHT. -/
theorem meets_iff (dht : OpenDht H) (appName : String) :
    Meets dht appName ↔
      dht.get (groupsKey appName) = dht.ofString (groupsKey appName) ∧
        ∀ other, other ≠ appName →
          dht.ofString (groupsKey appName) ≠ dht.ofString (groupsKey other) := by
  constructor
  · intro h
    constructor
    · exact h.read (init "" "") ⟨appName, ⟨"", ""⟩, [], "", 0⟩ rfl _ (List.mem_singleton.mpr rfl)
        _ (List.mem_singleton.mpr rfl)
    · intro other hother
      refine h.apart (init "" "") (init "" "") ⟨appName, "", 0⟩ ⟨other, "", 0⟩
        ⟨fun _ => false, 0, 0⟩ ⟨fun _ => false, 0, 0⟩ rfl hother _ ?_ _ ?_
      · rw [listenedKeys_first]
        exact List.mem_singleton.mpr rfl
      · rw [listenedKeys_first]
        exact List.mem_singleton.mpr rfl
  · rintro ⟨hsame, hapart⟩
    refine ⟨?_, ?_, ?_⟩
    · intro d join happ k hk k' hk'
      rw [storedKeys_handleGroupJoin, List.mem_singleton] at hk
      rw [readKeys_handleGroupJoin, List.mem_singleton] at hk'
      rw [hk, hk', happ, hsame]
    · intro d d' join reg answers happ happ' k hk k' hk'
      rw [storedKeys_handleGroupJoin, List.mem_singleton] at hk
      rw [hk, listenedKeys_handleActorReg d' reg answers k' hk', happ, happ', hsame]
    · intro d d' reg reg' answers answers' happ hother k hk k' hk'
      rw [listenedKeys_handleActorReg d reg answers k hk,
        listenedKeys_handleActorReg d' reg' answers' k' hk', happ]
      exact hapart reg'.appName hother

/-- Some other application has the same id for its groups. -/
theorem exists_same_key (h : ParsesHex dht zero) (appName : String) :
    ∃ other, other ≠ appName ∧
      dht.ofString (groupsKey appName) = dht.ofString (groupsKey other) := by
  by_cases hlen : (groupsKey appName).length < 40
  · -- all short names have the id `zero`
    have hshort : ∀ other : String, other.length = 1 → dht.ofString (groupsKey other) = zero := by
      intro other hone
      refine h.short _ ?_
      rw [groupsKey, String.length_append, hone]
      decide
    rw [h.short _ hlen]
    by_cases hname : appName = "a"
    · exact ⟨"b", by rw [hname]; decide, (hshort "b" rfl).symm⟩
    · exact ⟨"a", Ne.symm hname, (hshort "a" rfl).symm⟩
  · -- what follows the first 40 characters is not read
    have hlong : 40 ≤ (groupsKey appName).length := by omega
    have hkey : (groupsKey (appName ++ "x")).toList = (groupsKey appName).toList ++ ['x'] := by
      simp [groupsKey]
    refine ⟨appName ++ "x", ?_, h.digits _ _ hlong ?_ ?_⟩
    · intro heq
      have hlen' := congrArg String.length heq
      rw [String.length_append] at hlen'
      have hone : "x".length = 1 := rfl
      omega
    · rw [← String.length_toList, hkey, List.length_append, String.length_toList]
      omega
    · rw [hkey, List.take_append_of_le_length]
      rwa [String.length_toList]

/-- **No application meets its own joins** where it listens for them alone. -/
theorem never_meets (h : ParsesHex dht zero) (appName : String) : ¬ Meets dht appName := by
  intro hmeets
  obtain ⟨other, hother, hkey⟩ := exists_same_key h appName
  exact ((meets_iff dht appName).mp hmeets).2 other hother hkey

/-! ### The ids of one application -/

/-- The value of a hexadecimal digit. -/
def hexDigit (c : Char) : Option ℕ :=
  ("0123456789abcdef".toList.idxOf? c.toLower)

/-- What `sscanf` with `%02x` reads from two characters into a zero. -/
def hexByte (a b : Char) : ℕ :=
  match hexDigit a, hexDigit b with
  | none, _ => 0
  | some x, none => x
  | some x, some y => 16 * x + y

def parseHex (id : ℕ) : List Char → ℕ
  | a :: b :: rest => parseHex (256 * id + hexByte a b) rest
  | _ => id

/-- The ids as numbers of 160 bits, with the SHA-1 digest of `/groups/app`. -/
def infoHash : OpenDht ℕ where
  get s := if s = "/groups/app" then 0xf5b6ba95396776622cd3ec25f4fbe4877bf52c28 else 0
  ofString s := if s.length < 40 then 0 else parseHex 0 (s.toList.take 40)

theorem infoHash_parsesHex : ParsesHex infoHash 0 where
  short s hs := if_pos hs
  digits s t hs ht heq := by
    show (if s.length < 40 then _ else _) = if t.length < 40 then _ else _
    rw [if_neg (by omega), if_neg (by omega), heq]

theorem never_meets_app : ParsesHex infoHash 0 ∧ ¬ Meets infoHash "app" :=
  ⟨infoHash_parsesHex, never_meets infoHash_parsesHex "app"⟩

/-- The joins of `app` are stored under a digest, and listened for under the
id zero. -/
theorem stored_apart_from_listened : ¬ Meets infoHash "app" := by
  intro hmeets
  have hsame := ((meets_iff infoHash "app").mp hmeets).1
  revert hsame
  decide

end DiscoveryMessageHandler

end Riaps
