/-
The keys under which providers and clients meet.

`BuildInsertKeyValuePair` writes the kind of the provider, `BuildLookupKey` the
kind of its counterpart, and both append the MAC address to a local key without
a separator.  The names have no `/` and every kind has three letters, so the
parts can be read off the key again:

* `key_inj` — two keys of this form are equal iff their parts are;
* `keys_meet_iff` — a provider is found by exactly the clients it is meant for.
-/
import RiapsCore.Discovery
import RiapsCore.Separators

namespace Riaps

namespace Kind

/-- The kinds that are registered as services. -/
def IsProvider (k : Kind) : Prop := k = .pub ∨ k = .srv ∨ k = .rep ∨ k = .ans

/-- The kinds that look services up. -/
def IsClient (k : Kind) : Prop := k = .sub ∨ k = .clt ∨ k = .req ∨ k = .qry

/-- The provider that a kind of client talks to. -/
def Counterpart : Kind → Kind → Prop
  | .pub, .sub | .srv, .clt | .rep, .req | .ans, .qry => True
  | _, _ => False

end Kind

namespace DiscoveryMessageHandler

/-- A text without the separator of the keys. -/
def NoSlash (s : String) : Prop := '/' ∉ s.toList

instance (s : String) : Decidable (NoSlash s) := inferInstanceAs (Decidable (¬ _))

/-- The last part of a key: the kind and, in the local scope, the address of the
node. -/
def keyTail (kind : String) (scope : Scope) (mac : String) : String :=
  if scope = .local then kind ++ mac else kind

variable {H : Type*} {d d' : DiscoveryMessageHandler H}

theorem buildInsertKeyValuePair_key (d : DiscoveryMessageHandler H) (p : Path) (host : String)
    (port : Int32) (key : String) :
    (∃ value, d.buildInsertKeyValuePair p host port = some (key, value)) ↔
      ∃ kind, kindMap p.kind = some kind ∧ key = "/" ++ p.appName ++ "/" ++ p.msgType ++ "/"
        ++ keyTail kind p.scope d.macAddress := by
  rw [buildInsertKeyValuePair]
  rcases kindMap p.kind with _ | kind
  · simp
  · by_cases hs : p.scope = .local
    · simp [keyTail, hs, String.append_assoc, eq_comm]
    · simp [keyTail, hs, String.append_assoc, eq_comm]

theorem buildLookupKey_key (d : DiscoveryMessageHandler H) (p : Path) (key : String) :
    d.buildLookupKey p = some key ↔
      ∃ kind, kindPairs p.kind = some kind ∧ key = "/" ++ p.appName ++ "/" ++ p.msgType ++ "/"
        ++ keyTail kind p.scope d.macAddress := by
  rw [buildLookupKey]
  rcases kindPairs p.kind with _ | kind
  · simp
  · by_cases hs : p.scope = .local
    · simp [keyTail, hs, String.append_assoc, eq_comm]
    · simp [keyTail, hs, String.append_assoc, eq_comm]

/-- Two keys are equal iff their three parts are. -/
theorem key_inj {app app' type type' tail tail' : String} (happ : NoSlash app)
    (happ' : NoSlash app') (htype : NoSlash type) (htype' : NoSlash type') :
    "/" ++ app ++ "/" ++ type ++ "/" ++ tail = "/" ++ app' ++ "/" ++ type' ++ "/" ++ tail' ↔
      app = app' ∧ type = type' ∧ tail = tail' := by
  have hlist : ∀ x y z : String, ("/" ++ x ++ "/" ++ y ++ "/" ++ z).toList
      = '/' :: (x.toList ++ '/' :: (y.toList ++ '/' :: z.toList)) := by
    intro x y z
    simp
  rw [← String.toList_inj, hlist, hlist, List.cons_inj_right,
    Separators.append_sep_inj happ happ', Separators.append_sep_inj htype htype',
    String.toList_inj, String.toList_inj, String.toList_inj]

/-- The kind has a fixed length, so that the address appended to it does not
blur it. -/
theorem keyTail_inj {kind kind' mac mac' : String} {scope scope' : Scope}
    (hkind : kind.length = 3) (hkind' : kind'.length = 3) (hmac : mac ≠ "") (hmac' : mac' ≠ "") :
    keyTail kind scope mac = keyTail kind' scope' mac' ↔ kind = kind' ∧
      (scope ≠ .local ∧ scope' ≠ .local ∨ scope = .local ∧ scope' = .local ∧ mac = mac') := by
  have hlen : ∀ {m : String}, m ≠ "" → 0 < m.length := by
    intro m hm
    rw [Nat.pos_iff_ne_zero, ne_eq, String.length_eq_zero_iff]
    exact hm
  have hpos := hlen hmac
  have hpos' := hlen hmac'
  rw [keyTail, keyTail]
  by_cases hs : scope = .local <;> by_cases hs' : scope' = .local
  · -- both addresses are appended to three letters
    rw [if_pos hs, if_pos hs', ← String.toList_inj, String.toList_append, String.toList_append]
    have hsame : kind.toList.length = kind'.toList.length := by
      rw [String.length_toList, String.length_toList, hkind, hkind']
    constructor
    · intro h
      obtain ⟨hk, hm⟩ := List.append_inj h hsame
      exact ⟨String.toList_inj.mp hk, .inr ⟨hs, hs', String.toList_inj.mp hm⟩⟩
    · rintro ⟨rfl, ⟨hne, -⟩ | ⟨-, -, rfl⟩⟩
      · exact absurd hs hne
      · rfl
  · rw [if_pos hs, if_neg hs']
    refine iff_of_false (fun h => ?_) (by simp [hs, hs'])
    have h' := congrArg String.length h
    rw [String.length_append] at h'
    omega
  · rw [if_neg hs, if_pos hs']
    refine iff_of_false (fun h => ?_) (by simp [hs, hs'])
    have h' := congrArg String.length h
    rw [String.length_append] at h'
    omega
  · rw [if_neg hs, if_neg hs']
    simp [hs, hs']

/-! ### Providers and clients -/

theorem kindMap_provider {k : Kind} (hk : k.IsProvider) :
    ∃ kind, kindMap k = some kind ∧ kind.length = 3 := by
  rcases hk with rfl | rfl | rfl | rfl
  · exact ⟨"pub", rfl, rfl⟩
  · exact ⟨"srv", rfl, rfl⟩
  · exact ⟨"rep", rfl, rfl⟩
  · exact ⟨"ans", rfl, rfl⟩

theorem kindPairs_client {k : Kind} (hk : k.IsClient) :
    ∃ kind, kindPairs k = some kind ∧ kind.length = 3 := by
  rcases hk with rfl | rfl | rfl | rfl
  · exact ⟨"pub", rfl, rfl⟩
  · exact ⟨"srv", rfl, rfl⟩
  · exact ⟨"rep", rfl, rfl⟩
  · exact ⟨"ans", rfl, rfl⟩

/-- The two tables of kinds agree exactly on counterparts. -/
theorem kindMap_eq_kindPairs_iff {p c : Kind} (hp : p.IsProvider) (hc : c.IsClient) :
    kindMap p = kindPairs c ↔ p.Counterpart c := by
  rcases hp with rfl | rfl | rfl | rfl <;> rcases hc with rfl | rfl | rfl | rfl <;>
    simp [kindMap, kindPairs, Kind.Counterpart]

/-- **Providers and clients meet under the same key exactly when they should.**
For names without `/` and nodes with an address, the key of a provider is the
lookup key of a client iff application, message type and kind match and both
are in the same scope, for the local one on nodes with the same address. -/
theorem keys_meet_iff (d d' : DiscoveryMessageHandler H) {p c : Path} (host : String)
    (port : Int32) (hp : p.kind.IsProvider) (hc : c.kind.IsClient) (happ : NoSlash p.appName)
    (happ' : NoSlash c.appName) (htype : NoSlash p.msgType) (htype' : NoSlash c.msgType)
    (hmac : d.macAddress ≠ "") (hmac' : d'.macAddress ≠ "") :
    (∃ key value, d.buildInsertKeyValuePair p host port = some (key, value) ∧
      d'.buildLookupKey c = some key) ↔
    p.appName = c.appName ∧ p.msgType = c.msgType ∧ p.kind.Counterpart c.kind ∧
      (p.scope ≠ .local ∧ c.scope ≠ .local ∨
        p.scope = .local ∧ c.scope = .local ∧ d.macAddress = d'.macAddress) := by
  obtain ⟨kind, hkind, hlen⟩ := kindMap_provider hp
  obtain ⟨kind', hkind', hlen'⟩ := kindPairs_client hc
  have hinsert : ∀ key, (∃ value, d.buildInsertKeyValuePair p host port = some (key, value)) ↔
      key = "/" ++ p.appName ++ "/" ++ p.msgType ++ "/" ++ keyTail kind p.scope d.macAddress := by
    intro key
    rw [buildInsertKeyValuePair_key, hkind]
    simp
  have hlookup : ∀ key, d'.buildLookupKey c = some key ↔
      key = "/" ++ c.appName ++ "/" ++ c.msgType ++ "/"
        ++ keyTail kind' c.scope d'.macAddress := by
    intro key
    rw [buildLookupKey_key, hkind']
    simp
  have hkinds : kind = kind' ↔ p.kind.Counterpart c.kind := by
    rw [← kindMap_eq_kindPairs_iff hp hc, hkind, hkind', Option.some_inj]
  simp only [hlookup, exists_and_right, hinsert, exists_eq_left, ← hkinds]
  rw [key_inj happ happ' htype htype', keyTail_inj hlen hlen' hmac hmac']

/-- A publisher and a subscriber of the same type on one node, both local. -/
theorem keys_meet_iff_local :
    ∃ key value,
      (init "mac" "h" : DiscoveryMessageHandler String).buildInsertKeyValuePair
        ⟨"app", "Msg", .pub, .local⟩ "127.0.0.1" 5555 = some (key, value) ∧
      (init "mac" "h" : DiscoveryMessageHandler String).buildLookupKey
        ⟨"app", "Msg", .sub, .local⟩ = some key :=
  (keys_meet_iff (init "mac" "h") (init "mac" "h") "127.0.0.1" 5555 (.inl rfl) (.inl rfl)
    (by decide) (by decide) (by decide) (by decide) (by decide) (by decide)).mpr
    ⟨rfl, rfl, trivial, .inr ⟨rfl, rfl, rfl⟩⟩

end DiscoveryMessageHandler

end Riaps
