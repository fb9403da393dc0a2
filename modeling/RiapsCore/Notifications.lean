/-
What a notification of the hash table is forwarded as.

The listen callback of `HandleServiceLookup` collects the accepted values in
`update_results`, which is declared outside of the loop, and pushes a message
with all of them inside of it.  So there is one message for each non-empty prefix
of the accepted values:

* `listenCallback_eq_inits` — the messages;
* `forwarded_eq` — the values that they carry together;
* `forwarded_once_iff` — these are the accepted values, once each, iff there is at
  most one.
-/
import RiapsCore.DhtData
import Mathlib.Data.List.Infix

open StdString

namespace Riaps

/-- The values that a callback accepts: all, or with security those that decrypt
and verify. -/
def accepted (key : Option PrivateKey) (values : List DhtData) : List String :=
  (values.filterMap (DhtData.read key)).map ofBlob

/-- `newvalues` of a `ProviderListUpdate`. -/
def DhtUpdate.newvalues : DhtUpdate → List String
  | .providerUpdate u => u.newvalues
  | _ => []

/-- The values that the messages of the listen callback carry, in order. -/
def forwarded (codec : Codec) (key : Option PrivateKey) (lookupKey : String)
    (values : List DhtData) : List String :=
  (listenCallback codec key lookupKey [] values).flatMap DhtUpdate.newvalues

theorem inits_eq_cons (l : List String) : l.inits = [] :: l.inits.tail := by
  rcases l with _ | ⟨x, l⟩
  · rfl
  · rw [List.inits_cons, List.tail_cons]

/-- **One message for each non-empty prefix.** -/
theorem listenCallback_eq_inits (codec : Codec) (key : Option PrivateKey) (lookupKey : String)
    (results : List String) (values : List DhtData) :
    listenCallback codec key lookupKey results values
      = (accepted key values).inits.tail.map fun more =>
          .providerUpdate ⟨codec.text lookupKey, (results ++ more).map cStr⟩ := by
  -- the accumulator is what is already there before the prefix
  induction values generalizing results with
  | nil => rfl
  | cons v values ih =>
    rw [listenCallback, accepted]
    rcases hv : v.read key with _ | data
    · rw [List.filterMap_cons_none hv]
      exact ih results
    · rw [List.filterMap_cons_some hv, List.map_cons, List.inits_cons, List.tail_cons,
        List.map_map]
      dsimp only
      rw [ih, ← accepted]
      rw [inits_eq_cons (accepted key values), List.map_cons, List.tail_cons,
        Function.comp_apply]
      refine congrArg₂ _ rfl (List.map_congr_left fun more _ => ?_)
      rw [Function.comp_apply, List.append_assoc, List.singleton_append]

theorem forwarded_eq (codec : Codec) (key : Option PrivateKey) (lookupKey : String)
    (values : List DhtData) :
    forwarded codec key lookupKey values = (accepted key values).inits.flatten.map cStr := by
  rw [forwarded, listenCallback_eq_inits, inits_eq_cons, List.tail_cons, List.flatten_cons,
    List.nil_append, List.flatMap_map, List.map_flatten, ← List.flatMap_def]
  rfl

/-- Two values or more are in a prefix that is not the whole. -/
theorem length_lt_inits_flatten (x y : String) (rest : List String) :
    (x :: y :: rest).length < (x :: y :: rest).inits.flatten.length := by
  rw [List.inits_cons, List.inits_cons, List.map_cons, List.flatten_cons, List.flatten_cons,
    List.nil_append, List.map_map, List.length_append, List.length_singleton]
  have hwhole : (x :: y :: rest).Sublist
      (rest.inits.map ((fun t => x :: t) ∘ fun t => y :: t)).flatten :=
    List.sublist_flatten_of_mem (List.mem_map.mpr ⟨rest, by simp, rfl⟩)
  have hle := hwhole.length_le
  omega

theorem cStr_eq_self_iff {s : String} : cStr s = s ↔ '\x00' ∉ s.toList :=
  ⟨fun h => h ▸ notMem_cStr s, cStr_of_notMem⟩

/-- **When a notification is forwarded once.**  The messages of the listen
callback carry together the accepted values, each as often as it was given and in
order, iff there is at most one and it has no NUL. -/
theorem forwarded_once_iff (codec : Codec) (key : Option PrivateKey) (lookupKey : String)
    (values : List DhtData) :
    forwarded codec key lookupKey values = accepted key values ↔
      (accepted key values).length ≤ 1 ∧ ∀ v ∈ accepted key values, '\x00' ∉ v.toList := by
  rw [forwarded_eq]
  rcases accepted key values with _ | ⟨x, _ | ⟨y, rest⟩⟩
  · simp
  · simp [cStr_eq_self_iff]
  · constructor
    · intro h
      have hlen := congrArg List.length h
      rw [List.length_map] at hlen
      exact absurd hlen (length_lt_inits_flatten x y rest).ne'
    · rintro ⟨hlen, -⟩
      simp at hlen

/-- Two providers, of which the first is forwarded twice. -/
theorem two_values_forwarded_thrice :
    let values : List DhtData :=
      [⟨toBlob "10.0.0.2:5555", [], []⟩, ⟨toBlob "10.0.0.3:5555", [], []⟩]
    forwarded ⟨cStr, fun _ => none⟩ none "/app/Msg/rep" values
      = ["10.0.0.2:5555", "10.0.0.2:5555", "10.0.0.3:5555"] ∧
    forwarded ⟨cStr, fun _ => none⟩ none "/app/Msg/rep" values ≠ accepted none values := by
  decide

end Riaps
