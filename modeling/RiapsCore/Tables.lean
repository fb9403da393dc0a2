/-
Tables with unique keys, and dropping entries from them.

`Table K V` is Mathlib's association list with the proof that its keys are
distinct.  `retain p` keeps the entries that pass `p`, which is what a loop
erasing the other entries in place leaves behind:

* `lookup_retain` — a lookup in the retained table is a lookup in the table
  that also passes the test;
* `card_keySet` — the number of entries is the number of distinct keys;
* `lookup_mapValues` — what a loop changing every value in place leaves behind.
-/
import Mathlib.Data.List.AList
import Mathlib.Data.Finset.Card

/-- A map with finitely many distinct keys. -/
abbrev Table (K V : Type*) := AList (fun _ : K => V)

namespace Table

variable {K V : Type*}

/-- Keep the entries that pass the test. -/
def retain (p : K → V → Bool) (m : Table K V) : Table K V :=
  ⟨m.entries.filter fun e => p e.1 e.2, m.nodupKeys.sublist List.filter_sublist⟩

/-- Change every value. -/
def mapValues (f : V → V) (m : Table K V) : Table K V :=
  ⟨m.entries.map (.map id fun _ => f), m.nodupKeys.map₂ (fun _ => f) _⟩

/-- The number of entries. -/
def size (m : Table K V) : ℕ := m.entries.length

section

variable [DecidableEq K]

/-- The keys, as a finite set. -/
def keySet (m : Table K V) : Finset K := m.keys.toFinset

theorem mem_keySet {m : Table K V} {k : K} : k ∈ keySet m ↔ k ∈ m := by
  rw [keySet, List.mem_toFinset, AList.mem_keys]

theorem card_keySet (m : Table K V) : (keySet m).card = size m := by
  rw [keySet, List.toFinset_card_of_nodup m.keys_nodup, size, AList.keys, List.keys,
    List.length_map]

theorem lookup_retain {p : K → V → Bool} {m : Table K V} {k : K} {v : V} :
    (retain p m).lookup k = some v ↔ m.lookup k = some v ∧ p k v = true := by
  have hmem : ∀ t : Table K V,
      t.lookup k = some v ↔ (⟨k, v⟩ : Sigma fun _ : K => V) ∈ t.entries :=
    fun _ => AList.mem_lookup_iff
  rw [hmem, hmem, retain, List.mem_filter]

theorem lookup_erase {m : Table K V} {k k' : K} {v : V} :
    (m.erase k').lookup k = some v ↔ k ≠ k' ∧ m.lookup k = some v := by
  by_cases hk : k = k'
  · subst hk
    simp
  · rw [AList.lookup_erase_ne hk]
    exact ⟨fun h => ⟨hk, h⟩, And.right⟩

theorem erase_of_notMem {m : Table K V} {k : K} (hk : k ∉ m) : m.erase k = m :=
  AList.ext (List.kerase_of_notMem_keys hk)

theorem mem_iff_lookup {m : Table K V} {k : K} : k ∈ m ↔ ∃ v, m.lookup k = some v := by
  rw [← AList.lookup_isSome, Option.isSome_iff_exists]

theorem mem_retain {p : K → V → Bool} {m : Table K V} {k : K} :
    k ∈ retain p m ↔ ∃ v, m.lookup k = some v ∧ p k v = true := by
  rw [mem_iff_lookup]
  exact exists_congr fun v => lookup_retain

theorem mem_of_mem_retain {p : K → V → Bool} {m : Table K V} {k : K} (h : k ∈ retain p m) :
    k ∈ m := by
  obtain ⟨v, hv, -⟩ := mem_retain.mp h
  exact mem_iff_lookup.mpr ⟨v, hv⟩

theorem lookup_mapValues (f : V → V) (m : Table K V) (k : K) :
    (mapValues f m).lookup k = (m.lookup k).map f :=
  List.dlookup_map₂ k

end

end Table
