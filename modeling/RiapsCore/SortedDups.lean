/-
A database whose keys may have several values, read through a cursor.

The entries are a finite set of pairs, in the order of their keys and, for one
key, of their values.  A cursor stands at an entry and knows what follows it, or
in the gap that the deletion of a key has left.

* `pairwise_entries`, `mem_entries`, `length_entries` — the order of the database;
* `takeWhile_dropWhile_eq_filter` — in that order the entries of a key stand
  together, so the duplicates that follow its first entry are all of them;
* `setKey_eq_none_iff`, `setKey_eq_some` — where a cursor stands after `setKey`.
-/
import Mathlib.Data.Finset.Sort
import Mathlib.Data.List.TakeWhile
import Mathlib.Data.Prod.Lex
import Mathlib.Tactic.Common

namespace SortedDups

variable {κ ν : Type*} [LinearOrder κ] [LinearOrder ν]

/-- The entries in the order of the database. -/
def entries (db : Finset (κ × ν)) : List (κ × ν) := (db.map toLex.toEmbedding).sort.map ofLex

/-- The values of a key, in the order of the database. -/
def values (db : Finset (κ × ν)) (k : κ) : List ν :=
  ((entries db).filter fun e => e.1 = k).map Prod.snd

/-- Where a cursor stands. -/
inductive Cursor (κ ν : Type*) where
  | unset
  /-- At an entry, with the entries that follow it. -/
  | onEntry (e : κ × ν) (rest : List (κ × ν))
  /-- Where the entries of a key were, with the entries that follow. -/
  | gap (rest : List (κ × ν))
deriving DecidableEq

namespace Cursor

/-- At the first entry of a list. -/
def atHead : List (κ × ν) → Option ((κ × ν) × Cursor κ ν)
  | [] => none
  | e :: rest => some (e, .onEntry e rest)

/-- At the first entry. -/
def first (db : Finset (κ × ν)) : Option ((κ × ν) × Cursor κ ν) := atHead (entries db)

/-- At the next entry. -/
def next (db : Finset (κ × ν)) : Cursor κ ν → Option ((κ × ν) × Cursor κ ν)
  | .unset => first db
  | .onEntry _ rest => atHead rest
  | .gap rest => atHead rest

/-- At the first entry of a key. -/
def setKey (db : Finset (κ × ν)) (k : κ) : Option ((κ × ν) × Cursor κ ν) :=
  atHead ((entries db).dropWhile fun e => e.1 ≠ k)

/-- At the next entry of the same key. -/
def nextDup : Cursor κ ν → Option ((κ × ν) × Cursor κ ν)
  | .onEntry e (e' :: rest) => if e'.1 = e.1 then some (e', .onEntry e' rest) else none
  | _ => none

/-- Delete every entry of the key that the cursor stands at. -/
def delDups (db : Finset (κ × ν)) : Cursor κ ν → Option (Finset (κ × ν) × Cursor κ ν)
  | .onEntry e rest =>
    some (db.filter fun x => x.1 ≠ e.1, .gap (rest.dropWhile fun x => x.1 = e.1))
  | _ => none

end Cursor

/-! ### The order of the entries -/

theorem pairwise_entries (db : Finset (κ × ν)) :
    (entries db).Pairwise fun a b => toLex a < toLex b := by
  rw [entries, List.pairwise_map]
  exact (Finset.sortedLT_sort _).pairwise

theorem mem_entries {db : Finset (κ × ν)} {e : κ × ν} : e ∈ entries db ↔ e ∈ db := by
  simp [entries]

theorem length_entries (db : Finset (κ × ν)) : (entries db).length = db.card := by
  simp [entries]

theorem mem_values {db : Finset (κ × ν)} {k : κ} {v : ν} : v ∈ values db k ↔ (k, v) ∈ db := by
  rw [values, List.mem_map]
  constructor
  · rintro ⟨e, he, rfl⟩
    rw [List.mem_filter, mem_entries, decide_eq_true_iff] at he
    rw [← he.2]
    exact he.1
  · intro h
    exact ⟨(k, v), by rw [List.mem_filter, mem_entries]; simpa using h, rfl⟩

theorem pairwise_values (db : Finset (κ × ν)) (k : κ) : (values db k).Pairwise (· < ·) := by
  rw [values, List.pairwise_map]
  refine ((pairwise_entries db).filter _).imp_of_mem fun {a b} ha hb hab => ?_
  rw [List.mem_filter, decide_eq_true_iff] at ha hb
  rw [Prod.Lex.toLex_lt_toLex, ha.2, hb.2] at hab
  rcases hab with hab | hab
  · exact absurd hab (lt_irrefl k)
  · exact hab.2

theorem length_values_le (db : Finset (κ × ν)) (k : κ) : (values db k).length ≤ db.card := by
  rw [values, List.length_map, ← length_entries]
  exact List.length_filter_le _ _

theorem values_eq_nil_iff {db : Finset (κ × ν)} {k : κ} :
    values db k = [] ↔ ∀ v, (k, v) ∉ db := by
  simp only [List.eq_nil_iff_forall_not_mem, mem_values]

/-! ### The entries of a key -/

omit [LinearOrder ν] in
/-- In a list with ascending keys, none of them below `k`, the entries of `k` come first. -/
theorem takeWhile_eq_filter {l : List (κ × ν)} {k : κ} (hl : l.Pairwise fun a b => a.1 ≤ b.1)
    (hk : ∀ x ∈ l, k ≤ x.1) : l.takeWhile (fun e => e.1 = k) = l.filter fun e => e.1 = k := by
  induction l with
  | nil => rfl
  | cons x l ih =>
    rw [List.pairwise_cons] at hl
    by_cases hx : x.1 = k
    · rw [List.takeWhile_cons_of_pos (by simpa using hx),
        List.filter_cons_of_pos (by simpa using hx),
        ih hl.2 fun y hy => hk y (List.mem_cons_of_mem _ hy)]
    · -- the keys are above `k` from here on
      rw [List.takeWhile_cons_of_neg (by simpa using hx),
        List.filter_cons_of_neg (by simpa using hx), eq_comm, List.filter_eq_nil_iff]
      intro y hy hyk
      rw [decide_eq_true_iff] at hyk
      have hkx : k ≤ x.1 := hk x List.mem_cons_self
      have hxy : x.1 ≤ y.1 := hl.1 y hy
      exact hx (le_antisymm (hxy.trans_eq hyk) hkx)

omit [LinearOrder ν] in
/-- In a list with ascending keys the entries of a key stand together. -/
theorem takeWhile_dropWhile_eq_filter {l : List (κ × ν)} (k : κ)
    (hl : l.Pairwise fun a b => a.1 ≤ b.1) :
    (l.dropWhile fun e => e.1 ≠ k).takeWhile (fun e => e.1 = k) = l.filter fun e => e.1 = k := by
  induction l with
  | nil => rfl
  | cons e l ih =>
    have hl' := List.pairwise_cons.mp hl
    by_cases he : e.1 = k
    · rw [List.dropWhile_cons_of_neg (by simpa using he)]
      refine takeWhile_eq_filter hl fun x hx => ?_
      rcases List.mem_cons.mp hx with rfl | hx
      · exact he.ge
      · exact he.ge.trans (hl'.1 x hx)
    · rw [List.dropWhile_cons_of_pos (by simpa using he),
        List.filter_cons_of_neg (by simpa using he), ih hl'.2]

omit [LinearOrder ν] in
/-- What skipping to a key ends with. -/
theorem fst_of_dropWhile {l rest : List (κ × ν)} {k : κ} {e : κ × ν}
    (h : (l.dropWhile fun x => x.1 ≠ k) = e :: rest) : e.1 = k := by
  induction l with
  | nil => cases h
  | cons x l ih =>
    by_cases hx : x.1 = k
    · rw [List.dropWhile_cons_of_neg (by simpa using hx), List.cons.injEq] at h
      rw [← h.1]
      exact hx
    · rw [List.dropWhile_cons_of_pos (by simpa using hx)] at h
      exact ih h

theorem pairwise_fst_entries (db : Finset (κ × ν)) :
    (entries db).Pairwise fun a b => a.1 ≤ b.1 := by
  refine (pairwise_entries db).imp fun {a b} hab => ?_
  rw [Prod.Lex.toLex_lt_toLex] at hab
  rcases hab with hab | hab
  · exact hab.le
  · exact hab.1.le

namespace Cursor

theorem setKey_eq_none_iff {db : Finset (κ × ν)} {k : κ} :
    setKey db k = none ↔ values db k = [] := by
  have hfilter := takeWhile_dropWhile_eq_filter k (pairwise_fst_entries db)
  rw [values, List.map_eq_nil_iff, ← hfilter, setKey]
  cases hdrop : (entries db).dropWhile fun e => decide (e.1 ≠ k) with
  | nil => simp [atHead]
  | cons e rest =>
    simp [atHead, fst_of_dropWhile hdrop]

/-- The cursor stands at the first value of the key, and the others follow. -/
theorem setKey_eq_some {db : Finset (κ × ν)} {k : κ} {e : κ × ν} {cur : Cursor κ ν}
    (h : setKey db k = some (e, cur)) :
    ∃ rest, cur = .onEntry e rest ∧ e.1 = k ∧
      values db k = e.2 :: (rest.takeWhile fun x => x.1 = k).map Prod.snd := by
  have hfilter := takeWhile_dropWhile_eq_filter k (pairwise_fst_entries db)
  rw [setKey] at h
  cases hdrop : (entries db).dropWhile fun e => decide (e.1 ≠ k) with
  | nil => rw [hdrop] at h; simp [atHead] at h
  | cons x rest =>
    rw [hdrop, atHead, Option.some.injEq, Prod.mk.injEq] at h
    obtain ⟨rfl, rfl⟩ := h
    have he : x.1 = k := fst_of_dropWhile hdrop
    refine ⟨rest, rfl, he, ?_⟩
    rw [values, ← hfilter, hdrop, List.takeWhile_cons_of_pos (by simpa using he), List.map_cons]

end Cursor

end SortedDups
