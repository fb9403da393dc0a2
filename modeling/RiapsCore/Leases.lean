/-
A lease that a poll loop renews.

A grant holds for less than `period`.  The loop looks at the lease at the times
`polls` and grants it again when its stamp is more than `period` old, which then
becomes the stamp:

* `lt_of_mem_renewals`, `renewals_of_find?_some` — the first poll that is late enough
  is the first renewal, and the others follow more than a period after it;
* `held_iff` — how long the lease is held without a gap.
-/
import Mathlib.Data.List.Basic
import Mathlib.Tactic.Common

namespace Leases

variable {period stamp grant n : ℕ} {polls : List ℕ}

/-- The times of the renewals. -/
def renewals (period : ℕ) : ℕ → List ℕ → List ℕ
  | _, [] => []
  | stamp, t :: polls =>
    if stamp + period < t then t :: renewals period t polls else renewals period stamp polls

/-- At the time `x` one of the grants is less than a period old. -/
def Held (period : ℕ) (grants : List ℕ) (x : ℕ) : Prop :=
  ∃ g ∈ grants, g ≤ x ∧ x < g + period

theorem lt_of_mem_renewals {q : ℕ} (hq : q ∈ renewals period stamp polls) :
    stamp + period < q := by
  induction polls generalizing stamp with
  | nil => cases hq
  | cons t polls ih =>
    rw [renewals] at hq
    split at hq
    · rename_i hlate
      rcases List.mem_cons.mp hq with rfl | hq
      · exact hlate
      · have hlater := ih hq
        omega
    · exact ih hq

theorem renewals_of_find?_none
    (h : polls.find? (fun t => decide (stamp + period < t)) = none) :
    renewals period stamp polls = [] := by
  induction polls with
  | nil => rfl
  | cons t polls ih =>
    have hearly : ¬ stamp + period < t := by
      intro hlate
      simp [hlate] at h
    rw [renewals, if_neg hearly]
    exact ih (by simpa [hearly] using h)

/-- The first poll that is late enough renews the lease, and nothing does within
a period after it. -/
theorem renewals_of_find?_some
    (h : polls.find? (fun t => decide (stamp + period < t)) = some n) :
    ∃ rest, renewals period stamp polls = n :: rest ∧ ∀ q ∈ rest, n + period < q := by
  induction polls with
  | nil => cases h
  | cons t polls ih =>
    rw [renewals]
    by_cases hlate : stamp + period < t
    · obtain rfl : t = n := by simpa [hlate] using h
      rw [if_pos hlate]
      exact ⟨_, rfl, fun q hq => lt_of_mem_renewals hq⟩
    · rw [if_neg hlate]
      exact ih (by simpa [hlate] using h)

/-- **How long a lease is held.**  With a first grant no later than the polls,
the lease is held from the grant up to `T` iff `T` is within a period of the
grant, or the first poll more than a period after the stamp comes within a
period of the grant and `T` is within a period of that poll. -/
theorem held_iff {T : ℕ} (hpolls : ∀ t ∈ polls, grant ≤ t) :
    (∀ x, grant ≤ x → x ≤ T → Held period (grant :: renewals period stamp polls) x) ↔
      T < grant + period ∨
        ∃ n, polls.find? (fun t => decide (stamp + period < t)) = some n ∧
          n ≤ grant + period ∧ T < n + period := by
  constructor
  · intro hheld
    by_cases hT : T < grant + period
    · exact .inl hT
    · refine .inr ?_
      -- the moment at which the first grant ends
      obtain ⟨q, hq, hle, hlt⟩ := hheld (grant + period) (by omega) (by omega)
      have hrenewal : q ∈ renewals period stamp polls := by
        rcases List.mem_cons.mp hq with rfl | hq
        · omega
        · exact hq
      rcases hfind : polls.find? (fun t => decide (stamp + period < t)) with _ | n
      · rw [renewals_of_find?_none hfind] at hrenewal
        cases hrenewal
      · obtain ⟨rest, hrenewals, hrest⟩ := renewals_of_find?_some hfind
        have hgrant : grant ≤ n := hpolls n (List.mem_of_find?_eq_some hfind)
        have hfirst : n ≤ grant + period := by
          rw [hrenewals] at hrenewal
          rcases List.mem_cons.mp hrenewal with rfl | hin
          · exact hle
          · have hafter := hrest q hin
            omega
        refine ⟨n, rfl, hfirst, ?_⟩
        by_contra hend
        -- the moment at which the first renewal ends
        obtain ⟨q', hq', hle', hlt'⟩ := hheld (n + period) (by omega) (by omega)
        rw [hrenewals] at hq'
        rcases List.mem_cons.mp hq' with rfl | hin
        · omega
        · rcases List.mem_cons.mp hin with rfl | hin
          · omega
          · have hafter := hrest q' hin
            omega
  · rintro (hT | ⟨n, hfind, hn, hT⟩) x hx hxT
    · exact ⟨grant, List.mem_cons_self, hx, by omega⟩
    · obtain ⟨rest, hrenewals, -⟩ := renewals_of_find?_some hfind
      by_cases hxg : x < grant + period
      · exact ⟨grant, List.mem_cons_self, hx, hxg⟩
      · refine ⟨n, ?_, by omega, by omega⟩
        rw [hrenewals]
        exact List.mem_cons_of_mem _ List.mem_cons_self

end Leases
