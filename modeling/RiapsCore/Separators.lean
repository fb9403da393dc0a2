/-
Words joined by a separator.

A word that does not contain the separator can be read off the text it starts,
up to the first separator, or the text it ends, from the last one on:

* `append_sep_inj` — the parts around the first separator;
* `sep_append_inj` — the parts around the last one.
-/
import Mathlib.Data.List.Basic
import Mathlib.Tactic.Common

namespace Separators

variable {α : Type*} {sep : α} {a a' b b' : List α}

/-- What stands before and after the first separator. -/
theorem append_sep_inj (ha : sep ∉ a) (ha' : sep ∉ a') :
    a ++ sep :: b = a' ++ sep :: b' ↔ a = a' ∧ b = b' := by
  constructor
  · intro h
    induction a generalizing a' with
    | nil =>
      cases a' with
      | nil => exact ⟨rfl, (List.cons.inj h).2⟩
      | cons x a' =>
        obtain ⟨rfl, -⟩ := List.cons.inj h
        exact absurd List.mem_cons_self ha'
    | cons x a ih =>
      cases a' with
      | nil =>
        obtain ⟨rfl, -⟩ := List.cons.inj h
        exact absurd List.mem_cons_self ha
      | cons y a' =>
        obtain ⟨rfl, htail⟩ := List.cons.inj h
        obtain ⟨rfl, hb⟩ := ih (fun hx => ha (List.mem_cons_of_mem _ hx))
          (fun hx => ha' (List.mem_cons_of_mem _ hx)) htail
        exact ⟨rfl, hb⟩
  · rintro ⟨rfl, rfl⟩
    rfl

/-- What stands before and after the last separator. -/
theorem sep_append_inj (hb : sep ∉ b) (hb' : sep ∉ b') :
    a ++ sep :: b = a' ++ sep :: b' ↔ a = a' ∧ b = b' := by
  have hrev : ∀ x y : List α, (x ++ sep :: y).reverse = y.reverse ++ sep :: x.reverse := by
    intro x y
    simp
  rw [← List.reverse_inj, hrev, hrev, append_sep_inj (by simpa using hb) (by simpa using hb'),
    List.reverse_inj, List.reverse_inj, and_comm]

end Separators
