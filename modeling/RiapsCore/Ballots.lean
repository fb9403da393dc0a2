/-
Elections by majority.

What an election by terms is for, with no word about how it is run: voters
cast votes for candidates in numbered terms, at most one each per term, and a
candidate wins a term when a majority of the members voted for it there.

* `Ballots.winner_unique` — a term has at most one winner.
-/
import Mathlib.Data.Finset.Card
import Mathlib.Data.Set.Basic

/-- The votes cast: who, in which term, for whom.  A voter has at most one vote
in a term. -/
structure Ballots (ι τ κ : Type*) where
  cast : Set (ι × τ × κ)
  once : ∀ {v : ι} {T : τ} {a b : κ}, (v, T, a) ∈ cast → (v, T, b) ∈ cast → a = b

namespace Ballots

variable {ι τ κ : Type*}

/-- A majority of `members` voted for `a` in the term `T`. -/
def Wins (B : Ballots ι τ κ) (members : Finset ι) (T : τ) (a : κ) : Prop :=
  ∃ V ⊆ members, members.card < 2 * V.card ∧ ∀ v ∈ V, (v, T, a) ∈ B.cast

/-- **A term has at most one winner**: two majorities share a voter. -/
theorem winner_unique [DecidableEq ι] {B : Ballots ι τ κ} {members : Finset ι} {T : τ} {a b : κ}
    (ha : B.Wins members T a) (hb : B.Wins members T b) : a = b := by
  obtain ⟨V, hV, hVcard, hVcast⟩ := ha
  obtain ⟨W, hW, hWcard, hWcast⟩ := hb
  have hcard : members.card < V.card + W.card := by omega
  obtain ⟨v, hv⟩ := Finset.inter_nonempty_of_card_lt_card_add_card hV hW hcard
  obtain ⟨hvV, hvW⟩ := Finset.mem_inter.mp hv
  exact B.once (hVcast v hvV) (hWcast v hvW)

end Ballots
