/-
Broadcast over lossy first-in first-out channels.

Between every two parties there is a list of messages in flight, oldest first.
A broadcast appends to all channels of the sender, its own included; taking a
message out of a channel is a delivery when it is the oldest one and a loss
otherwise:

* `mem_broadcast`, `mem_of_mem_remove` — what can be in a channel afterwards;
* `inFlight_broadcast`, `inFlight_remove_le`, `inFlight_deliver` — how the
  number of messages on the way to one receiver changes;
* `load_broadcast`, `load_remove_le`, `load_deliver` — the same for the weights
  of all messages between the members.
-/
import Mathlib.Algebra.BigOperators.Group.Finset.Piecewise
import Mathlib.Algebra.Order.Ring.Nat
import Mathlib.Algebra.Order.BigOperators.Group.Finset
import Mathlib.Algebra.Order.BigOperators.Group.List
import Mathlib.Tactic.Common

/-- The messages in flight from each sender to each receiver, oldest first. -/
def Channels (ι μ : Type*) := ι → ι → List μ

namespace Channels

variable {ι μ : Type*}

/-- Nothing is in flight. -/
def empty : Channels ι μ := fun _ _ => []

variable [DecidableEq ι]

/-- `src` sends `ms`, in this order, to everybody. -/
def broadcast (ch : Channels ι μ) (src : ι) (ms : List μ) : Channels ι μ :=
  fun a b => if a = src then ch a b ++ ms else ch a b

/-- The `k`-th message from `src` to `dst` leaves the channel. -/
def remove (ch : Channels ι μ) (src dst : ι) (k : ℕ) : Channels ι μ :=
  fun a b => if a = src ∧ b = dst then (ch a b).eraseIdx k else ch a b

variable {ch : Channels ι μ} {src dst a b : ι} {m : μ} {ms : List μ} {k : ℕ}

theorem mem_broadcast : m ∈ ch.broadcast src ms a b ↔ m ∈ ch a b ∨ a = src ∧ m ∈ ms := by
  rw [broadcast]
  by_cases h : a = src
  · rw [if_pos h, List.mem_append]
    simp [h]
  · rw [if_neg h]
    simp [h]

theorem mem_of_mem_remove (h : m ∈ ch.remove src dst k a b) : m ∈ ch a b := by
  rw [remove] at h
  by_cases hc : a = src ∧ b = dst
  · rw [if_pos hc] at h
    exact List.mem_of_mem_eraseIdx h
  · rwa [if_neg hc] at h

/-! ### Counting the messages on the way to one receiver -/

/-- How many messages passing the test are on their way from `members` to
`dst`. -/
def inFlight (test : μ → Bool) (members : Finset ι) (ch : Channels ι μ) (dst : ι) : ℕ :=
  ∑ a ∈ members, (ch a dst).countP test

variable {test : μ → Bool} {members : Finset ι}

omit [DecidableEq ι] in
theorem inFlight_empty : inFlight test members (empty : Channels ι μ) dst = 0 := by
  simp [inFlight, empty]

/-- Two families of channels that differ only in the channel `src → dst`. -/
theorem inFlight_congr (test : μ → Bool) (dst : ι) {ch' : Channels ι μ} (hsrc : src ∈ members)
    (hother : ∀ a, a ≠ src → ch' a dst = ch a dst) :
    inFlight test members ch' dst + (ch src dst).countP test
      = inFlight test members ch dst + (ch' src dst).countP test := by
  have hrest : ∑ a ∈ members.erase src, (ch' a dst).countP test
      = ∑ a ∈ members.erase src, (ch a dst).countP test :=
    Finset.sum_congr rfl fun a ha => by rw [hother a (Finset.ne_of_mem_erase ha)]
  rw [inFlight, inFlight, ← Finset.add_sum_erase _ _ hsrc, ← Finset.add_sum_erase _ _ hsrc, hrest]
  omega

theorem inFlight_broadcast (hsrc : src ∈ members) :
    inFlight test members (ch.broadcast src ms) dst
      = inFlight test members ch dst + ms.countP test := by
  have hother : ∀ a, a ≠ src → ch.broadcast src ms a dst = ch a dst :=
    fun a ha => by rw [broadcast, if_neg ha]
  have hcongr := inFlight_congr test dst hsrc hother
  have hself : (ch.broadcast src ms src dst).countP test
      = (ch src dst).countP test + ms.countP test := by
    rw [broadcast, if_pos rfl, List.countP_append]
  omega

theorem inFlight_remove_le (test : μ → Bool) (members : Finset ι) (ch : Channels ι μ)
    (src dst b : ι) (k : ℕ) :
    inFlight test members (ch.remove src dst k) b ≤ inFlight test members ch b := by
  refine Finset.sum_le_sum fun a _ => ?_
  rw [remove]
  split
  · exact (List.eraseIdx_sublist _ _).countP_le
  · exact le_rfl

/-- The delivery of the oldest message takes it out of the count. -/
theorem inFlight_deliver (test : μ → Bool) {rest : List μ} (hsrc : src ∈ members)
    (hhead : ch src dst = m :: rest) :
    inFlight test members (ch.remove src dst 0) dst + (if test m then 1 else 0)
      = inFlight test members ch dst := by
  have hother : ∀ a, a ≠ src → ch.remove src dst 0 a dst = ch a dst :=
    fun a ha => by rw [remove, if_neg fun h => ha h.1]
  have hcongr := inFlight_congr test dst hsrc hother
  have hself : ch.remove src dst 0 src dst = rest := by
    rw [remove, if_pos ⟨rfl, rfl⟩, hhead]
    rfl
  -- the other channels to `dst` are the same, this one is shorter by `m`
  rw [hself, hhead, List.countP_cons] at hcongr
  omega

/-! ### The weights of the messages between the members -/

/-- The sum of the weights of the messages in flight between members. -/
def load (w : μ → ℕ) (members : Finset ι) (ch : Channels ι μ) : ℕ :=
  ∑ a ∈ members, ∑ b ∈ members, ((ch a b).map w).sum

variable {w : μ → ℕ}

omit [DecidableEq ι] in
theorem load_empty : load w members (empty : Channels ι μ) = 0 := by
  simp [load, empty]

/-- A broadcast puts its messages into one channel for each member. -/
theorem load_broadcast (w : μ → ℕ) (ch : Channels ι μ) (ms : List μ) (hsrc : src ∈ members) :
    load w members (ch.broadcast src ms)
      = load w members ch + members.card * (ms.map w).sum := by
  have hrow : ∀ a, ∑ b ∈ members, ((ch.broadcast src ms a b).map w).sum
      = (∑ b ∈ members, ((ch a b).map w).sum)
        + if a = src then members.card * (ms.map w).sum else 0 := by
    intro a
    by_cases ha : a = src
    · simp [broadcast, ha, Finset.sum_add_distrib]
    · simp [broadcast, ha]
  simp [load, hrow, Finset.sum_add_distrib, hsrc]

theorem load_remove_le (w : μ → ℕ) (members : Finset ι) (ch : Channels ι μ) (src dst : ι) (k : ℕ) :
    load w members (ch.remove src dst k) ≤ load w members ch := by
  refine Finset.sum_le_sum fun a _ => Finset.sum_le_sum fun b _ => ?_
  rw [remove]
  split
  · exact ((List.eraseIdx_sublist _ _).map w).sum_le_sum fun _ _ => Nat.zero_le _
  · exact le_rfl

/-- The delivery of the oldest message takes its weight away. -/
theorem load_deliver (w : μ → ℕ) {rest : List μ} (hsrc : src ∈ members) (hdst : dst ∈ members)
    (hhead : ch src dst = m :: rest) :
    load w members (ch.remove src dst 0) + w m = load w members ch := by
  have hcell : ∀ a b, ((ch a b).map w).sum = ((ch.remove src dst 0 a b).map w).sum
      + if a = src then if b = dst then w m else 0 else 0 := by
    intro a b
    by_cases ha : a = src
    · by_cases hb : b = dst
      · simp [remove, ha, hb, hhead, add_comm]
      · simp [remove, ha, hb]
    · simp [remove, ha]
  have hsum : load w members ch = load w members (ch.remove src dst 0)
      + ∑ a ∈ members, ∑ b ∈ members, if a = src then if b = dst then w m else 0 else 0 := by
    simp only [load, ← Finset.sum_add_distrib]
    exact Finset.sum_congr rfl fun a _ => Finset.sum_congr rfl fun b _ => hcell a b
  rw [hsum, Finset.sum_eq_single_of_mem src hsrc fun a _ ha => by simp [ha]]
  simp [hdst]

end Channels
