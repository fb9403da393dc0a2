/-
Arithmetic on `timespec` (`operator-` and `operator>`, `src/utils/r_utils.cc`).

The fields are signed 64-bit integers, so every operation is taken modulo
`2 ^ 64`.  A `timespec` stands for its value in nanoseconds, `Timespec.ns`; the
clock and the callers pass values in normal form, with `0 ≤ tv_nsec < 10 ^ 9`.

* `Timespec.borrow_spec` — a negative number of nanoseconds is made good by one
  second, without a change of the value;
* `Timespec.sub_spec` — the difference of two times, exactly;
* `Timespec.sub_canonical_iff` — it is in canonical form iff it is not a negative
  whole number of seconds.
-/
import RiapsCore.Group
import Mathlib.Algebra.Group.Int.Defs
import Mathlib.Algebra.Group.Nat.Defs
import Mathlib.Algebra.Order.Group.Unbundled.Int

namespace Riaps

/-- `BILLION`, which is also written `1000000000l` and `1E9`. -/
def billion : ℕ := 1000000000

/-! ### 64-bit arithmetic that does not overflow -/

theorem toInt_add_of_fits {a b : Int64} {n : ℤ} (h : a.toInt + b.toInt = n) (lo : -2 ^ 63 ≤ n)
    (hi : n < 2 ^ 63) : (a + b).toInt = n := by
  rw [Int64.toInt_add, h]
  exact Int.bmod_eq_of_le (by omega) (by omega)

theorem toInt_sub_of_fits {a b : Int64} {n : ℤ} (h : a.toInt - b.toInt = n) (lo : -2 ^ 63 ≤ n)
    (hi : n < 2 ^ 63) : (a - b).toInt = n := by
  rw [Int64.toInt_sub, h]
  exact Int.bmod_eq_of_le (by omega) (by omega)

theorem toInt_toInt64_of_lt {u : UInt64} (h : u.toNat < 2 ^ 63) : u.toInt64.toInt = u.toNat := by
  rw [← Int64.toInt_ofNat_of_lt h, ← UInt64.toInt64_ofNat', UInt64.ofNat_toNat]

@[simp] theorem toInt_billion : (Int64.ofNat billion).toInt = 1000000000 := rfl

@[simp] theorem toInt_one : (1 : Int64).toInt = 1 := rfl

namespace Timespec

/-! ### The value of a `timespec` -/

/-- The value in nanoseconds. -/
def ns (t : Timespec) : ℤ := t.tvSec.toInt * billion + t.tvNsec.toInt

/-- The nanoseconds are a fraction of a second. -/
def Normalised (t : Timespec) : Prop := 0 ≤ t.tvNsec.toInt ∧ t.tvNsec.toInt < billion

instance (t : Timespec) : Decidable t.Normalised :=
  inferInstanceAs (Decidable (_ ∧ _))

theorem ns_eq (t : Timespec) : t.ns = t.tvSec.toInt * 1000000000 + t.tvNsec.toInt := rfl

theorem normalised_iff (t : Timespec) :
    t.Normalised ↔ 0 ≤ t.tvNsec.toInt ∧ t.tvNsec.toInt < 1000000000 := Iff.rfl

/-- Take a second when the nanoseconds are negative. -/
def borrow (t : Timespec) : Timespec :=
  if t.tvNsec < 0 then ⟨t.tvSec - 1, t.tvNsec + Int64.ofNat billion⟩ else t

/-- Borrowing brings a time whose nanoseconds are off by less than a second into
normal form and keeps its value. -/
theorem borrow_spec {t : Timespec} (lo : -1000000000 ≤ t.tvNsec.toInt)
    (hi : t.tvNsec.toInt < 1000000000) (hsec : t.tvNsec.toInt < 0 → -2 ^ 63 < t.tvSec.toInt) :
    t.borrow.Normalised ∧ t.borrow.ns = t.ns := by
  rw [normalised_iff, ns_eq, ns_eq]
  by_cases hneg : t.tvNsec < 0
  · rw [borrow, if_pos hneg]
    rw [Int64.lt_iff_toInt_lt, Int64.toInt_zero] at hneg
    have hlt := t.tvSec.toInt_lt
    have hgt := hsec hneg
    have hsec' : (t.tvSec - 1).toInt = t.tvSec.toInt - 1 :=
      toInt_sub_of_fits rfl (by omega) (by omega)
    have hnsec : (t.tvNsec + Int64.ofNat billion).toInt = t.tvNsec.toInt + 1000000000 :=
      toInt_add_of_fits rfl (by omega) (by omega)
    show (0 ≤ (t.tvNsec + Int64.ofNat billion).toInt ∧ _) ∧ (t.tvSec - 1).toInt * _ + _ = _
    rw [hsec', hnsec]
    omega
  · rw [borrow, if_neg hneg]
    rw [Int64.lt_iff_toInt_lt, Int64.toInt_zero] at hneg
    omega

/-! ### Differences -/

/-- `operator-`. -/
def sub (ts1 ts2 : Timespec) : Timespec :=
  let diff := borrow ⟨ts1.tvSec - ts2.tvSec, ts1.tvNsec - ts2.tvNsec⟩
  if diff.tvSec < 0 then ⟨diff.tvSec + 1, diff.tvNsec - Int64.ofNat billion⟩ else diff

instance : Sub Timespec := ⟨sub⟩

/-- `operator>`. -/
def gt (ts1 ts2 : Timespec) : Bool :=
  if ts1.tvSec > ts2.tvSec then true
  else if ts1.tvSec = ts2.tvSec ∧ ts1.tvNsec > ts2.tvNsec then true
  else false

/-- The nanoseconds are less than a second, and the fields do not have opposite
signs. -/
def Canonical (t : Timespec) : Prop :=
  |t.tvNsec.toInt| < billion ∧ ¬ (t.tvSec.toInt < 0 ∧ 0 < t.tvNsec.toInt) ∧
    ¬ (0 < t.tvSec.toInt ∧ t.tvNsec.toInt < 0)

instance (t : Timespec) : Decidable t.Canonical :=
  inferInstanceAs (Decidable (_ ∧ _ ∧ _))

theorem canonical_iff (t : Timespec) :
    t.Canonical ↔ (-1000000000 < t.tvNsec.toInt ∧ t.tvNsec.toInt < 1000000000) ∧
      ¬ (t.tvSec.toInt < 0 ∧ 0 < t.tvNsec.toInt) ∧
      ¬ (0 < t.tvSec.toInt ∧ t.tvNsec.toInt < 0) := by
  rw [← abs_lt]
  rfl

section

variable {a b : Timespec}

/-- The difference of the seconds, and one less, are in the range of the type. -/
def DiffersInRange (a b : Timespec) : Prop :=
  -2 ^ 63 < a.tvSec.toInt - b.tvSec.toInt ∧ a.tvSec.toInt - b.tvSec.toInt < 2 ^ 63

instance : Decidable (DiffersInRange a b) :=
  inferInstanceAs (Decidable (_ ∧ _))

/-- The difference is exact.  Where it is negative, its nanoseconds are negative
and may reach a whole second. -/
theorem sub_spec (ha : a.Normalised) (hb : b.Normalised) (hrange : DiffersInRange a b) :
    (a - b).ns = a.ns - b.ns ∧
      (0 ≤ (a - b).tvSec.toInt ∧ (a - b).Normalised ∨
        (a - b).tvSec.toInt ≤ 0 ∧ -1000000000 ≤ (a - b).tvNsec.toInt ∧
          (a - b).tvNsec.toInt < 0) := by
  obtain ⟨lo, hi⟩ := hrange
  rw [normalised_iff] at ha hb
  have hsec : (a.tvSec - b.tvSec).toInt = a.tvSec.toInt - b.tvSec.toInt :=
    toInt_sub_of_fits rfl (by omega) hi
  have hnsec : (a.tvNsec - b.tvNsec).toInt = a.tvNsec.toInt - b.tvNsec.toInt :=
    toInt_sub_of_fits rfl (by omega) (by omega)
  obtain ⟨hnorm, hns⟩ : (borrow ⟨a.tvSec - b.tvSec, a.tvNsec - b.tvNsec⟩).Normalised ∧ _ :=
    borrow_spec (by rw [hnsec]; omega) (by rw [hnsec]; omega) (by rw [hsec]; omega)
  have hsub : a - b = sub a b := rfl
  rw [hsub, sub]
  generalize borrow ⟨a.tvSec - b.tvSec, a.tvNsec - b.tvNsec⟩ = diff at hnorm hns ⊢
  simp only [ns_eq, normalised_iff, hsec, hnsec] at hns hnorm ⊢
  by_cases hneg : diff.tvSec < 0
  · rw [if_pos hneg]
    rw [Int64.lt_iff_toInt_lt, Int64.toInt_zero] at hneg
    have hle := diff.tvSec.le_toInt
    have hsec' : (diff.tvSec + 1).toInt = diff.tvSec.toInt + 1 :=
      toInt_add_of_fits rfl (by omega) (by omega)
    have hnsec' : (diff.tvNsec - Int64.ofNat billion).toInt = diff.tvNsec.toInt - 1000000000 :=
      toInt_sub_of_fits rfl (by omega) (by omega)
    rw [hsec', hnsec']
    omega
  · rw [if_neg hneg]
    rw [Int64.lt_iff_toInt_lt, Int64.toInt_zero] at hneg
    omega

/-- `operator>` compares the values. -/
theorem gt_iff (ha : a.Normalised) (hb : b.Normalised) : a.gt b = true ↔ 0 < a.ns - b.ns := by
  rw [normalised_iff] at ha hb
  have hgt : a.gt b = true ↔ a.tvSec > b.tvSec ∨ a.tvSec = b.tvSec ∧ a.tvNsec > b.tvNsec := by
    unfold gt
    split
    · simp [*]
    · simp [*]
  rw [hgt, gt_iff_lt, gt_iff_lt, Int64.lt_iff_toInt_lt, Int64.lt_iff_toInt_lt, ← Int64.toInt_inj,
    ns_eq, ns_eq]
  omega

/-- **When time differences are in canonical form.**  The difference of two
times in normal form has the exact value and `operator>` is its sign; its fields
are in canonical form as well iff it is not that the first time is earlier by a
whole number of seconds. -/
theorem sub_canonical_iff (ha : a.Normalised) (hb : b.Normalised) (hrange : DiffersInRange a b) :
    ((a - b).ns = a.ns - b.ns ∧ (a - b).Canonical ∧ (a.gt b = true ↔ 0 < a.ns - b.ns)) ↔
      ¬ (a.tvSec < b.tvSec ∧ a.tvNsec = b.tvNsec) := by
  obtain ⟨hns, hcases⟩ := sub_spec ha hb hrange
  rw [gt_iff ha hb, canonical_iff]
  simp only [hns, true_and, iff_self, and_true, Int64.lt_iff_toInt_lt, ← Int64.toInt_inj]
  simp only [ns_eq, normalised_iff] at ha hb hns hcases
  omega

/-- One and a half seconds, less two. -/
theorem sub_canonical_half_second :
    (⟨1, 500000000⟩ : Timespec) - ⟨2, 0⟩ = ⟨0, -500000000⟩ ∧
      ((⟨1, 500000000⟩ : Timespec) - ⟨2, 0⟩).Canonical :=
  ⟨by decide, ((sub_canonical_iff (a := ⟨1, 500000000⟩) (b := ⟨2, 0⟩) (by decide) (by decide)
    (by decide)).mpr (by decide)).2.1⟩

/-- One second before two seconds: the difference is written as zero seconds and
a whole negative second of nanoseconds. -/
theorem sub_whole_second_not_canonical :
    (⟨1, 0⟩ : Timespec).Normalised ∧ (⟨2, 0⟩ : Timespec).Normalised ∧
      DiffersInRange ⟨1, 0⟩ ⟨2, 0⟩ ∧ (⟨1, 0⟩ : Timespec) - ⟨2, 0⟩ = ⟨0, -1000000000⟩ ∧
      ¬ ((⟨1, 0⟩ : Timespec) - ⟨2, 0⟩).Canonical := by
  decide

end

end Timespec

end Riaps
