/-
The string functions of the C++ library that the program uses.

A `std::string` is a `String` with one character for each byte.  Each function
is specified by how its argument splits:

* `cut_eq_some_iff`, `afterFirst_append` — searching and splitting;
* `Numeral`, `stoi_eq_ok_iff` — the strings that `stoi` accepts;
* `stoi_toString`, `stoi_toString_int` — a printed number is read back.
-/
import Mathlib.Algebra.Group.Int.Defs
import Mathlib.Algebra.Group.Nat.Defs
import Mathlib.Data.Int.Notation
import Mathlib.Data.List.TakeWhile
import Mathlib.Tactic.Common

namespace StdString

/-- The bytes of a `std::vector<uint8_t>`. -/
abbrev Blob := List UInt8

/-- `string(blob.begin(), blob.end())`. -/
def ofBlob (b : Blob) : String := String.ofList (b.map fun x => Char.ofNat x.toNat)

/-- `ConvertToBlob(s)`. -/
def toBlob (s : String) : Blob := s.toList.map fun c => UInt8.ofNat c.toNat

/-- What is left of a string that is passed on by its `c_str()`. -/
def cStr (s : String) : String := String.ofList (s.toList.takeWhile (· ≠ '\x00'))

/-- The parts before and after the first `sep`, by `find` and `substr`; `none`
when `find` returns `npos`. -/
def cut (sep : Char) (s : String) : Option (String × String) :=
  match s.toList.dropWhile (· ≠ sep) with
  | [] => none
  | _ :: rest => some (String.ofList (s.toList.takeWhile (· ≠ sep)), String.ofList rest)

/-- What follows the first occurrence of `pat`. -/
def afterFirst (pat : List Char) : List Char → Option (List Char)
  | [] => if pat = [] then some [] else none
  | c :: rest =>
    if pat.isPrefixOf (c :: rest) then some ((c :: rest).drop pat.length) else afterFirst pat rest

/-- `isspace` in the C locale. -/
def isSpace (c : Char) : Bool := c ∈ [' ', '\t', '\n', '\x0b', '\x0c', '\r']

inductive StoiError where
  | invalidArgument
  | outOfRange
deriving DecidableEq, Repr

/-- The value of a string of decimal digits. -/
def decimal (digits : List Char) : ℕ :=
  digits.foldl (fun n c => 10 * n + (c.toNat - '0'.toNat)) 0

/-- The sign that `strtol` reads, and what follows it. -/
def sign : List Char → Bool × List Char
  | '-' :: rest => (true, rest)
  | '+' :: rest => (false, rest)
  | s => (false, s)

/-- `std::stoi(s)`: white space, a sign and digits; what follows is ignored. -/
def stoi (s : String) : Except StoiError Int32 :=
  let (negative, s) := sign (s.toList.dropWhile isSpace)
  let digits := s.takeWhile Char.isDigit
  if digits = [] then .error .invalidArgument
  else
    let value : ℤ := if negative then -decimal digits else decimal digits
    if -2 ^ 31 ≤ value ∧ value < 2 ^ 31 then .ok (Int32.ofInt value) else .error .outOfRange

/-- `stringstream(s) >> boolalpha >> b`: the word that follows white space is
compared with the names of the truth values, and without a match `b` is set to
`false`.  It is left alone when the stream ends before a word. -/
def extractBool (s : String) : Option Bool :=
  match s.toList.dropWhile isSpace with
  | [] => none
  | word => some ("true".toList.isPrefixOf word)

/-! ### Splitting -/

/-- The longest part that passes the test ends where the test fails. -/
theorem span_append {p : Char → Bool} {a b : List Char} (ha : ∀ c ∈ a, p c = true)
    (hb : ∀ c ∈ b.head?, p c = false) :
    (a ++ b).takeWhile p = a ∧ (a ++ b).dropWhile p = b := by
  have hend : b.takeWhile p = [] ∧ b.dropWhile p = b := by
    rcases b with _ | ⟨c, b⟩
    · exact ⟨rfl, rfl⟩
    · have hc : p c = false := hb c rfl
      simp [hc]
  rw [List.takeWhile_append_of_pos ha, List.dropWhile_append_of_pos ha, hend.1, hend.2,
    List.append_nil]
  exact ⟨rfl, rfl⟩

theorem cut_eq_some_iff {sep : Char} {s a b : String} :
    cut sep s = some (a, b) ↔ s.toList = a.toList ++ sep :: b.toList ∧ sep ∉ a.toList := by
  have hsplit : s.toList.takeWhile (· ≠ sep) ++ s.toList.dropWhile (· ≠ sep) = s.toList :=
    List.takeWhile_append_dropWhile
  constructor
  · intro h
    rw [cut] at h
    split at h
    · cases h
    · rename_i c rest hdrop
      rw [Option.some_inj, Prod.mk.injEq] at h
      obtain ⟨rfl, rfl⟩ := h
      have hc : c = sep := by
        have hhead := List.head?_dropWhile_not (fun c => decide (c ≠ sep)) s.toList
        rw [hdrop] at hhead
        simpa using hhead
      rw [String.toList_ofList, String.toList_ofList]
      constructor
      · rw [hc] at hdrop
        rw [← hdrop, hsplit]
      · intro hmem
        simpa using List.mem_takeWhile_imp hmem
  · rintro ⟨hs, hsep⟩
    have hbefore : ∀ c ∈ a.toList, decide (c ≠ sep) = true := by
      intro c hc
      rw [decide_eq_true_eq]
      rintro rfl
      exact hsep hc
    have hspan := span_append (p := fun c => decide (c ≠ sep)) (b := sep :: b.toList) hbefore
      (by simp)
    rw [← hs] at hspan
    rw [cut, hspan.1, hspan.2]
    simp

theorem cStr_of_notMem {s : String} (h : '\x00' ∉ s.toList) : cStr s = s := by
  rw [cStr, List.takeWhile_eq_self_iff.mpr, String.ofList_toList]
  intro c hc
  rw [decide_eq_true_eq]
  rintro rfl
  exact h hc

theorem notMem_cStr (s : String) : '\x00' ∉ (cStr s).toList := by
  rw [cStr, String.toList_ofList]
  intro hmem
  simpa using List.mem_takeWhile_imp hmem

/-- A string that ends at a NUL is split as the whole string. -/
theorem cut_of_cut_cStr {sep : Char} {s a b : String} (h : cut sep (cStr s) = some (a, b)) :
    ∃ rest, cut sep s = some (a, String.ofList (b.toList ++ rest)) := by
  obtain ⟨hsplit, hsep⟩ := cut_eq_some_iff.mp h
  obtain ⟨rest, hrest⟩ : (cStr s).toList <+: s.toList := by
    rw [cStr, String.toList_ofList]
    exact List.takeWhile_prefix _
  refine ⟨rest, cut_eq_some_iff.mpr ⟨?_, hsep⟩⟩
  rw [← hrest, hsplit, String.toList_ofList, List.append_assoc, List.cons_append]

theorem afterFirst_append (pat rest : List Char) : afterFirst pat (pat ++ rest) = some rest := by
  rcases h : pat ++ rest with _ | ⟨c, tail⟩
  · obtain ⟨rfl, rfl⟩ := List.append_eq_nil_iff.mp h
    rfl
  · have hprefix : pat.isPrefixOf (c :: tail) = true := by
      rw [← h, List.isPrefixOf_iff_prefix]
      exact List.prefix_append pat rest
    rw [afterFirst, if_pos hprefix, ← h, List.drop_left]

/-! ### Numbers -/

/-- The text starts with white space, a sign and digits, and these stand for the
value. -/
def Numeral (s : List Char) (value : ℤ) : Prop :=
  ∃ space sgn digits rest : List Char, s = space ++ (sgn ++ (digits ++ rest)) ∧
    (∀ c ∈ space, isSpace c = true) ∧ digits ≠ [] ∧ (∀ c ∈ digits, c.isDigit = true) ∧
    (∀ c ∈ rest.head?, c.isDigit = false) ∧
    ((sgn = [] ∨ sgn = ['+']) ∧ value = decimal digits ∨ sgn = ['-'] ∧ value = -decimal digits)

theorem not_isSpace_of_isDigit {c : Char} (h : c.isDigit = true) : isSpace c = false := by
  rw [← Bool.not_eq_true]
  intro hspace
  simp only [isSpace, decide_eq_true_eq, List.mem_cons, List.not_mem_nil, or_false] at hspace
  rcases hspace with rfl | rfl | rfl | rfl | rfl | rfl <;> simp at h

/-- A digit is no sign. -/
theorem sign_of_isDigit {s : List Char} (h : ∀ c ∈ s.head?, c.isDigit = true) :
    sign s = (false, s) := by
  unfold sign
  split
  · cases h '-' rfl
  · cases h '+' rfl
  · rfl

/-- How the sign was read. -/
theorem sign_cases (s : List Char) :
    (∃ rest, s = '-' :: rest ∧ sign s = (true, rest)) ∨
    (∃ rest, s = '+' :: rest ∧ sign s = (false, rest)) ∨ sign s = (false, s) := by
  unfold sign
  split
  · exact .inl ⟨_, rfl, rfl⟩
  · exact .inr (.inl ⟨_, rfl, rfl⟩)
  · exact .inr (.inr rfl)

/-- The value of digits after a sign. -/
def signed (negative : Bool) (digits : List Char) : ℤ :=
  if negative then -decimal digits else decimal digits

theorem stoi_of_sign {s : String} {tail : List Char} {negative : Bool}
    (h : sign (s.toList.dropWhile isSpace) = (negative, tail)) :
    stoi s = if tail.takeWhile Char.isDigit = [] then .error .invalidArgument
      else if -2 ^ 31 ≤ signed negative (tail.takeWhile Char.isDigit) ∧
          signed negative (tail.takeWhile Char.isDigit) < 2 ^ 31 then
        .ok (Int32.ofInt (signed negative (tail.takeWhile Char.isDigit)))
      else .error .outOfRange := by
  rw [stoi, h]
  rfl

/-- A text with a numeral, read as `stoi` reads it. -/
theorem Numeral.read {s : List Char} {value : ℤ} (h : Numeral s value) :
    ∃ negative tail, sign (s.dropWhile isSpace) = (negative, tail) ∧
      tail.takeWhile Char.isDigit ≠ [] ∧
      value = signed negative (tail.takeWhile Char.isDigit) := by
  obtain ⟨space, sgn, digits, rest, rfl, hspace, hne, hdigits, hrest, hsgn⟩ := h
  have htake : (digits ++ rest).takeWhile Char.isDigit = digits := (span_append hdigits hrest).1
  have hfirst : ∀ c ∈ (digits ++ rest).head?, c.isDigit = true := by
    intro c hc
    rw [List.head?_append, List.head?_eq_some_head hne, Option.some_or] at hc
    rw [← Option.mem_some.mp hc]
    exact hdigits _ (List.head_mem hne)
  have hdrop : ∀ tail : List Char, (∀ c ∈ tail.head?, isSpace c = false) →
      (space ++ tail).dropWhile isSpace = tail := fun tail htail => (span_append hspace htail).2
  rcases hsgn with ⟨rfl | rfl, hvalue⟩ | ⟨rfl, hvalue⟩
  · refine ⟨false, digits ++ rest, ?_, by rwa [htake], by rwa [htake]⟩
    rw [List.nil_append, hdrop _ fun c hc => not_isSpace_of_isDigit (hfirst c hc)]
    exact sign_of_isDigit hfirst
  · refine ⟨false, digits ++ rest, ?_, by rwa [htake], by rwa [htake]⟩
    rw [hdrop _ (by simp [isSpace])]
    rfl
  · refine ⟨true, digits ++ rest, ?_, by rwa [htake], by rwa [htake]⟩
    rw [hdrop _ (by simp [isSpace])]
    rfl

/-- What `stoi` reads is a numeral. -/
theorem numeral_of_read {s tail : List Char} {negative : Bool}
    (h : sign (s.dropWhile isSpace) = (negative, tail))
    (hne : tail.takeWhile Char.isDigit ≠ []) :
    Numeral s (signed negative (tail.takeWhile Char.isDigit)) := by
  have hsplit : s = s.takeWhile isSpace ++ s.dropWhile isSpace :=
    List.takeWhile_append_dropWhile.symm
  have hrest : ∀ c ∈ (tail.dropWhile Char.isDigit).head?, c.isDigit = false := by
    intro c hc
    have hhead := List.head?_dropWhile_not Char.isDigit tail
    rw [show (tail.dropWhile Char.isDigit).head? = some c from hc] at hhead
    exact hhead
  have hdigits : ∀ c ∈ tail.takeWhile Char.isDigit, c.isDigit = true :=
    fun c hc => List.mem_takeWhile_imp hc
  have hspace : ∀ c ∈ s.takeWhile isSpace, isSpace c = true :=
    fun c hc => List.mem_takeWhile_imp hc
  have hjoin : tail.takeWhile Char.isDigit ++ tail.dropWhile Char.isDigit = tail :=
    List.takeWhile_append_dropWhile
  rcases sign_cases (s.dropWhile isSpace) with ⟨t, ht, hsign⟩ | ⟨t, ht, hsign⟩ | hsign
  · obtain ⟨rfl, rfl⟩ := Prod.mk.inj (h.symm.trans hsign)
    refine ⟨_, ['-'], _, _, ?_, hspace, hne, hdigits, hrest, .inr ⟨rfl, rfl⟩⟩
    rw [hjoin, List.singleton_append, ← ht]
    exact hsplit
  · obtain ⟨rfl, rfl⟩ := Prod.mk.inj (h.symm.trans hsign)
    refine ⟨_, ['+'], _, _, ?_, hspace, hne, hdigits, hrest, .inl ⟨.inr rfl, rfl⟩⟩
    rw [hjoin, List.singleton_append, ← ht]
    exact hsplit
  · obtain ⟨rfl, rfl⟩ := Prod.mk.inj (h.symm.trans hsign)
    refine ⟨_, [], _, _, ?_, hspace, hne, hdigits, hrest, .inl ⟨.inl rfl, rfl⟩⟩
    rw [hjoin, List.nil_append]
    exact hsplit

/-- **The strings that `stoi` accepts**: numerals of the range of an `int`,
whatever follows them. -/
theorem stoi_eq_ok_iff {s : String} {n : Int32} :
    stoi s = .ok n ↔
      ∃ value, Numeral s.toList value ∧ (-2 ^ 31 ≤ value ∧ value < 2 ^ 31) ∧
        n = Int32.ofInt value := by
  constructor
  · intro h
    rcases hsign : sign (s.toList.dropWhile isSpace) with ⟨negative, tail⟩
    rw [stoi_of_sign hsign] at h
    split at h
    · cases h
    · rename_i hne
      split at h
      · rename_i hrange
        exact ⟨_, numeral_of_read hsign hne, hrange, (Except.ok.inj h).symm⟩
      · cases h
  · rintro ⟨value, hnum, hrange, rfl⟩
    obtain ⟨negative, tail, hsign, hne, hvalue⟩ := hnum.read
    rw [stoi_of_sign hsign, if_neg hne, ← hvalue, if_pos hrange]

theorem Numeral.ne_nil {s : List Char} {value : ℤ} (h : Numeral s value) : s ≠ [] := by
  obtain ⟨space, sgn, digits, rest, rfl, -, hne, -⟩ := h
  simp [hne]

/-- A text has at most one value. -/
theorem Numeral.unique {s : List Char} {v v' : ℤ} (h : Numeral s v) (h' : Numeral s v') :
    v = v' := by
  obtain ⟨negative, tail, hsign, -, hvalue⟩ := h.read
  obtain ⟨negative', tail', hsign', -, hvalue'⟩ := h'.read
  obtain ⟨rfl, rfl⟩ := Prod.mk.inj (hsign.symm.trans hsign')
  rw [hvalue, hvalue']

/-- Digits alone are a numeral. -/
theorem numeral_digits {digits : List Char} (hne : digits ≠ [])
    (hdigits : ∀ c ∈ digits, c.isDigit = true) : Numeral digits (decimal digits) :=
  ⟨[], [], digits, [], by simp, by simp, hne, hdigits, by simp, .inl ⟨.inl rfl, rfl⟩⟩

theorem decimal_eq (digits : List Char) : decimal digits = Nat.ofDigitChars 10 digits 0 := by
  rw [Nat.ofDigitChars_eq_foldl]
  rfl

/-- The digits of a number stand for it. -/
theorem decimal_repr (n : ℕ) : decimal n.repr.toList = n ∧ n.repr.toList ≠ [] ∧
    ∀ c ∈ n.repr.toList, c.isDigit = true := by
  rw [Nat.toList_repr, decimal_eq, Nat.ofDigitChars_toDigits (by decide) (by decide)]
  refine ⟨rfl, Nat.toDigits_ne_nil, fun c hc => ?_⟩
  exact Nat.isDigit_of_mem_toDigits (by decide) (by decide) hc

/-- **A printed number is read back.** -/
theorem stoi_toString {n : ℕ} (h : n < 2 ^ 31) : stoi (toString n) = .ok (Int32.ofNat n) := by
  obtain ⟨hvalue, hne, hdigits⟩ := decimal_repr n
  refine stoi_eq_ok_iff.mpr ⟨n, ?_, by omega, rfl⟩
  have hnum := numeral_digits hne hdigits
  rwa [hvalue, ← Nat.toString_eq_repr] at hnum

/-- **A printed `int` is read back.** -/
theorem stoi_toString_int (n : Int32) : stoi (toString n.toInt) = .ok n := by
  have hlo := n.le_toInt
  have hhi := n.toInt_lt
  refine stoi_eq_ok_iff.mpr ⟨n.toInt, ?_, by omega, by simp⟩
  rw [Int.toString_eq_repr, Int.repr_eq_if]
  split
  · rename_i hpos
    obtain ⟨hvalue, hne, hdigits⟩ := decimal_repr n.toInt.toNat
    have hnum := numeral_digits hne hdigits
    rwa [hvalue, Int.toNat_of_nonneg hpos] at hnum
  · rename_i hneg
    obtain ⟨hvalue, hne, hdigits⟩ := decimal_repr (-n.toInt).toNat
    refine ⟨[], ['-'], (-n.toInt).toNat.repr.toList, [], by simp, by simp, hne, hdigits, by simp,
      .inr ⟨rfl, ?_⟩⟩
    rw [hvalue]
    omega

end StdString
