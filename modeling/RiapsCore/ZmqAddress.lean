/-
The addresses that the validator accepts.

`IsValidZmqAddress` takes what follows the first `tcp://`, splits it at the first
`':'`, reads the port with `stoi`, whose exceptions it does not catch, and leaves
the address to `inet_pton`.  It looks neither at what comes before `tcp://` nor
at what follows the digits of the port, and its range ends before 65535:

* `split_of_isZmqAddress` — an address of the grammar is split as it is written;
* `isZmqAddress_iff` — which texts, split and read in this way, are in the grammar;
* `address_parser_exact_iff` — the texts on which the parser is right.
-/
import RiapsCore.Validator

open StdString

namespace Riaps

/-- One to three digits with a value up to 255. -/
def Octet (s : List Char) : Prop :=
  s ≠ [] ∧ s.length ≤ 3 ∧ (∀ c ∈ s, c.isDigit = true) ∧ decimal s ≤ 255

instance (s : List Char) : Decidable (Octet s) :=
  -- there are finitely many characters, but not few
  have : Decidable (∀ c ∈ s, c.isDigit = true) := List.decidableBAll _ s
  inferInstanceAs (Decidable (_ ∧ _ ∧ _ ∧ _))

/-- Four octets with dots between them. -/
def DottedQuad (s : String) : Prop :=
  (s.toList.splitOn '.').length = 4 ∧ ∀ p ∈ s.toList.splitOn '.', Octet p

instance (s : String) : Decidable (DottedQuad s) := inferInstanceAs (Decidable (_ ∧ _))

/-- `tcp://`, an IPv4 address, `':'` and a port number, and nothing else. -/
def IsZmqAddress (s : String) : Prop :=
  ∃ address port : String, s = "tcp://" ++ address ++ ":" ++ port ∧ DottedQuad address ∧
    port.toList ≠ [] ∧ (∀ c ∈ port.toList, c.isDigit = true) ∧
    1 ≤ decimal port.toList ∧ decimal port.toList ≤ 65535

/-- The parser returns, and is right about the text. -/
def ParsesExactly (inetPton : String → Bool) (s : String) : Prop :=
  ∃ b, isValidZmqAddress inetPton s = .ok b ∧ (b = true ↔ IsZmqAddress s)

/-- The text splits into an address and a port, where the parser splits it. -/
def Splits (s address port : String) : Prop :=
  ∃ rest, afterFirst "tcp://".toList s.toList = some rest ∧
    cut ':' (String.ofList rest) = some (address, port)

/-- The text is nothing but its parts, the address has no NUL, and the port is
made of digits. -/
def Plain (s address port : String) : Prop :=
  s = "tcp://" ++ address ++ ":" ++ port ∧ '\x00' ∉ address.toList ∧
    ∀ c ∈ port.toList, c.isDigit = true

/-- If the text splits, the port is a numeral of the range of an `int`, and with
an IPv4 address up to the first NUL, the text is plain if the port is between 1
and 65534, and is not if the port is 65535. -/
def ReadAsMeant (s : String) : Prop :=
  ∀ address port, Splits s address port →
    ∃ value, Numeral port.toList value ∧ (-2 ^ 31 ≤ value ∧ value < 2 ^ 31) ∧
      (DottedQuad (cStr address) →
        (1 ≤ value ∧ value ≤ 65534 → Plain s address port) ∧
        (value = 65535 → ¬ Plain s address port))

/-! ### The grammar -/

theorem mem_or_mem_splitOnP {p : Char → Bool} {s : List Char} {c : Char} (hc : c ∈ s) :
    p c = true ∨ ∃ part ∈ s.splitOnP p, c ∈ part := by
  induction s with
  | nil => cases hc
  | cons x s ih =>
    rw [List.splitOnP_cons_eq_if_modifyHead]
    by_cases hx : p x = true
    · rw [if_pos hx]
      rcases List.mem_cons.mp hc with rfl | hc
      · exact .inl hx
      · refine (ih hc).imp_right fun ⟨part, hpart, hc⟩ => ?_
        exact ⟨part, List.mem_cons_of_mem _ hpart, hc⟩
    · rw [if_neg hx]
      -- the character joins the first part
      rcases hparts : s.splitOnP p with _ | ⟨first, parts⟩
      · exact absurd hparts (List.splitOnP_ne_nil p s)
      · rw [hparts] at ih
        rw [List.modifyHead_cons]
        rcases List.mem_cons.mp hc with rfl | hc
        · exact .inr ⟨c :: first, List.mem_cons_self, List.mem_cons_self⟩
        · refine (ih hc).imp_right fun ⟨part, hpart, hc⟩ => ?_
          rcases List.mem_cons.mp hpart with rfl | hpart
          · exact ⟨x :: part, List.mem_cons_self, List.mem_cons_of_mem _ hc⟩
          · exact ⟨part, List.mem_cons_of_mem _ hpart, hc⟩

/-- An IPv4 address is made of digits and dots. -/
theorem DottedQuad.chars {s : String} (h : DottedQuad s) {c : Char} (hc : c ∈ s.toList) :
    c = '.' ∨ c.isDigit = true := by
  rcases mem_or_mem_splitOnP (p := (· == '.')) hc with hdot | ⟨part, hpart, hc⟩
  · exact .inl (by simpa using hdot)
  · exact .inr ((h.2 part hpart).2.2.1 c hc)

theorem DottedQuad.colon_notMem {s : String} (h : DottedQuad s) : ':' ∉ s.toList := by
  intro hc
  have hchars := h.chars hc
  revert hchars
  decide

theorem DottedQuad.nul_notMem {s : String} (h : DottedQuad s) : '\x00' ∉ s.toList := by
  intro hc
  have hchars := h.chars hc
  revert hchars
  decide

theorem splits_of_eq {s address port : String} (h : s = "tcp://" ++ address ++ ":" ++ port)
    (hcolon : ':' ∉ address.toList) : Splits s address port := by
  refine ⟨address.toList ++ ':' :: port.toList, ?_, cut_eq_some_iff.mpr ⟨?_, hcolon⟩⟩
  · have hlist : s.toList = "tcp://".toList ++ (address.toList ++ ':' :: port.toList) := by
      rw [h]
      simp
    rw [hlist, afterFirst_append]
  · rw [String.toList_ofList]

theorem Splits.unique {s a p a' p' : String} (h : Splits s a p) (h' : Splits s a' p') :
    a = a' ∧ p = p' := by
  obtain ⟨rest, hrest, hcut⟩ := h
  obtain ⟨rest', hrest', hcut'⟩ := h'
  obtain rfl := Option.some_inj.mp (hrest.symm.trans hrest')
  exact Prod.mk.inj (Option.some_inj.mp (hcut.symm.trans hcut'))

/-- **The grammar, for a text that splits.** -/
theorem isZmqAddress_iff {s address port : String} (h : Splits s address port) {value : ℤ}
    (hvalue : Numeral port.toList value) :
    IsZmqAddress s ↔
      Plain s address port ∧ DottedQuad (cStr address) ∧ 1 ≤ value ∧ value ≤ 65535 := by
  constructor
  · rintro ⟨address', port', hs, hquad, hne, hdigits, hrange⟩
    obtain ⟨rfl, rfl⟩ := h.unique (splits_of_eq hs hquad.colon_notMem)
    have hdecimal : value = decimal port.toList := hvalue.unique (numeral_digits hne hdigits)
    refine ⟨⟨hs, hquad.nul_notMem, hdigits⟩, ?_, by omega, by omega⟩
    rwa [cStr_of_notMem hquad.nul_notMem]
  · rintro ⟨⟨hs, hnul, hdigits⟩, hquad, hlow, hhigh⟩
    rw [cStr_of_notMem hnul] at hquad
    have hdecimal : value = decimal port.toList :=
      hvalue.unique (numeral_digits hvalue.ne_nil hdigits)
    exact ⟨address, port, hs, hquad, hvalue.ne_nil, hdigits, by omega, by omega⟩

theorem not_isZmqAddress {s : String} (h : ∀ address port, ¬ Splits s address port) :
    ¬ IsZmqAddress s := by
  rintro ⟨address, port, hs, hquad, -⟩
  exact h address port (splits_of_eq hs hquad.colon_notMem)

/-! ### The parser -/

theorem isValidZmqAddress_of_not_splits (inetPton : String → Bool) {s : String}
    (h : ∀ address port, ¬ Splits s address port) :
    isValidZmqAddress inetPton s = .ok false := by
  rw [isValidZmqAddress]
  rcases hrest : afterFirst "tcp://".toList s.toList with _ | rest
  · rfl
  · dsimp only
    rcases hcut : cut ':' (String.ofList rest) with _ | ⟨address, port⟩
    · rfl
    · exact absurd ⟨rest, hrest, hcut⟩ (h address port)

theorem isValidZmqAddress_of_splits (inetPton : String → Bool) {s address port : String}
    (h : Splits s address port) :
    isValidZmqAddress inetPton s
      = match stoi port with
        | .error e => .error e
        | .ok n => if n ≤ 0 ∨ n ≥ 65535 then .ok false else .ok (inetPton (cStr address)) := by
  obtain ⟨rest, hrest, hcut⟩ := h
  rcases hstoi : stoi port with e | n
  · simp only [isValidZmqAddress, hrest, hcut, hstoi]
  · simp only [isValidZmqAddress, hrest, hcut, hstoi]

/-- The test of the range, on the value of the port. -/
theorem port_out_of_range_iff {value : ℤ} (h : -2 ^ 31 ≤ value ∧ value < 2 ^ 31) :
    Int32.ofInt value ≤ 0 ∨ Int32.ofInt value ≥ 65535 ↔ value ≤ 0 ∨ 65535 ≤ value := by
  rw [ge_iff_le, Int32.le_iff_toInt_le, Int32.le_iff_toInt_le, Int32.toInt_ofInt_of_le h.1 h.2]
  rfl

section

variable {inetPton : String → Bool} {s address port : String} {value : ℤ}

/-- The parser on a port that `stoi` reads. -/
theorem parsesExactly_of_numeral (hpton : ∀ a, inetPton a = true ↔ DottedQuad a)
    (h : Splits s address port) (hnum : Numeral port.toList value)
    (hrange : -2 ^ 31 ≤ value ∧ value < 2 ^ 31) :
    ParsesExactly inetPton s ↔
      (DottedQuad (cStr address) →
        (1 ≤ value ∧ value ≤ 65534 → Plain s address port) ∧
        (value = 65535 → ¬ Plain s address port)) := by
  have hstoi : stoi port = .ok (Int32.ofInt value) :=
    stoi_eq_ok_iff.mpr ⟨value, hnum, hrange, rfl⟩
  rw [ParsesExactly, isValidZmqAddress_of_splits inetPton h, hstoi]
  dsimp only
  rw [isZmqAddress_iff h hnum]
  by_cases hout : value ≤ 0 ∨ 65535 ≤ value
  · rw [if_pos ((port_out_of_range_iff hrange).mpr hout)]
    simp only [Except.ok.injEq, exists_eq_left', Bool.false_eq_true, false_iff]
    constructor
    · intro hno hquad
      refine ⟨fun hin => by omega, fun hlast hplain => ?_⟩
      exact hno ⟨hplain, hquad, by omega, by omega⟩
    · rintro h ⟨hplain, hquad, hlow, hhigh⟩
      exact (h hquad).2 (by omega) hplain
  · rw [if_neg ((port_out_of_range_iff hrange).not.mpr hout)]
    simp only [Except.ok.injEq, exists_eq_left', hpton]
    constructor
    · intro hiff hquad
      exact ⟨fun _ => (hiff.mp hquad).1, fun hlast => by omega⟩
    · intro h
      refine ⟨fun hquad => ?_, fun hmeant => hmeant.2.1⟩
      exact ⟨(h hquad).1 ⟨by omega, by omega⟩, hquad, by omega, by omega⟩

/-- A port that is no numeral ends in an exception. -/
theorem numeral_of_parsesExactly (h : Splits s address port) (hparses : ParsesExactly inetPton s) :
    ∃ value, Numeral port.toList value ∧ -2 ^ 31 ≤ value ∧ value < 2 ^ 31 := by
  obtain ⟨b, hb, -⟩ := hparses
  rw [isValidZmqAddress_of_splits inetPton h] at hb
  rcases hstoi : stoi port with e | n
  · rw [hstoi] at hb
    cases hb
  · obtain ⟨value, hnum, hrange, -⟩ := stoi_eq_ok_iff.mp hstoi
    exact ⟨value, hnum, hrange⟩

/-- **When the address parser is right.**  With an `inet_pton` that accepts
exactly IPv4 addresses, the parser returns and accepts a text iff it is in the
grammar, iff the text is read as it is meant. -/
theorem address_parser_exact_iff (hpton : ∀ a, inetPton a = true ↔ DottedQuad a) (s : String) :
    ParsesExactly inetPton s ↔ ReadAsMeant s := by
  constructor
  · intro hparses address port h
    obtain ⟨value, hnum, hrange⟩ := numeral_of_parsesExactly h hparses
    exact ⟨value, hnum, hrange, (parsesExactly_of_numeral hpton h hnum hrange).mp hparses⟩
  · intro hmeant
    by_cases hsplits : ∃ address port, Splits s address port
    · obtain ⟨address, port, h⟩ := hsplits
      obtain ⟨value, hnum, hrange, hplain⟩ := hmeant address port h
      exact (parsesExactly_of_numeral hpton h hnum hrange).mpr hplain
    · have hno : ∀ address port, ¬ Splits s address port :=
        fun address port h => hsplits ⟨address, port, h⟩
      exact ⟨false, isValidZmqAddress_of_not_splits inetPton hno,
        by simp [not_isZmqAddress hno]⟩

end

/-- An `inet_pton` for IPv4 addresses. -/
def inetPton (a : String) : Bool := decide (DottedQuad a)

/-- The endpoint of a validator. -/
theorem address_parser_exact_endpoint :
    isValidZmqAddress inetPton "tcp://10.0.0.2:40001" = .ok true ∧
      ParsesExactly inetPton "tcp://10.0.0.2:40001" := by
  refine ⟨by decide, (address_parser_exact_iff (fun a => decide_eq_true_iff) _).mpr ?_⟩
  intro address port h
  have hsplit : Splits "tcp://10.0.0.2:40001" "10.0.0.2" "40001" := splits_of_eq rfl (by decide)
  obtain ⟨rfl, rfl⟩ := h.unique hsplit
  have hdigits : ∀ c ∈ "40001".toList, c.isDigit = true := List.all_eq_true.mp (by decide)
  refine ⟨40001, numeral_digits (by decide) hdigits, by decide, fun _ => ⟨fun _ => ?_, nofun⟩⟩
  exact ⟨rfl, by decide, hdigits⟩

/-- A port that is no number ends in an exception, the last port is rejected, and
text around an address is ignored. -/
theorem address_parser_wrong :
    ¬ ParsesExactly inetPton "tcp://10.0.0.2:abc" ∧
      ¬ ParsesExactly inetPton "tcp://10.0.0.2:65535" ∧
      ¬ ParsesExactly inetPton "udp+tcp://10.0.0.2: 80/x" := by
  refine ⟨?_, ?_, ?_⟩
  · rintro ⟨b, hb, -⟩
    rw [show isValidZmqAddress inetPton "tcp://10.0.0.2:abc" = .error .invalidArgument by decide]
      at hb
    cases hb
  · rintro ⟨b, hb, hiff⟩
    rw [show isValidZmqAddress inetPton "tcp://10.0.0.2:65535" = .ok false by decide] at hb
    obtain rfl := Except.ok.inj hb
    have hdigits : ∀ c ∈ "65535".toList, c.isDigit = true := List.all_eq_true.mp (by decide)
    cases hiff.mpr ⟨"10.0.0.2", "65535", rfl, by decide, by decide, hdigits, by decide, by decide⟩
  · rintro ⟨b, hb, hiff⟩
    rw [show isValidZmqAddress inetPton "udp+tcp://10.0.0.2: 80/x" = .ok true by decide] at hb
    obtain rfl := Except.ok.inj hb
    obtain ⟨address, port, hs, -⟩ := hiff.mp rfl
    have hfirst := congrArg (fun s => s.toList.head?) hs
    simp at hfirst

end Riaps
