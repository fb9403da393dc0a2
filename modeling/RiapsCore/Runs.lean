/-
Runs of a guarded step function.

A system is a step function `step : σ → ℓ → Option σ`: `step s l = some s'`
when the label `l` is enabled in `s` and leads to `s'`, `none` otherwise.
All nondeterminism (clock readings, random draws, delivery order) sits in the
labels.  A `Run` records the transitions it took, so a property of the past
("was sent", "was leader in term T") is a property of the recorded list and
needs no ghost state:

* `Run.invariant` — an inductive invariant under a condition on the steps
  taken holds before and after every transition of the run;
* `Run.invariant_iff` — when the condition is exactly what keeps the invariant,
  a run stays in it iff all its steps meet the condition;
* `Run.since` — what holds at the end was entered once and has held since;
* `Run.split` — a run over `tr₁ ++ tr₂` passes through a middle state;
* `Since`, `since_snoc` — a transition met one condition and those after it another;
* `Along` — a condition on each transition and the transitions before it, with
  the exact rule `Run.along_iff` for invariants that speak of the past;
* `ClockFrom`, `ReadingsFrom` — the clock readings in the labels do not decrease;
* `Run.project` — the part of a run that one component sees is a run of that
  component;
* `WithExtra.keeps` — the two-run rule, for runs one of which takes extra steps;
* `exists_run_of_replay`, `exists_run_snoc_of_replay`, `exists_run_split_of_replay`
  — a label list replayed by evaluation gives a run, so a concrete scenario is
  checked by `decide`.
-/
import Mathlib.Data.List.Induction
import Mathlib.Data.List.Pairwise
import Mathlib.Order.Basic
import Mathlib.Tactic.Common

namespace Runs

variable {σ ℓ σ' ℓ' : Type*}

/-- One recorded step of a run. -/
structure Transition (σ ℓ : Type*) where
  pre : σ
  label : ℓ
  post : σ

/-- `Run step s₀ tr s`: starting in `s₀`, the transitions `tr` were taken in
this order and led to `s`. -/
inductive Run (step : σ → ℓ → Option σ) (s₀ : σ) : List (Transition σ ℓ) → σ → Prop
  | nil : Run step s₀ [] s₀
  | snoc {tr : List (Transition σ ℓ)} {s s' : σ} {l : ℓ} :
      Run step s₀ tr s → step s l = some s' → Run step s₀ (tr ++ [⟨s, l, s'⟩]) s'

variable {step : σ → ℓ → Option σ} {s₀ s : σ} {tr tr₁ tr₂ : List (Transition σ ℓ)}

theorem Run.append {m : σ} (h₁ : Run step s₀ tr₁ m) (h₂ : Run step m tr₂ s) :
    Run step s₀ (tr₁ ++ tr₂) s := by
  induction h₂ with
  | nil => simpa using h₁
  | snoc _ hs ih =>
    rw [← List.append_assoc]
    exact .snoc ih hs

theorem Run.cons {m : σ} {l : ℓ} (hs : step s₀ l = some m) (h : Run step m tr s) :
    Run step s₀ (⟨s₀, l, m⟩ :: tr) s := by
  have hone : Run step s₀ [⟨s₀, l, m⟩] m := .snoc .nil hs
  exact hone.append h

/-- The last transition of a run, read off its recorded list. -/
theorem Run.last {t : Transition σ ℓ} (h : Run step s₀ (tr ++ [t]) s) :
    Run step s₀ tr t.pre ∧ step t.pre t.label = some t.post ∧ t.post = s := by
  -- the index of the run has to be a variable for the case split
  generalize htr : tr ++ [t] = whole at h
  cases h with
  | nil => simp at htr
  | snoc hr hs =>
    obtain ⟨rfl, ht⟩ := List.append_inj' htr rfl
    rw [List.cons.injEq] at ht
    rw [ht.1]
    exact ⟨hr, hs, rfl⟩

theorem Run.post_of_getLast {t : Transition σ ℓ} (h : Run step s₀ tr s) (ht : t ∈ tr.getLast?) :
    t.post = s := by
  obtain ⟨tr', rfl⟩ := List.getLast?_eq_some_iff.mp ht
  exact h.last.2.2

/-- A run over an appended list passes through a middle state. -/
theorem Run.split (h : Run step s₀ (tr₁ ++ tr₂) s) :
    ∃ m, Run step s₀ tr₁ m ∧ Run step m tr₂ s := by
  induction tr₂ using List.reverseRecOn generalizing s with
  | nil =>
    rw [List.append_nil] at h
    exact ⟨s, h, .nil⟩
  | append_singleton tr t ih =>
    rw [← List.append_assoc] at h
    obtain ⟨hr, hs, rfl⟩ := h.last
    obtain ⟨m, h₁, h₂⟩ := ih hr
    exact ⟨m, h₁, .snoc h₂ hs⟩

theorem Run.eq_of_nil (h : Run step s₀ [] s) : s = s₀ := by
  generalize hnil : ([] : List (Transition σ ℓ)) = none at h
  cases h with
  | nil => rfl
  | snoc => simp at hnil

/-- A run over a non-empty list starts with its first transition. -/
theorem Run.head {t : Transition σ ℓ} (h : Run step s₀ (t :: tr) s) :
    t.pre = s₀ ∧ step t.pre t.label = some t.post ∧ Run step t.post tr s := by
  have h' : Run step s₀ ([t] ++ tr) s := h
  obtain ⟨m, h₁, h₂⟩ := h'.split
  have h₁' : Run step s₀ ([] ++ [t]) m := h₁
  obtain ⟨hr, hs, rfl⟩ := h₁'.last
  exact ⟨hr.eq_of_nil, hs, h₂⟩

/-- Every transition of a run is a step, taken in a state that the transitions
before it reach. -/
theorem Run.at_split {t : Transition σ ℓ} (h : Run step s₀ (tr₁ ++ t :: tr₂) s) :
    Run step s₀ tr₁ t.pre ∧ step t.pre t.label = some t.post ∧ Run step t.post tr₂ s := by
  obtain ⟨m, h₁, h₂⟩ := h.split
  obtain ⟨rfl, hs, h₃⟩ := h₂.head
  exact ⟨h₁, hs, h₃⟩

theorem Run.step_of_mem (h : Run step s₀ tr s) {t : Transition σ ℓ} (ht : t ∈ tr) :
    step t.pre t.label = some t.post := by
  obtain ⟨tr₁, tr₂, rfl⟩ := List.append_of_mem ht
  exact h.at_split.2.1

/-- **The invariant rule.**  An invariant that holds at the start and is kept
by every step meeting the condition `C` holds, in a run whose steps all meet
`C`, at its end and before and after each of its transitions. -/
theorem Run.invariant (I : σ → Prop) (C : σ → ℓ → Prop) (h₀ : I s₀)
    (hstep : ∀ s l s', C s l → I s → step s l = some s' → I s')
    (h : Run step s₀ tr s) (hC : ∀ t ∈ tr, C t.pre t.label) :
    I s ∧ ∀ t ∈ tr, I t.pre ∧ I t.post := by
  induction h with
  | nil => exact ⟨h₀, by simp⟩
  | @snoc tr s s' l _ hs ih =>
    obtain ⟨hI, hall⟩ := ih fun t ht => hC t (List.mem_append_left _ ht)
    have hI' : I s' :=
      hstep s l s' (hC ⟨s, l, s'⟩ (List.mem_append_right _ (List.mem_singleton.mpr rfl))) hI hs
    refine ⟨hI', fun t ht => ?_⟩
    rcases List.mem_append.mp ht with ht | ht
    · exact hall t ht
    · rw [List.mem_singleton.mp ht]
      exact ⟨hI, hI'⟩

theorem Run.pre_of_post {I : σ → Prop} (h₀ : I s₀) (h : Run step s₀ tr s)
    (hpost : ∀ t ∈ tr, I t.post) : I s ∧ ∀ t ∈ tr, I t.pre := by
  induction h with
  | nil => exact ⟨h₀, by simp⟩
  | @snoc tr s s' l _ hs ih =>
    obtain ⟨hI, hall⟩ := ih fun t ht => hpost t (List.mem_append_left _ ht)
    refine ⟨hpost ⟨s, l, s'⟩ (by simp), fun t ht => ?_⟩
    rcases List.mem_append.mp ht with ht | ht
    · exact hall t ht
    · rw [List.mem_singleton.mp ht]
      exact hI

/-- **The exact invariant rule.**  When, from a state in `I`, a step leads into
`I` iff it meets `C`, a run stays in `I` iff its steps all meet `C`. -/
theorem Run.invariant_iff (I : σ → Prop) (C : σ → ℓ → Prop) (h₀ : I s₀)
    (hstep : ∀ s l s', I s → step s l = some s' → (I s' ↔ C s l))
    (h : Run step s₀ tr s) : (∀ t ∈ tr, I t.post) ↔ ∀ t ∈ tr, C t.pre t.label := by
  constructor
  · intro hpost t ht
    have hpre := (h.pre_of_post h₀ hpost).2 t ht
    exact (hstep _ _ _ hpre (h.step_of_mem ht)).mp (hpost t ht)
  · intro hC t ht
    have hkeep : ∀ s l s', C s l → I s → step s l = some s' → I s' :=
      fun s l s' hC hI hs => (hstep s l s' hI hs).mpr hC
    exact ((h.invariant I C h₀ hkeep hC).2 t ht).2

/-- **The last entry into a property.**  A property that holds at the end of a
run and not at its start was entered in some transition and has held ever
since. -/
theorem Run.since (P : σ → Prop) (h : Run step s₀ tr s) (h₀ : ¬ P s₀) (hs : P s) :
    ∃ tr₁ t tr₂, tr = tr₁ ++ t :: tr₂ ∧ ¬ P t.pre ∧ P t.post ∧
      ∀ u ∈ tr₂, P u.pre ∧ P u.post := by
  induction h with
  | nil => exact absurd hs h₀
  | @snoc tr s s' l _ _ ih =>
    by_cases hP : P s
    · obtain ⟨tr₁, t, tr₂, rfl, hpre, hpost, hall⟩ := ih hP
      refine ⟨tr₁, t, tr₂ ++ [⟨s, l, s'⟩], by simp, hpre, hpost, fun u hu => ?_⟩
      rcases List.mem_append.mp hu with hu | hu
      · exact hall u hu
      · rw [List.mem_singleton.mp hu]
        exact ⟨hP, hs⟩
    · exact ⟨tr, ⟨s, l, s'⟩, [], rfl, hP, hs, by simp⟩

/-- Some transition meets `P`, and each one after it meets `Q` with it. -/
def Since (P : Transition σ ℓ → Prop) (Q : Transition σ ℓ → Transition σ ℓ → Prop)
    (tr : List (Transition σ ℓ)) : Prop :=
  ∃ tr₁ t tr₂, tr = tr₁ ++ t :: tr₂ ∧ P t ∧ ∀ u ∈ tr₂, Q t u

section

variable {P : Transition σ ℓ → Prop} {Q : Transition σ ℓ → Transition σ ℓ → Prop}
  {t : Transition σ ℓ}

theorem not_since_nil : ¬ Since P Q [] := by
  rintro ⟨tr₁, t, tr₂, htr, -⟩
  simp at htr

/-- **The step rule.**  The transition that meets `P` is the last one, or it is an
earlier one and the last one meets `Q` with it. -/
theorem since_snoc : Since P Q (tr ++ [t]) ↔ P t ∨ Since (fun u => P u ∧ Q u t) Q tr := by
  constructor
  · rintro ⟨tr₁, u, tr₂, htr, hu, hafter⟩
    rcases List.eq_nil_or_concat tr₂ with rfl | ⟨tr₃, v, rfl⟩
    · obtain ⟨-, ht⟩ := List.append_inj' htr rfl
      rw [(List.cons.inj ht).1]
      exact .inl hu
    · rw [List.concat_eq_append] at htr hafter
      rw [← List.cons_append, ← List.append_assoc] at htr
      obtain ⟨rfl, hv⟩ := List.append_inj' htr rfl
      rw [List.forall_mem_append, List.forall_mem_singleton, ← (List.cons.inj hv).1] at hafter
      exact .inr ⟨tr₁, u, tr₃, rfl, ⟨hu, hafter.2⟩, hafter.1⟩
  · rintro (ht | ⟨tr₁, u, tr₂, rfl, ⟨hu, hut⟩, hafter⟩)
    · exact ⟨tr, t, [], rfl, ht, fun u hu => absurd hu List.not_mem_nil⟩
    · refine ⟨tr₁, u, tr₂ ++ [t], by rw [List.append_assoc, List.cons_append], hu, ?_⟩
      rw [List.forall_mem_append, List.forall_mem_singleton]
      exact ⟨hafter, hut⟩

/-- What does not depend on the transition that meets `P` stands outside. -/
theorem since_and_const {c : Prop} : Since (fun u => P u ∧ c) Q tr ↔ Since P Q tr ∧ c := by
  constructor
  · rintro ⟨tr₁, t, tr₂, htr, ⟨ht, hc⟩, hafter⟩
    exact ⟨⟨tr₁, t, tr₂, htr, ht, hafter⟩, hc⟩
  · rintro ⟨⟨tr₁, t, tr₂, htr, ht, hafter⟩, hc⟩
    exact ⟨tr₁, t, tr₂, htr, ⟨ht, hc⟩, hafter⟩

end

/-! ### Clock readings -/

/-- The readings of `clock` in the labels do not decrease, starting from
`start`. -/
def ClockFrom {τ : Type*} [LE τ] (clock : ℓ → τ) (start : τ) (tr : List (Transition σ ℓ)) :
    Prop :=
  (start :: tr.map fun t => clock t.label).Pairwise (· ≤ ·)

instance {τ : Type*} [LE τ] [DecidableLE τ] (clock : ℓ → τ) (start : τ)
    (tr : List (Transition σ ℓ)) : Decidable (ClockFrom clock start tr) :=
  inferInstanceAs (Decidable (List.Pairwise _ _))

theorem ClockFrom.le_of_split {τ : Type*} [LE τ] {clock : ℓ → τ} {start : τ}
    {t u : Transition σ ℓ} (h : ClockFrom clock start (tr₁ ++ t :: tr₂)) (hu : u ∈ tr₁) :
    clock u.label ≤ clock t.label := by
  rw [ClockFrom, List.map_append, List.map_cons, List.pairwise_cons] at h
  exact (List.pairwise_append.mp h.2).2.2 _ (List.mem_map.mpr ⟨u, hu, rfl⟩) _ (by simp)

theorem ClockFrom.start_le {τ : Type*} [LE τ] {clock : ℓ → τ} {start : τ} {t : Transition σ ℓ}
    (h : ClockFrom clock start tr) (ht : t ∈ tr) : start ≤ clock t.label :=
  (List.pairwise_cons.mp h).1 _ (List.mem_map_of_mem ht)

theorem ClockFrom.left {τ : Type*} [LE τ] {clock : ℓ → τ} {start : τ}
    (h : ClockFrom clock start (tr₁ ++ tr₂)) : ClockFrom clock start tr₁ := by
  rw [ClockFrom, List.map_append, ← List.cons_append] at h
  exact (List.pairwise_append.mp h).1

/-- The readings that each label makes, in order, do not decrease, starting from
`start`. -/
def ReadingsFrom {τ : Type*} [LE τ] (readings : ℓ → List τ) (start : τ)
    (tr : List (Transition σ ℓ)) : Prop :=
  (start :: tr.flatMap fun t => readings t.label).Pairwise (· ≤ ·)

instance {τ : Type*} [LE τ] [DecidableLE τ] (readings : ℓ → List τ) (start : τ)
    (tr : List (Transition σ ℓ)) : Decidable (ReadingsFrom readings start tr) :=
  inferInstanceAs (Decidable (List.Pairwise _ _))

section

variable {τ : Type*} [LE τ] {readings : ℓ → List τ} {start : τ} {t u : Transition σ ℓ} {a b : τ}

theorem ReadingsFrom.start_le (h : ReadingsFrom readings start tr) (ht : t ∈ tr)
    (ha : a ∈ readings t.label) : start ≤ a :=
  (List.pairwise_cons.mp h).1 a (List.mem_flatMap.mpr ⟨t, ht, ha⟩)

theorem ReadingsFrom.right (h : ReadingsFrom readings start (tr₁ ++ tr₂)) :
    ReadingsFrom readings start tr₂ := by
  rw [ReadingsFrom, List.flatMap_append, List.pairwise_cons] at h
  rw [ReadingsFrom, List.pairwise_cons]
  refine ⟨fun x hx => h.1 x (List.mem_append_right _ hx), ?_⟩
  exact (List.pairwise_append.mp h.2).2.1

/-- The readings of one label. -/
theorem ReadingsFrom.of_mem (h : ReadingsFrom readings start tr) (ht : t ∈ tr) :
    (readings t.label).Pairwise (· ≤ ·) := by
  obtain ⟨tr₁, tr₂, rfl⟩ := List.append_of_mem ht
  have h' := h.right
  rw [ReadingsFrom, List.flatMap_cons, List.pairwise_cons] at h'
  exact (List.pairwise_append.mp h'.2).1

/-- What a label reads is not before what an earlier one has read. -/
theorem ReadingsFrom.le_of_split (h : ReadingsFrom readings start (tr₁ ++ t :: tr₂))
    (hu : u ∈ tr₁) (ha : a ∈ readings u.label) (hb : b ∈ readings t.label) : a ≤ b := by
  rw [ReadingsFrom, List.flatMap_append, List.pairwise_cons] at h
  refine (List.pairwise_append.mp h.2).2.2 a (List.mem_flatMap.mpr ⟨u, hu, ha⟩) b ?_
  exact List.mem_flatMap.mpr ⟨t, List.mem_cons_self, hb⟩

theorem ReadingsFrom.le_of_cons (h : ReadingsFrom readings start (u :: tr)) (ht : t ∈ tr)
    (ha : a ∈ readings u.label) (hb : b ∈ readings t.label) : a ≤ b := by
  obtain ⟨tr₁, tr₂, rfl⟩ := List.append_of_mem ht
  have h' : ReadingsFrom readings start ((u :: tr₁) ++ t :: tr₂) := h
  exact h'.le_of_split List.mem_cons_self ha hb

/-- After the first label, time starts at any of its readings. -/
theorem ReadingsFrom.after (h : ReadingsFrom readings start (t :: tr))
    (ha : a ∈ readings t.label) : ReadingsFrom readings a tr := by
  rw [ReadingsFrom, List.pairwise_cons]
  constructor
  · intro b hb
    obtain ⟨u, hu, hb⟩ := List.mem_flatMap.mp hb
    exact h.le_of_cons hu ha hb
  · have htail : ReadingsFrom readings start ([t] ++ tr) := h
    exact (List.pairwise_cons.mp htail.right).2

end

/-- A label all of whose readings are `now` may come first. -/
theorem ReadingsFrom.cons_now {τ : Type*} [Preorder τ] {readings : ℓ → List τ} {start now : τ}
    {t : Transition σ ℓ} (h : ReadingsFrom readings now tr)
    (hnow : ∀ a ∈ readings t.label, a = now) (hle : start ≤ now) :
    ReadingsFrom readings start (t :: tr) := by
  obtain ⟨hfrom, hrest⟩ := List.pairwise_cons.mp h
  rw [ReadingsFrom, List.flatMap_cons, List.pairwise_cons, List.pairwise_append]
  refine ⟨fun a ha => ?_, ?_, hrest, fun a ha b hb => ?_⟩
  · rcases List.mem_append.mp ha with ha | ha
    · rw [hnow a ha]
      exact hle
    · exact hle.trans (hfrom a ha)
  · refine List.pairwise_of_forall_mem_list fun a ha b hb => ?_
    rw [hnow a ha, hnow b hb]
  · rw [hnow a ha]
    exact hfrom b hb

/-! ### Conditions on the past -/

/-- Every transition meets `C`, given the transitions before it; `past` are
those before the list. -/
def AlongFrom (C : List (Transition σ ℓ) → Transition σ ℓ → Prop) :
    List (Transition σ ℓ) → List (Transition σ ℓ) → Prop
  | _, [] => True
  | past, t :: rest => C past t ∧ AlongFrom C (past ++ [t]) rest

/-- Every transition meets `C`, given the transitions before it. -/
def Along (C : List (Transition σ ℓ) → Transition σ ℓ → Prop) (tr : List (Transition σ ℓ)) :
    Prop :=
  AlongFrom C [] tr

variable {C : List (Transition σ ℓ) → Transition σ ℓ → Prop}

instance AlongFrom.decidable [∀ past t, Decidable (C past t)] :
    ∀ past tr, Decidable (AlongFrom C past tr)
  | _, [] => .isTrue trivial
  | past, t :: rest =>
    have := AlongFrom.decidable (past ++ [t]) rest
    inferInstanceAs (Decidable (C past t ∧ AlongFrom C (past ++ [t]) rest))

instance [∀ past t, Decidable (C past t)] (tr : List (Transition σ ℓ)) :
    Decidable (Along C tr) :=
  inferInstanceAs (Decidable (AlongFrom C [] tr))

theorem alongFrom_snoc {past : List (Transition σ ℓ)} {t : Transition σ ℓ} :
    AlongFrom C past (tr ++ [t]) ↔ AlongFrom C past tr ∧ C (past ++ tr) t := by
  induction tr generalizing past with
  | nil => simp [AlongFrom]
  | cons u rest ih =>
    rw [List.cons_append, AlongFrom, AlongFrom, ih, List.append_assoc, and_assoc]
    rfl

theorem along_snoc {t : Transition σ ℓ} : Along C (tr ++ [t]) ↔ Along C tr ∧ C tr t :=
  alongFrom_snoc

theorem along_of_forall {D : Transition σ ℓ → Prop} (h : ∀ t ∈ tr, D t) :
    Along (fun _ t => D t) tr := by
  induction tr using List.reverseRecOn with
  | nil => trivial
  | append_singleton tr t ih =>
    exact along_snoc.mpr ⟨ih fun u hu => h u (by simp [hu]), h t (by simp)⟩

/-- No label reads an earlier time than one before it. -/
theorem ClockFrom.along {τ : Type*} [LE τ] {clock : ℓ → τ} {start : τ}
    (h : ClockFrom clock start tr) :
    Along (fun past t => ∀ u ∈ past, clock u.label ≤ clock t.label) tr := by
  induction tr using List.reverseRecOn with
  | nil => trivial
  | append_singleton tr t ih =>
    exact along_snoc.mpr ⟨ih h.left, fun u hu => h.le_of_split hu⟩

/-- **The exact rule for histories.**  When `I` relates the past to the state
and, where `I` holds, a step has the property `P` iff it meets `C`, and then
keeps `I`, all steps of a run have the property iff they all meet `C`.  Only
steps that satisfy `D`, as those of the run do, have to be looked at. -/
theorem Run.along_iff {P D : List (Transition σ ℓ) → Transition σ ℓ → Prop}
    (I : List (Transition σ ℓ) → σ → Prop) (h₀ : I [] s₀)
    (hexact : ∀ tr t, I tr t.pre → D tr t → step t.pre t.label = some t.post → (P tr t ↔ C tr t))
    (hkeep : ∀ tr t, I tr t.pre → D tr t → step t.pre t.label = some t.post → C tr t →
      I (tr ++ [t]) t.post)
    (h : Run step s₀ tr s) (hD : Along D tr) : Along P tr ↔ Along C tr := by
  have hboth : (Along P tr ↔ Along C tr) ∧ (Along C tr → I tr s) := by
    induction h with
    | nil => exact ⟨Iff.rfl, fun _ => h₀⟩
    | @snoc tr s s' l _ hs ih =>
      obtain ⟨hD, hlast⟩ := along_snoc.mp hD
      obtain ⟨hiff, hI⟩ := ih hD
      rw [along_snoc, along_snoc, hiff]
      constructor
      · refine and_congr_right fun hC => ?_
        exact hexact tr ⟨s, l, s'⟩ (hI hC) hlast hs
      · rintro ⟨hC, hCs⟩
        exact hkeep tr ⟨s, l, s'⟩ (hI hC) hlast hs hCs
  exact hboth.1

/-! ### What one component sees of a run -/

/-- The transitions of a component, seen through `π` and `view`: the steps of
the system in which it takes part. -/
def project (π : σ → σ') (view : σ → ℓ → Option ℓ') (tr : List (Transition σ ℓ)) :
    List (Transition σ' ℓ') :=
  tr.filterMap fun t => (view t.pre t.label).map fun l' => ⟨π t.pre, l', π t.post⟩

theorem project_append (π : σ → σ') (view : σ → ℓ → Option ℓ') :
    project π view (tr₁ ++ tr₂) = project π view tr₁ ++ project π view tr₂ :=
  List.filterMap_append

theorem mem_project {π : σ → σ'} {view : σ → ℓ → Option ℓ'} {t' : Transition σ' ℓ'} :
    t' ∈ project π view tr ↔
      ∃ t ∈ tr, view t.pre t.label = some t'.label ∧ π t.pre = t'.pre ∧ π t.post = t'.post := by
  rw [project, List.mem_filterMap]
  constructor
  · rintro ⟨t, ht, hv⟩
    obtain ⟨l', hl', rfl⟩ := Option.map_eq_some_iff.mp hv
    exact ⟨t, ht, hl', rfl, rfl⟩
  · rintro ⟨t, ht, hl', hpre, hpost⟩
    refine ⟨t, ht, ?_⟩
    rw [hl', hpre, hpost]
    rfl

/-- **Projection.**  If every step of the system is, at the component, either
the step that `view` names or no change, then what the component sees of a run
is a run of the component. -/
theorem Run.project {step' : σ' → ℓ' → Option σ'} {π : σ → σ'} {view : σ → ℓ → Option ℓ'}
    (hview : ∀ s l s' l', step s l = some s' → view s l = some l' →
      step' (π s) l' = some (π s'))
    (hskip : ∀ s l s', step s l = some s' → view s l = none → π s' = π s)
    (h : Run step s₀ tr s) : Run step' (π s₀) (project π view tr) (π s) := by
  induction h with
  | nil => exact .nil
  | @snoc tr s s' l _ hs ih =>
    rw [project_append]
    rcases hv : view s l with _ | l'
    · rw [hskip s l s' hs hv]
      simpa [Runs.project, hv] using ih
    · have hlast : Runs.project π view [⟨s, l, s'⟩] = [⟨π s, l', π s'⟩] := by
        simp [Runs.project, hv]
      rw [hlast]
      exact .snoc ih (hview s l s' l' hs hv)

/-! ### Two runs, one of which takes extra steps -/

/-- The second list is the first one with extra members: these are in `E`, and
the others are related to the members of the first list, in order, by `R`. -/
def WithExtra {α : Type*} (E : α → Prop) (R : α → α → Prop) : List α → List α → Prop
  | [], [] => True
  | _ :: _, [] => False
  | [], b :: bs => E b ∧ WithExtra E R [] bs
  | a :: as, b :: bs => E b ∧ WithExtra E R (a :: as) bs ∨ R a b ∧ WithExtra E R as bs

instance WithExtra.decidable {α : Type*} {E : α → Prop} {R : α → α → Prop} [DecidablePred E]
    [∀ a b, Decidable (R a b)] : ∀ as bs, Decidable (WithExtra E R as bs)
  | [], [] => .isTrue trivial
  | _ :: _, [] => .isFalse id
  | [], b :: bs =>
    have := WithExtra.decidable (E := E) (R := R) [] bs
    inferInstanceAs (Decidable (E b ∧ WithExtra E R [] bs))
  | a :: as, b :: bs =>
    have := WithExtra.decidable (E := E) (R := R) (a :: as) bs
    have := WithExtra.decidable (E := E) (R := R) as bs
    inferInstanceAs
      (Decidable (E b ∧ WithExtra E R (a :: as) bs ∨ R a b ∧ WithExtra E R as bs))

/-- **The two-run rule.**  A relation between the states of two runs that extra
steps and common steps keep holds at their ends, and if extra steps put out
nothing and common steps the same, the runs put out the same. -/
theorem WithExtra.keeps {ω : Type*} {E : Transition σ ℓ → Prop}
    {R : Transition σ ℓ → Transition σ ℓ → Prop} {J : σ → σ → Prop}
    {out : Transition σ ℓ → List ω} {s₀' s' : σ} {tr' : List (Transition σ ℓ)}
    (hextra : ∀ s t', E t' → J s t'.pre → step t'.pre t'.label = some t'.post →
      J s t'.post ∧ out t' = [])
    (hcommon : ∀ t t', R t t' → J t.pre t'.pre → step t.pre t.label = some t.post →
      step t'.pre t'.label = some t'.post → J t.post t'.post ∧ out t = out t')
    (hw : WithExtra E R tr tr') (h₀ : J s₀ s₀') (h : Run step s₀ tr s)
    (h' : Run step s₀' tr' s') : J s s' ∧ tr.flatMap out = tr'.flatMap out := by
  have hskip : ∀ {t' : Transition σ ℓ} {rest s₀ s₀'}, E t' → J s₀ s₀' →
      Run step s₀' (t' :: rest) s' → J s₀ t'.post ∧ Run step t'.post rest s' ∧
        (t' :: rest).flatMap out = rest.flatMap out := by
    intro t' rest s₀ s₀' hE hJ hrun
    obtain ⟨rfl, hs, hrest⟩ := hrun.head
    obtain ⟨hJ', hout⟩ := hextra s₀ t' hE hJ hs
    refine ⟨hJ', hrest, ?_⟩
    rw [List.flatMap_cons, hout, List.nil_append]
  induction tr, tr' using WithExtra.induct generalizing s₀ s₀' with
  | case1 =>
    rw [h.eq_of_nil, h'.eq_of_nil]
    exact ⟨h₀, rfl⟩
  | case2 t tr => exact hw.elim
  | case3 t' tr' ih =>
    obtain ⟨hJ, hrest, hout⟩ := hskip hw.1 h₀ h'
    rw [hout]
    exact ih hw.2 hJ h hrest
  | case4 t tr t' tr' ihextra ihcommon =>
    rcases hw with ⟨hE, hw⟩ | ⟨hR, hw⟩
    · obtain ⟨hJ, hrest, hout⟩ := hskip hE h₀ h'
      rw [hout]
      exact ihextra hw hJ h hrest
    · obtain ⟨rfl, hs, hrest⟩ := h.head
      obtain ⟨rfl, hs', hrest'⟩ := h'.head
      obtain ⟨hJ, hout⟩ := hcommon t t' hR h₀ hs hs'
      obtain ⟨hend, hall⟩ := ihcommon hw hJ hrest hrest'
      rw [List.flatMap_cons, List.flatMap_cons, hout, hall]
      exact ⟨hend, rfl⟩

/-! ### Replaying a list of labels -/

/-- Take the labels in order from `s`, recording the transitions; `none` when a
label is not enabled. -/
def replay (step : σ → ℓ → Option σ) : σ → List ℓ → Option (List (Transition σ ℓ) × σ)
  | s, [] => some ([], s)
  | s, l :: ls =>
    match step s l with
    | none => none
    | some s' => (replay step s' ls).map fun r => (⟨s, l, s'⟩ :: r.1, r.2)

theorem run_of_replay {ls : List ℓ} (h : replay step s₀ ls = some (tr, s)) :
    Run step s₀ tr s := by
  induction ls generalizing s₀ tr with
  | nil =>
    simp only [replay, Option.some.injEq, Prod.mk.injEq] at h
    obtain ⟨rfl, rfl⟩ := h
    exact .nil
  | cons l ls ih =>
    rw [replay] at h
    rcases hs : step s₀ l with _ | m
    · simp [hs] at h
    · rw [hs] at h
      obtain ⟨⟨tr', s'⟩, hr, he⟩ := Option.map_eq_some_iff.mp h
      rw [Prod.mk.injEq] at he
      obtain ⟨rfl, rfl⟩ := he
      exact .cons hs (ih hr)

/-- A replay whose outcome passes a decidable test gives a run with that
outcome. -/
theorem exists_run_of_replay (step : σ → ℓ → Option σ) (s₀ : σ)
    (P : List (Transition σ ℓ) → σ → Prop) [∀ tr s, Decidable (P tr s)] (ls : List ℓ)
    (h : (replay step s₀ ls).any (fun r => decide (P r.1 r.2)) = true) :
    ∃ tr s, Run step s₀ tr s ∧ P tr s := by
  rcases hr : replay step s₀ ls with _ | ⟨tr, s⟩
  · simp [hr] at h
  · rw [hr, Option.any_some] at h
    exact ⟨tr, s, run_of_replay hr, of_decide_eq_true h⟩

/-- The same for a replay followed by one more label. -/
theorem exists_run_snoc_of_replay (step : σ → ℓ → Option σ) (s₀ : σ)
    (P : List (Transition σ ℓ) → Transition σ ℓ → Prop) [∀ tr t, Decidable (P tr t)]
    (ls : List ℓ) (l : ℓ)
    (h : (replay step s₀ ls).any (fun r =>
      (step r.2 l).any fun s' => decide (P r.1 ⟨r.2, l, s'⟩)) = true) :
    ∃ tr t, Run step s₀ (tr ++ [t]) t.post ∧ P tr t := by
  rcases hr : replay step s₀ ls with _ | ⟨tr, s⟩
  · simp [hr] at h
  · rw [hr, Option.any_some] at h
    rcases hs : step s l with _ | s'
    · simp [hs] at h
    · rw [hs, Option.any_some] at h
      exact ⟨tr, ⟨s, l, s'⟩, .snoc (run_of_replay hr) hs, of_decide_eq_true h⟩

/-- The same for a label with a replay before and after it. -/
theorem exists_run_split_of_replay (step : σ → ℓ → Option σ) (s₀ : σ)
    (P : List (Transition σ ℓ) → Transition σ ℓ → List (Transition σ ℓ) → Prop)
    [∀ tr₁ t tr₂, Decidable (P tr₁ t tr₂)] (ls₁ : List ℓ) (l : ℓ) (ls₂ : List ℓ)
    (h : (replay step s₀ ls₁).any (fun r => (step r.2 l).any fun s' =>
      (replay step s' ls₂).any fun q => decide (P r.1 ⟨r.2, l, s'⟩ q.1)) = true) :
    ∃ tr₁ t tr₂ s, Run step s₀ (tr₁ ++ t :: tr₂) s ∧ t.label = l ∧ P tr₁ t tr₂ := by
  obtain ⟨⟨tr₁, s⟩, hr, h⟩ := (Option.any_eq_true _ _).mp h
  obtain ⟨s', hs, h⟩ := (Option.any_eq_true _ _).mp h
  obtain ⟨⟨tr₂, s''⟩, hq, h⟩ := (Option.any_eq_true _ _).mp h
  have hrun : Run step s₀ (tr₁ ++ ⟨s, l, s'⟩ :: tr₂) s'' :=
    (run_of_replay hr).append (.cons hs (run_of_replay hq))
  exact ⟨tr₁, ⟨s, l, s'⟩, tr₂, s'', hrun, rfl, of_decide_eq_true h⟩

/-- The same for two runs. -/
theorem exists_runs_of_replay (step : σ → ℓ → Option σ) (s₀ : σ)
    (P : List (Transition σ ℓ) → σ → List (Transition σ ℓ) → σ → Prop)
    [∀ tr s tr' s', Decidable (P tr s tr' s')] (ls ls' : List ℓ)
    (h : (replay step s₀ ls).any (fun r => (replay step s₀ ls').any fun r' =>
      decide (P r.1 r.2 r'.1 r'.2)) = true) :
    ∃ tr s tr' s', Run step s₀ tr s ∧ Run step s₀ tr' s' ∧ P tr s tr' s' := by
  obtain ⟨⟨tr, s⟩, hr, h⟩ := (Option.any_eq_true _ _).mp h
  obtain ⟨⟨tr', s'⟩, hr', h⟩ := (Option.any_eq_true _ _).mp h
  exact ⟨tr, s, tr', s', run_of_replay hr, run_of_replay hr', of_decide_eq_true h⟩

end Runs
