/-
The arguments of a component (`PyConfigConverter::ParseArgs`,
`include/componentmodel/r_pyconfigconverter.h`, and `Parameters`,
`src/componentmodel/r_parameter.cc`).

`ParseArgs` turns every argument of a Python dictionary into text, by a chain of
type tests, and the component reads the text back as the type it expects.  The
test for integers also passes booleans, so the branch for these is never taken.

* `lookup_of_parseArgs` — what the dictionary leaves in the parameters;
* `parseArgs_isOk_iff` — a dictionary is handled iff its integers are `int`s;
* `args_read_back_iff` — the arguments read back unchanged iff none is `True`.
-/
import RiapsCore.StdString
import RiapsCore.Tables

open StdString

namespace Riaps

/-- An argument.  A Python `str` is given by the bytes of its UTF-8 form, a `float`
is a value of `F`. -/
inductive PyValue (F : Type*) where
  | str (s : String)
  | int (n : ℤ)
  | float (x : F)
  | bool (b : Bool)
  /-- `None`, a list or another object. -/
  | other
deriving DecidableEq

namespace PyValue

variable {F : Type*}

/-- The value of a `py::str`, for a value that passes `py::str::check_`. -/
def asStr : PyValue F → Option String
  | .str s => some s
  | _ => none

/-- The value of a `py::int_`, for a value that passes `py::int_::check_`.  This is
`PyLong_Check`, and `bool` is a subtype of `int` in Python. -/
def asInt : PyValue F → Option ℤ
  | .int n => some n
  | .bool b => some (if b then 1 else 0)
  | _ => none

/-- The value of a `py::float_`, for a value that passes `py::float_::check_`. -/
def asFloat : PyValue F → Option F
  | .float x => some x
  | _ => none

/-- The value of a `py::bool_`, for a value that passes `py::bool_::check_`. -/
def asBool : PyValue F → Option Bool
  | .bool b => some b
  | _ => none

end PyValue

/-- `Parameter`. -/
structure Parameter where
  paramName : String
  paramDefaultValue : String
  paramValue : String
  isOptional : Bool
deriving DecidableEq

namespace Parameter

/-- `setValue(value)`. -/
def setValue (p : Parameter) (value : String) : Parameter := { p with paramValue := value }

/-- `getValueAsString()`. -/
def getValueAsString (p : Parameter) : String := p.paramValue

/-- `getValueAsInt(&intValue)`; `none` when it returns `false`. -/
def getValueAsInt (p : Parameter) : Option Int32 := (stoi p.paramValue).toOption

/-- `getValueAsBool()`; `none` when it returns a variable that was never set. -/
def getValueAsBool (p : Parameter) : Option Bool := extractBool p.paramValue

end Parameter

/-- `Parameters`. -/
abbrev Parameters := Table String Parameter

namespace Parameters

/-- `addParam(name, value, isOptional, defaultValue)`. -/
def addParam (ps : Parameters) (name value : String) (isOptional : Bool) (defaultValue : String) :
    Parameters :=
  let newItem : Parameter := ⟨name, defaultValue, "", isOptional⟩
  ps.insert name (if value ≠ "" then newItem.setValue value else newItem.setValue defaultValue)

/-- `getParam(name)`. -/
def getParam (ps : Parameters) (name : String) : Option Parameter := ps.lookup name

end Parameters

/-- `py::cast_error`. -/
inductive CastError where
  | outOfRange (n : ℤ)
deriving DecidableEq

variable {F : Type*}

/-- `cast<int>()`. -/
def castInt (n : ℤ) : Except CastError Int32 :=
  if -2 ^ 31 ≤ n ∧ n < 2 ^ 31 then .ok (Int32.ofInt n) else .error (.outOfRange n)

/-- The text that `ParseArgs` adds for an argument, if it adds one; `floatText` is
`std::to_string` of a `float`. -/
def argText (floatText : F → String) (v : PyValue F) : Except CastError (Option String) :=
  match v.asStr with
  | some s => .ok (some s)
  | none =>
    match v.asInt with
    | some n => (castInt n).map fun n => some (toString n.toInt)
    | none =>
      match v.asFloat with
      | some x => .ok (some (floatText x))
      | none =>
        match v.asBool with
        | some b => .ok (some (if b then "1" else "0"))
        | none => .ok none

/-- The loop of `ParseArgs`. -/
def parseEntries (floatText : F → String) :
    List (Sigma fun _ : String => PyValue F) → Parameters → Except CastError Parameters
  | [], conf => .ok conf
  | ⟨name, v⟩ :: rest, conf =>
    match argText floatText v with
    | .error e => .error e
    | .ok none => parseEntries floatText rest conf
    | .ok (some text) => parseEntries floatText rest (conf.addParam name text false "")

/-- `ParseArgs(py_args, conf)`, for the parameters of `conf`. -/
def parseArgs (floatText : F → String) (args : Table String (PyValue F)) (conf : Parameters) :
    Except CastError Parameters :=
  parseEntries floatText args.entries conf

/-! ### The text of an argument -/

variable {floatText : F → String}

/-- The parameter that `ParseArgs` adds. -/
def argParam (name text : String) : Parameter := ⟨name, "", text, false⟩

theorem addParam_eq (conf : Parameters) (name text : String) :
    conf.addParam name text false "" = conf.insert name (argParam name text) := by
  rw [Parameters.addParam]
  split
  · rfl
  · rename_i htext
    rw [not_not] at htext
    rw [htext]
    rfl

/-- A boolean has the text of the integer that it is. -/
theorem argText_bool (b : Bool) :
    argText floatText (.bool b) = .ok (some (if b then "1" else "0")) := by
  cases b <;> rfl

theorem argText_int (n : ℤ) :
    argText floatText (.int n) = (castInt n).map fun n => some (toString n.toInt) := rfl

theorem castInt_eq_ok {n : ℤ} {m : Int32} (h : castInt n = .ok m) : m.toInt = n := by
  rw [castInt] at h
  split at h
  · rename_i hrange
    rw [← Except.ok.inj h, Int32.toInt_ofInt_of_le hrange.1 hrange.2]
  · cases h

/-- Only an integer outside the range of an `int` has no text because of an error. -/
theorem argText_isOk_iff (v : PyValue F) :
    (∃ r, argText floatText v = .ok r) ↔ ∀ n, v = .int n → -2 ^ 31 ≤ n ∧ n < 2 ^ 31 := by
  cases v with
  | int n =>
    rw [argText_int, castInt]
    split
    · rename_i hrange
      exact ⟨fun _ m hm => PyValue.int.inj hm ▸ hrange, fun _ => ⟨_, rfl⟩⟩
    · rename_i hrange
      constructor
      · rintro ⟨r, hr⟩
        cases hr
      · intro h
        exact absurd (h n rfl) hrange
  | str s => exact ⟨fun _ => nofun, fun _ => ⟨_, rfl⟩⟩
  | float x => exact ⟨fun _ => nofun, fun _ => ⟨_, rfl⟩⟩
  | bool b => exact ⟨fun _ => nofun, fun _ => ⟨_, argText_bool b⟩⟩
  | other => exact ⟨fun _ => nofun, fun _ => ⟨_, rfl⟩⟩

/-! ### The loop -/

/-- What the loop leaves under a name that is not in the dictionary. -/
theorem lookup_of_notMem {l : List (Sigma fun _ : String => PyValue F)} {conf ps : Parameters}
    {name : String} (h : parseEntries floatText l conf = .ok ps) (hname : name ∉ l.keys) :
    ps.lookup name = conf.lookup name := by
  induction l generalizing conf with
  | nil =>
    rw [← Except.ok.inj h]
  | cons e rest ih =>
    obtain ⟨key, v⟩ := e
    rw [List.keys_cons, List.mem_cons, not_or] at hname
    rw [parseEntries] at h
    split at h
    · cases h
    · exact ih h hname.2
    · rw [ih h hname.2, addParam_eq, AList.lookup_insert_ne hname.1]

/-- What it leaves under the name of an argument. -/
theorem lookup_of_mem {l : List (Sigma fun _ : String => PyValue F)} {conf ps : Parameters}
    {name : String} {v : PyValue F} (hl : l.NodupKeys)
    (h : parseEntries floatText l conf = .ok ps) (hv : ⟨name, v⟩ ∈ l) :
    ∃ r, argText floatText v = .ok r ∧
      ∀ text ∈ r, ps.lookup name = some (argParam name text) := by
  induction l generalizing conf with
  | nil => cases hv
  | cons e rest ih =>
    obtain ⟨key, w⟩ := e
    rw [List.nodupKeys_cons] at hl
    rw [parseEntries] at h
    rcases List.mem_cons.mp hv with heq | hmem
    · obtain ⟨rfl, hw⟩ := Sigma.mk.inj heq
      obtain rfl := eq_of_heq hw
      split at h
      · cases h
      · rename_i hnone
        exact ⟨none, hnone, nofun⟩
      · rename_i text htext
        refine ⟨some text, htext, fun text' htext' => ?_⟩
        rw [lookup_of_notMem h hl.1, addParam_eq, AList.lookup_insert,
          Option.mem_some_iff.mp htext']
    · split at h
      · cases h
      · exact ih hl.2 h hmem
      · exact ih hl.2 h hmem

theorem parseEntries_isOk_iff (l : List (Sigma fun _ : String => PyValue F)) (conf : Parameters) :
    (∃ ps, parseEntries floatText l conf = .ok ps) ↔
      ∀ e ∈ l, ∃ r, argText floatText e.2 = .ok r := by
  induction l generalizing conf with
  | nil => simp [parseEntries]
  | cons e rest ih =>
    obtain ⟨key, v⟩ := e
    rw [List.forall_mem_cons, parseEntries]
    rcases hv : argText floatText v with err | _ | text
    · simp
    · simpa [hv] using ih conf
    · simpa [hv] using ih _

section

variable {args : Table String (PyValue F)} {conf ps : Parameters}

/-- A dictionary is handled iff its integers are in the range of an `int`. -/
theorem parseArgs_isOk_iff (args : Table String (PyValue F)) (conf : Parameters) :
    (∃ ps, parseArgs floatText args conf = .ok ps) ↔
      ∀ name n, args.lookup name = some (.int n) → -2 ^ 31 ≤ n ∧ n < 2 ^ 31 := by
  rw [parseArgs, parseEntries_isOk_iff]
  constructor
  · intro h name n hn
    have hmem : (⟨name, .int n⟩ : Sigma fun _ : String => PyValue F) ∈ args.entries :=
      AList.mem_lookup_iff.mp hn
    exact (argText_isOk_iff _).mp (h _ hmem) n rfl
  · rintro h ⟨name, v⟩ hmem
    rw [argText_isOk_iff]
    rintro n rfl
    exact h name n (AList.mem_lookup_iff.mpr hmem)

theorem lookup_of_parseArgs (h : parseArgs floatText args conf = .ok ps) {name : String}
    {v : PyValue F} (hv : args.lookup name = some v) :
    ∃ r, argText floatText v = .ok r ∧
      ∀ text ∈ r, ps.getParam name = some (argParam name text) :=
  lookup_of_mem args.nodupKeys h (AList.mem_lookup_iff.mp hv)

/-! ### Reading back -/

/-- The component gets back what was passed under the name. -/
def ReadsBack (ps : Parameters) (name : String) : PyValue F → Prop
  | .str s => ∃ p ∈ ps.getParam name, p.getValueAsString = s
  | .int n => ∃ p ∈ ps.getParam name, ∃ m, p.getValueAsInt = some m ∧ m.toInt = n
  | .bool b => ∃ p ∈ ps.getParam name, p.getValueAsBool = some b
  | .float _ | .other => True

theorem readsBack_str {s name : String} (h : ps.getParam name = some (argParam name s)) :
    ReadsBack ps name (.str s : PyValue F) :=
  ⟨_, h, rfl⟩

theorem readsBack_int {n : Int32} {name : String}
    (h : ps.getParam name = some (argParam name (toString n.toInt))) :
    ReadsBack ps name (.int n.toInt : PyValue F) := by
  refine ⟨_, h, n, ?_, rfl⟩
  rw [Parameter.getValueAsInt, argParam, stoi_toString_int]
  rfl

/-- The text of a boolean reads back as `false`. -/
theorem readsBack_bool_iff {b : Bool} {name : String}
    (h : ps.getParam name = some (argParam name (if b then "1" else "0"))) :
    ReadsBack ps name (.bool b : PyValue F) ↔ b = false := by
  rw [ReadsBack, h]
  have hzero : extractBool "0" = some false := by decide
  have hone : extractBool "1" = some false := by decide
  cases b with
  | false => exact ⟨fun _ => rfl, fun _ => ⟨_, rfl, hzero⟩⟩
  | true =>
    refine ⟨?_, nofun⟩
    rintro ⟨p, hp, hb⟩
    rw [← Option.mem_some_iff.mp hp] at hb
    cases hone.symm.trans hb

/-- **When the arguments of a component survive configuration.**  For every
dictionary that `ParseArgs` handles, all strings, integers and booleans in it
read back unchanged iff none of them is `True`. -/
theorem args_read_back_iff (h : parseArgs floatText args conf = .ok ps) :
    (∀ name v, args.lookup name = some v → ReadsBack ps name v) ↔
      ∀ name, args.lookup name ≠ some (.bool true) := by
  constructor
  · intro hall name hname
    obtain ⟨r, hr, hps⟩ := lookup_of_parseArgs h hname
    rw [argText_bool] at hr
    have hfalse := (readsBack_bool_iff (hps _ (Except.ok.inj hr).symm)).mp (hall name _ hname)
    cases hfalse
  · intro hnone name v hv
    obtain ⟨r, hr, hps⟩ := lookup_of_parseArgs h hv
    cases v with
    | str s => exact readsBack_str (hps s (Except.ok.inj hr).symm)
    | int n =>
      rw [argText_int] at hr
      rcases hm : castInt n with err | m
      · rw [hm] at hr
        cases hr
      · rw [hm] at hr
        rw [← castInt_eq_ok hm]
        exact readsBack_int (hps _ (Except.ok.inj hr).symm)
    | float x => trivial
    | bool b =>
      rw [argText_bool] at hr
      refine (readsBack_bool_iff (hps _ (Except.ok.inj hr).symm)).mpr ?_
      rw [← Bool.not_eq_true]
      rintro rfl
      exact hnone name hv
    | other => trivial

/-- An empty text, a negative number and `False`. -/
theorem args_read_back_false :
    ∃ (args : Table String (PyValue Unit)) (ps : Parameters),
      args.entries = [⟨"name", .str ""⟩, ⟨"limit", .int (-5)⟩, ⟨"enabled", .bool false⟩] ∧
        parseArgs (fun _ => "") args ∅ = .ok ps ∧
        ∀ name v, args.lookup name = some v → ReadsBack ps name v := by
  obtain ⟨args, hargs⟩ : ∃ args : Table String (PyValue Unit),
      args.entries = [⟨"name", .str ""⟩, ⟨"limit", .int (-5)⟩, ⟨"enabled", .bool false⟩] :=
    ⟨⟨_, show (List.keys _).Nodup by decide⟩, rfl⟩
  have hmem : ∀ name v, args.lookup name = some v ↔ ⟨name, v⟩ ∈ args.entries :=
    fun name v => AList.mem_lookup_iff
  obtain ⟨ps, hps⟩ : ∃ ps, parseArgs (fun _ : Unit => "") args ∅ = .ok ps := by
    rw [parseArgs, hargs]
    exact ⟨_, rfl⟩
  refine ⟨args, ps, hargs, hps, (args_read_back_iff hps).mpr fun name hname => ?_⟩
  rw [hmem, hargs] at hname
  simp at hname

/-- `True` reads back as `false`. -/
theorem arg_true_reads_false :
    ∃ ps, parseArgs (fun _ : Unit => "")
        ((∅ : Table String (PyValue Unit)).insert "enabled" (.bool true)) ∅ = .ok ps ∧
      (∃ p ∈ ps.getParam "enabled", p.getValueAsString = "1" ∧ p.getValueAsBool = some false) ∧
      ¬ ReadsBack ps "enabled" (.bool true : PyValue Unit) := by
  have hparam : ((∅ : Parameters).addParam "enabled" "1" false "").getParam "enabled"
      = some (argParam "enabled" "1") := by
    rw [addParam_eq]
    exact AList.lookup_insert _
  refine ⟨_, rfl, ⟨_, hparam, rfl, by decide⟩, ?_⟩
  exact fun h => Bool.noConfusion ((readsBack_bool_iff (b := true) hparam).mp h)

end

end Riaps
