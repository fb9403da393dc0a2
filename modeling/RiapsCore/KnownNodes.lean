/-
The membership table of a group (`Group::known_nodes_`, `src/groups/r_group.cc`).

Every group heartbeat (PING or PONG) enters its sender into `known_nodes_`
with a timeout drawn from `timeout_distribution_`, or refreshes the entry that
is already there.  `GetMemberCount()` first drops the entries whose timeout has
expired; `GetKnownComponents()` skips them and leaves the table as it is.
-/
import RiapsCore.Tables
import RiapsCore.Timeout
import RiapsCore.Messages

namespace Riaps

/-- A value of `timeout_distribution_`: between `PING_BASE_PERIOD * 1.1` and
`PING_BASE_PERIOD * 2` milliseconds, with `PING_BASE_PERIOD = 10 * 1000`. -/
abbrev NodeTimeo := { d : ℤ // 11000 ≤ d ∧ d ≤ 20000 }

/-- The shortest of them. -/
def shortNodeTimeo : NodeTimeo := ⟨11000, by decide⟩

/-- `known_nodes_`: component id to the timeout of its last heartbeat. -/
abbrev KnownNodes := Table String (Timeout milliseconds)

namespace KnownNodes

/-- The entries that have not expired. -/
def live (known : KnownNodes) (now : ℤ) : KnownNodes :=
  Table.retain (fun _ t => ¬ t.isTimeout now) known

/-- `Group::DeleteTimeoutNodes()`: the number of deleted records and what is
left. -/
def deleteTimeoutNodes (known : KnownNodes) (now : ℤ) : UInt32 × KnownNodes :=
  (UInt32.ofNat (Table.size known - Table.size (live known now)), live known now)

/-- `Group::GetMemberCount()`: the number of records after the expired ones are
deleted, as a `uint16_t`. -/
def getMemberCount (known : KnownNodes) (now : ℤ) : UInt16 × KnownNodes :=
  let known := (deleteTimeoutNodes known now).2
  (UInt16.ofNat (Table.size known), known)

/-- `Group::GetKnownComponents()`. -/
def getKnownComponents (known : KnownNodes) (now : ℤ) : Finset String :=
  Table.keySet (live known now)

/-- The heartbeat branch of `Group::FetchNextMessage()`: a new node gets a
fresh timeout, a known one has its stored timeout reset by the overload that
takes an `int64_t`. -/
def heartBeat (known : KnownNodes) (now : ℤ) (timeo : NodeTimeo) (source : String) :
    KnownNodes :=
  match known.lookup source with
  | none => known.insert source (Timeout.ofCount now timeo)
  -- the end point stays that of the first heartbeat
  | some t => known.insert source (t.resetCount timeo)

/-- The calls that touch or read `known_nodes_`. -/
inductive Call where
  | heartBeat (now : ℤ) (timeo : NodeTimeo) (source : String)
  | getMemberCount (now : ℤ)
  | getKnownComponents (now : ℤ)

def Call.now : Call → ℤ
  | .heartBeat now _ _ => now
  | .getMemberCount now => now
  | .getKnownComponents now => now

/-- The table after a call. -/
def call (known : KnownNodes) : Call → KnownNodes
  | .heartBeat now timeo source => known.heartBeat now timeo source
  | .getMemberCount now => (known.getMemberCount now).2
  | .getKnownComponents _ => known

/-- The step function of runs of calls: every call is possible. -/
def next (known : KnownNodes) (l : Call) : Option KnownNodes := some (known.call l)

theorem lookup_live {known : KnownNodes} {now : ℤ} {c : String}
    {t : Timeout milliseconds} :
    (live known now).lookup c = some t ↔ known.lookup c = some t ∧ now ≤ t.endPoint := by
  rw [live, Table.lookup_retain, decide_eq_true_eq, Timeout.isTimeout_iff, not_lt]

theorem mem_live {known : KnownNodes} {now : ℤ} {c : String} :
    c ∈ live known now ↔ ∃ t, known.lookup c = some t ∧ now ≤ t.endPoint := by
  rw [Table.mem_iff_lookup]
  exact exists_congr fun t => lookup_live

theorem mem_getKnownComponents {known : KnownNodes} {now : ℤ} {c : String} :
    c ∈ getKnownComponents known now ↔ c ∈ live known now := Table.mem_keySet

@[simp] theorem getMemberCount_snd (known : KnownNodes) (now : ℤ) :
    (getMemberCount known now).2 = live known now := rfl

theorem getMemberCount_fst (known : KnownNodes) (now : ℤ) :
    (getMemberCount known now).1 = UInt16.ofNat (getKnownComponents known now).card := by
  rw [getKnownComponents, Table.card_keySet]
  rfl

theorem mem_heartBeat {known : KnownNodes} {now : ℤ} {timeo : NodeTimeo}
    {source c : String} : c ∈ heartBeat known now timeo source ↔ c = source ∨ c ∈ known := by
  rw [heartBeat]
  split <;> exact AList.mem_insert known

/-- A heartbeat touches the entry of its sender only. -/
theorem lookup_heartBeat_ne {known : KnownNodes} {now : ℤ} {timeo : NodeTimeo}
    {source c : String} (h : c ≠ source) :
    (heartBeat known now timeo source).lookup c = known.lookup c := by
  rw [heartBeat]
  split <;> exact AList.lookup_insert_ne h

/-- The entry of the sender after its heartbeat. -/
theorem lookup_heartBeat_self (known : KnownNodes) (now : ℤ) (timeo : NodeTimeo)
    (source : String) :
    (heartBeat known now timeo source).lookup source =
      some (match known.lookup source with
        | none => Timeout.ofCount now timeo
        | some t => t.resetCount timeo) := by
  rw [heartBeat]
  split <;> exact AList.lookup_insert known

end KnownNodes

end Riaps
