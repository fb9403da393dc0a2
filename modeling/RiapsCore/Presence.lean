/-
Which nodes the discovery service joins, and when (`src/discoveryd/r_discoveryd.cc`).

A node is heard when a beacon of it has a valid payload.  It is present from then
on, until the cache is maintained more than `IPCACHE_TIMEOUT` after the last time
it was heard; a command joins its host the first time it is given.

* `HeardAt` — when a present node was last heard;
* `lookup_ipcache_iff`, `mem_externalipcache_iff` — the caches of a run;
* `joins_exact` — the JOIN messages.
-/
import RiapsCore.Beacons

open Runs

namespace Riaps

namespace Discoveryd

open DiscoveryValidator

variable {env : ValidatorEnv} {s s' : Discoveryd} {it : MainIteration} {ip address : String}
  {v : DiscoveryValidator} {tr : List (Transition Discoveryd MainIteration)}
  {t : Transition Discoveryd MainIteration} {n : ℤ}

/-- `IPCACHE_TIMEOUT`, in milliseconds. -/
def ipcacheTimeout : ℤ := 30000

/-- The iteration hears the node: there is a beacon from it with a valid payload. -/
def Hears (env : ValidatorEnv) (ip : String) (t : Transition Discoveryd MainIteration) : Prop :=
  (∃ payload, t.label.polled = .beacon ip payload) ∧
    answer env t.pre t.label = some true ∧ ip ≠ t.pre.address

/-- The iteration drops what has expired from the cache. -/
def Maintains (env : ValidatorEnv) (t : Transition Discoveryd MainIteration) : Prop :=
  t.label.polled = .timeout ∨ ∃ ip, Hears env ip t

/-- The iteration is told to join the host. -/
def Commands (ip : String) (t : Transition Discoveryd MainIteration) : Prop :=
  t.label.polled = .control cmdDiscoJoin (some ip)

/-- The node was last heard at `n`, and the cache has not been maintained later
than `IPCACHE_TIMEOUT` after that. -/
def HeardAt (env : ValidatorEnv) (ip : String) (n : ℤ)
    (tr : List (Transition Discoveryd MainIteration)) : Prop :=
  Since (fun u => Hears env ip u ∧ u.label.now = n)
    (fun _ w => ¬ Hears env ip w ∧
      (Maintains env w → w.label.now ≤ n + ipcacheTimeout * milliseconds)) tr

/-- The node is present. -/
def Present (env : ValidatorEnv) (ip : String)
    (tr : List (Transition Discoveryd MainIteration)) : Prop :=
  ∃ n, HeardAt env ip n tr

theorem heardAt_snoc :
    HeardAt env ip n (tr ++ [t]) ↔ Hears env ip t ∧ t.label.now = n ∨
      HeardAt env ip n tr ∧ ¬ Hears env ip t ∧
        (Maintains env t → t.label.now ≤ n + ipcacheTimeout * milliseconds) := by
  rw [HeardAt, since_snoc, since_and_const]
  rfl

/-! ### One iteration -/

/-- Which nodes an iteration hears. -/
theorem hears_iff_of_beacon {source : String} {payload : Option String}
    (hw : t.label.polled = .beacon source payload) :
    Hears env ip t ↔
      source = ip ∧ answer env t.pre t.label = some true ∧ source ≠ t.pre.address := by
  rw [Hears, hw]
  constructor
  · rintro ⟨⟨payload', hp⟩, htrue, hne⟩
    obtain ⟨rfl, -⟩ := Polled.beacon.inj hp
    exact ⟨rfl, htrue, hne⟩
  · rintro ⟨rfl, htrue, hne⟩
    exact ⟨⟨payload, rfl⟩, htrue, hne⟩

theorem not_hears_of_polled (hw : ∀ source payload, t.label.polled ≠ .beacon source payload) :
    ¬ Hears env ip t :=
  fun h => h.1.elim fun payload hp => hw ip payload hp

/-- The entry of a node that is heard at `n` expires `IPCACHE_TIMEOUT` later. -/
theorem isTimeout_entry {now : ℤ} :
    (Timeout.ofDuration n ipcacheTimeout : Timeout milliseconds).isTimeout now ↔
      n + ipcacheTimeout * milliseconds < now := by
  rw [Timeout.isTimeout_iff, Timeout.ofDuration_endPoint]

/-- What an iteration does to the entry of a node. -/
theorem lookup_ipcache_next (h : next env t.pre t.label = some t.post)
    {timeout : Timeout milliseconds} :
    t.post.ipcache.lookup ip = some timeout ↔
      Hears env ip t ∧ timeout = .ofDuration t.label.now ipcacheTimeout ∨
        ¬ Hears env ip t ∧ t.pre.ipcache.lookup ip = some timeout ∧
          (Maintains env t → ¬ timeout.isTimeout t.label.now) := by
  obtain ⟨-, hcache⟩ := next_cache h
  cases hw : t.label.polled with
  | control command newhost =>
    have hno : ∀ ip, ¬ Hears env ip t := fun ip => not_hears_of_polled (by simp [hw])
    have hmaintains : ¬ Maintains env t := by simp [Maintains, hw, hno]
    have hsame : t.post.ipcache = t.pre.ipcache := by
      rw [hw] at hcache
      rcases newhost with _ | newhost
      · exact congrArg Prod.fst hcache
      · rw [cacheStep] at hcache
        split at hcache
        · exact congrArg Prod.fst hcache
        · exact congrArg Prod.fst hcache
    simp [hsame, hno ip, hmaintains]
  | beacon source payload =>
    rw [hw, cacheStep] at hcache
    by_cases hyes : answer env t.pre t.label = some true ∧ source ≠ t.pre.address
    · rw [if_pos hyes, Prod.mk.injEq] at hcache
      have hhears : ∀ ip, Hears env ip t ↔ source = ip := fun ip => by
        rw [hears_iff_of_beacon hw]
        simp [hyes]
      have hmaintains : Maintains env t := .inr ⟨source, (hhears source).mpr rfl⟩
      rw [hcache.1, maintainCache, Table.lookup_retain, hhears]
      by_cases hip : source = ip
      · subst hip
        rw [AList.lookup_insert, Option.some.injEq, eq_comm (a := timeout)]
        have hfresh : ¬ (Timeout.ofDuration t.label.now ipcacheTimeout :
            Timeout milliseconds).isTimeout t.label.now := by
          rw [isTimeout_entry, ipcacheTimeout, milliseconds]
          omega
        simp only [true_and, not_true_eq_false, false_and, or_false]
        exact ⟨And.left, fun heq => ⟨heq, by rw [← heq]; exact decide_eq_true hfresh⟩⟩
      · rw [AList.lookup_insert_ne (Ne.symm hip)]
        simp [hip, hmaintains]
    · rw [if_neg hyes, Prod.mk.injEq] at hcache
      have hno : ∀ ip, ¬ Hears env ip t := fun ip hh =>
        hyes ((hears_iff_of_beacon hw).mp hh).2
      have hmaintains : ¬ Maintains env t := by simp [Maintains, hw, hno]
      simp [hcache.1, hno ip, hmaintains]
  | timeout =>
    have hno : ¬ Hears env ip t := not_hears_of_polled (by simp [hw])
    have hmaintains : Maintains env t := .inl hw
    rw [hw, cacheStep, Prod.mk.injEq] at hcache
    rw [hcache.1, maintainCache, Table.lookup_retain]
    simp [hno, hmaintains]

/-- What an iteration does to the hosts it was told to join, and the JOIN messages
it sends. -/
theorem joins_next (h : next env t.pre t.label = some t.post) :
    (ip ∈ t.post.externalipcache ↔ Commands ip t ∨ ip ∈ t.pre.externalipcache) ∧
      (ip ∈ joins env t ↔ Commands ip t ∧ ip ∉ t.pre.externalipcache ∨
        Hears env ip t ∧ ip ∉ t.pre.ipcache) := by
  obtain ⟨-, hcache⟩ := next_cache h
  cases hw : t.label.polled with
  | control command newhost =>
    have hno : ¬ Hears env ip t := not_hears_of_polled (by simp [hw])
    rw [Commands, hw, Polled.control.injEq]
    rw [hw] at hcache
    rcases newhost with _ | newhost
    · rw [cacheStep, Prod.mk.injEq, Prod.mk.injEq] at hcache
      simp [hcache.2.1, hcache.2.2, hno]
    · rw [cacheStep] at hcache
      by_cases hjoin : command = cmdDiscoJoin ∧ newhost ∉ t.pre.externalipcache
      · rw [if_pos hjoin, Prod.mk.injEq, Prod.mk.injEq] at hcache
        obtain ⟨rfl, hnew⟩ := hjoin
        simp only [hcache.2.1, hcache.2.2, Finset.mem_insert, List.mem_singleton, true_and,
          Option.some.injEq, hno, false_and, or_false]
        refine ⟨by rw [eq_comm (a := ip)], fun heq => ⟨heq.symm, heq ▸ hnew⟩,
          fun heq => heq.1.symm⟩
      · rw [if_neg hjoin, Prod.mk.injEq, Prod.mk.injEq] at hcache
        have hold : command = cmdDiscoJoin ∧ some newhost = some ip →
            ip ∈ t.pre.externalipcache := by
          rintro ⟨hcommand, hhost⟩
          obtain rfl := Option.some.inj hhost
          by_contra hnew
          exact hjoin ⟨hcommand, hnew⟩
        simp only [hcache.2.1, hcache.2.2, List.not_mem_nil, hno, false_and, or_false, false_iff]
        exact ⟨⟨.inr, fun hor => hor.elim hold id⟩, fun hand => hand.2 (hold hand.1)⟩
  | beacon source payload =>
    have hcommands : ¬ Commands ip t := by simp [Commands, hw]
    rw [hw, cacheStep] at hcache
    by_cases hyes : answer env t.pre t.label = some true ∧ source ≠ t.pre.address
    · rw [if_pos hyes, Prod.mk.injEq, Prod.mk.injEq] at hcache
      have hhears : Hears env ip t ↔ source = ip := by
        rw [hears_iff_of_beacon hw]
        exact and_iff_left hyes
      rw [hcache.2.1, hcache.2.2, hhears]
      simp only [hcommands, false_or, false_and, true_and]
      by_cases hin : source ∈ t.pre.ipcache
      · rw [if_pos hin]
        refine ⟨fun h => absurd h List.not_mem_nil, fun hand => ?_⟩
        rw [hand.1] at hin
        exact absurd hin hand.2
      · rw [if_neg hin, List.mem_singleton]
        exact ⟨fun heq => ⟨heq.symm, heq ▸ hin⟩, fun hand => hand.1.symm⟩
    · rw [if_neg hyes, Prod.mk.injEq, Prod.mk.injEq] at hcache
      have hno : ¬ Hears env ip t := fun hh => hyes ((hears_iff_of_beacon hw).mp hh).2
      simp [hcache.2.1, hcache.2.2, hcommands, hno]
  | timeout =>
    have hno : ¬ Hears env ip t := not_hears_of_polled (by simp [hw])
    have hcommands : ¬ Commands ip t := by simp [Commands, hw]
    rw [hw, cacheStep, Prod.mk.injEq, Prod.mk.injEq] at hcache
    simp [hcache.2.1, hcache.2.2, hcommands, hno]

/-! ### Runs -/

/-- **The cache of a run.**  The entries are those of the present nodes. -/
theorem lookup_ipcache_iff (h : Run (next env) (init address v) tr s)
    {timeout : Timeout milliseconds} :
    s.ipcache.lookup ip = some timeout ↔
      ∃ n, timeout = .ofDuration n ipcacheTimeout ∧ HeardAt env ip n tr := by
  induction h generalizing timeout with
  | nil =>
    simp only [HeardAt, not_since_nil, and_false, exists_false, iff_false]
    exact nofun
  | @snoc tr s s' l _ hs ih =>
    rw [lookup_ipcache_next (t := ⟨s, l, s'⟩) hs, ih]
    simp only [heardAt_snoc]
    constructor
    · rintro (⟨hhears, rfl⟩ | ⟨hno, ⟨n, rfl, hat⟩, hmaintains⟩)
      · exact ⟨l.now, rfl, .inl ⟨hhears, rfl⟩⟩
      · refine ⟨n, rfl, .inr ⟨hat, hno, fun hm => ?_⟩⟩
        exact not_lt.mp fun hlt => hmaintains hm (isTimeout_entry.mpr hlt)
    · rintro ⟨n, rfl, ⟨hhears, rfl⟩ | ⟨hat, hno, hmaintains⟩⟩
      · exact .inl ⟨hhears, rfl⟩
      · refine .inr ⟨hno, ⟨n, rfl, hat⟩, fun hm => ?_⟩
        rw [isTimeout_entry]
        exact not_lt.mpr (hmaintains hm)

theorem mem_ipcache_iff (h : Run (next env) (init address v) tr s) :
    ip ∈ s.ipcache ↔ Present env ip tr := by
  rw [Table.mem_iff_lookup]
  constructor
  · rintro ⟨timeout, hlook⟩
    obtain ⟨n, -, hat⟩ := (lookup_ipcache_iff h).mp hlook
    exact ⟨n, hat⟩
  · rintro ⟨n, hat⟩
    exact ⟨_, (lookup_ipcache_iff h).mpr ⟨n, rfl, hat⟩⟩

theorem mem_externalipcache_iff (h : Run (next env) (init address v) tr s) :
    ip ∈ s.externalipcache ↔ ∃ u ∈ tr, Commands ip u := by
  induction h with
  | nil => simp [init]
  | @snoc tr s s' l _ hs ih =>
    rw [(joins_next (t := ⟨s, l, s'⟩) hs).1, ih]
    simp [List.mem_append, or_and_right, exists_or, or_comm]

/-- **The JOIN messages.**  In every run of the main loop, an iteration joins a
host iff it is the first one that is told to, or it hears a node that is not
present: one that was never heard before, or for which the cache was maintained
more than `IPCACHE_TIMEOUT` after it was last heard. -/
theorem joins_exact (h : Run (next env) (init address v) (tr ++ [t]) s) :
    ip ∈ joins env t ↔
      Commands ip t ∧ (∀ u ∈ tr, ¬ Commands ip u) ∨ Hears env ip t ∧ ¬ Present env ip tr := by
  obtain ⟨hrun, hs, -⟩ := h.last
  rw [(joins_next hs).2, mem_externalipcache_iff hrun, mem_ipcache_iff hrun]
  simp only [not_exists, not_and]

/-- A node that has been silent for more than half a minute is joined again. -/
theorem joins_exact_again :
    ∃ tr t, Run (next toyEnv) start (tr ++ [t]) t.post ∧
      (∃ u ∈ tr, "10.0.0.2" ∈ joins toyEnv u) ∧ Hears toyEnv "10.0.0.2" t ∧
      ¬ Present toyEnv "10.0.0.2" tr := by
  obtain ⟨tr, t, hrun, hpolled, hearlier, hjoin⟩ :=
    exists_run_snoc_of_replay (next toyEnv) start
      (fun tr t => t.label.polled = .beacon "10.0.0.2" (some otherNode) ∧
        (∃ u ∈ tr, "10.0.0.2" ∈ joins toyEnv u) ∧ "10.0.0.2" ∈ joins toyEnv t)
      [⟨.beacon "10.0.0.2" (some otherNode), .nothing, 1000, shortPeriod⟩,
        ⟨.beacon "10.0.0.2" (some otherNode), otherReply, 2000, shortPeriod⟩,
        ⟨.timeout, .nothing, 30000002001, shortPeriod⟩]
      ⟨.beacon "10.0.0.2" (some otherNode), .nothing, 30000003000, shortPeriod⟩ (by decide)
  refine ⟨tr, t, hrun, hearlier, ?_⟩
  rcases (joins_exact hrun).mp hjoin with ⟨hcommand, -⟩ | hheard
  · rw [Commands, hpolled] at hcommand
    cases hcommand
  · exact hheard

end Discoveryd

end Riaps
