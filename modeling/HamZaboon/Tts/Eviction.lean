import HamZaboon.Library.Runs
import HamZaboon.Tts.Cache
import Mathlib.Logic.Function.Basic

/-! # Eviction by last use

A run of reads, puts, restarts and purges of the cache, with the instant at
which each key was last put or returned kept beside it.  The purge goes by the
column `last_used_at`; a read that is served from memory does not write it.
Where every read that returns a row leaves its instant in the column, the
column is the last use (`Dated`), and the purge evicts by last use.
-/

namespace HamZaboon
open Library

namespace TtsCache

/-! ## What a purge deletes -/

theorem mem_deleteRowsAndFiles {c : TtsCache} {keys : List String} {r : TtsRow} :
    r ∈ (c.deleteRowsAndFiles keys).rows.rows ↔ r ∈ c.rows.rows ∧ r.cacheKey ∉ keys := by
  simp [deleteRowsAndFiles]

/-- **The age pass** deletes the rows of some expired keys and no others. -/
theorem agePass_spec (batch : Nat) (cutoff : Instant) (late : Nat → Bool) (check : Nat)
    (c : TtsCache) :
    (∀ r, r ∈ (c.agePass batch cutoff late check).1.rows.rows ↔
        r ∈ c.rows.rows ∧ r.cacheKey ∉ (c.agePass batch cutoff late check).2.1) ∧
      ∀ key ∈ (c.agePass batch cutoff late check).2.1,
        ∃ r ∈ c.rows.rows, r.cacheKey = key ∧ r.lastUsedAt < cutoff := by
  fun_induction agePass batch cutoff late check c with
  | case1 check c h => simp
  | case2 check c h hnil => simp
  | case3 check c h hne keys next hlast =>
    exact ⟨fun r => mem_deleteRowsAndFiles, fun key hkey => mem_expiredKeys hkey⟩
  | case4 check c h hne keys next hmore last rest check' heq ih =>
    rw [heq] at ih
    obtain ⟨hrows, hkeys⟩ := ih
    refine ⟨fun r => ?_, fun key hkey => ?_⟩
    · rw [hrows, mem_deleteRowsAndFiles, List.mem_append, not_or, and_assoc]
    · rcases List.mem_append.mp hkey with hkey | hkey
      · exact mem_expiredKeys hkey
      · obtain ⟨r, hr, hkey, hold⟩ := hkeys key hkey
        exact ⟨r, (mem_deleteRowsAndFiles.mp hr).1, hkey, hold⟩

theorem victims_isPrefix (sizes : String → Nat) (overBy freed : Int) (keys : List String) :
    victims sizes overBy freed keys <+: keys := by
  induction keys generalizing freed with
  | nil => exact List.prefix_rfl
  | cons key keys ih =>
    rw [victims]
    split
    · exact ⟨keys, rfl⟩
    · exact List.prefix_cons_inj key |>.mpr (ih _)

theorem evictChunks_spec (batch : Nat) (late : Nat → Bool) (keys : List String)
    (count start check : Nat) (c : TtsCache) :
    (∀ r, r ∈ (evictChunks batch late keys check (List.range' start count batch) c).1.rows.rows ↔
        r ∈ c.rows.rows ∧
          r.cacheKey ∉ (evictChunks batch late keys check (List.range' start count batch) c).2) ∧
      (evictChunks batch late keys check (List.range' start count batch) c).2 <+:
        keys.drop start := by
  induction count generalizing start check c with
  | zero => simp [evictChunks]
  | succ count ih =>
    rw [List.range'_succ, evictChunks]
    split
    · simp
    · obtain ⟨hrows, hkeys⟩ :=
        ih (start + batch) (check + 1) (c.deleteRowsAndFiles ((keys.drop start).take batch))
      refine ⟨fun r => ?_, ?_⟩
      · rw [hrows, mem_deleteRowsAndFiles, List.mem_append, not_or, and_assoc]
      · rw [← List.drop_drop] at hkeys
        obtain ⟨rest, hrest⟩ := hkeys
        exact ⟨rest, by rw [List.append_assoc, hrest, List.take_append_drop]⟩

/-- **The size pass** deletes the keys that come first in the order of use. -/
theorem sizePass_spec (batch : Nat) (maxBytes : Int) (sizes : String → Nat) (late : Nat → Bool)
    (check : Nat) (c : TtsCache) :
    (∀ r, r ∈ (c.sizePass batch maxBytes sizes late check).1.rows.rows ↔
        r ∈ c.rows.rows ∧ r.cacheKey ∉ (c.sizePass batch maxBytes sizes late check).2) ∧
      (c.sizePass batch maxBytes sizes late check).2 <+: c.orderedRows.map TtsRow.cacheKey := by
  unfold sizePass
  split
  · simp
  · simp only
    split
    · obtain ⟨hrows, hkeys⟩ := evictChunks_spec batch late _ _ 0 (check + 1) c
      exact ⟨hrows, (List.drop_zero ▸ hkeys).trans (victims_isPrefix ..)⟩
    · simp

end TtsCache

/-! ## Runs -/

/-- The cache at a moment, and when each key was last put or returned by a read. -/
structure TtsMoment where
  cache : TtsCache
  clock : Instant
  lastUse : String → Option Instant

inductive TtsCall
  | put (key lang text fileId fileUniqueId : String) (channelMessageId : Option Int) (fails : Bool)
  | get (key : String) (read : TtsRead)
  | clearLru
  | purge (p : TtsPurge)

/-- A call, some time after the one before. -/
structure TtsEvent where
  elapsed : Nat
  call : TtsCall

namespace TtsMoment

/-- When a process starts over a table: nothing is in memory, and a row was last
used when it says. -/
def start (rows : KeyedTable String TtsRow TtsRow.cacheKey) (clock : Instant) : TtsMoment where
  cache := ⟨rows, []⟩
  clock := clock
  lastUse key := (rows.lookup key).map TtsRow.lastUsedAt

def nowAt (s : TtsMoment) (e : TtsEvent) : Instant := s.clock + e.elapsed

def step (s : TtsMoment) (e : TtsEvent) : TtsMoment :=
  match e.call with
  | .put key lang text fileId fileUniqueId channelMessageId fails =>
    { cache :=
        s.cache.putCached (s.nowAt e) key lang text fileId fileUniqueId channelMessageId fails
      clock := s.nowAt e
      lastUse := if fails then s.lastUse else Function.update s.lastUse key (some (s.nowAt e)) }
  | .get key read =>
    let (cache, reply) := s.cache.getCached (s.nowAt e) key read
    { cache := cache
      clock := s.nowAt e
      lastUse :=
        if reply.isSome then Function.update s.lastUse key (some (s.nowAt e)) else s.lastUse }
  | .clearLru => { s with cache := s.cache.clearLru, clock := s.nowAt e }
  | .purge p => { s with cache := (s.cache.purge (s.nowAt e) p).1, clock := s.nowAt e }

/-- A purge evicts by last use: the age pass leaves every key used within
`unused_days`, and no key the size pass evicts was used later than a key that
is left. -/
def EvictsByUse (s : TtsMoment) (e : TtsEvent) : Prop :=
  match e.call with
  | .purge p =>
    let mid := (s.cache.aged (s.nowAt e) p).1
    let last := (s.cache.purge (s.nowAt e) p).1
    (∀ key t, s.lastUse key = some t → s.nowAt e - p.unusedDays * dayMicros ≤ t →
        s.cache.rows.has key = true → mid.rows.has key = true) ∧
      ∀ key other t t', mid.rows.has key = true → last.rows.has key = false →
        last.rows.has other = true → s.lastUse key = some t → s.lastUse other = some t' → t ≤ t'
  | _ => True

/-- A read leaves its instant in the column of a row it returns: it is not
served from memory, unless the column has that instant already, and the update
does not fail. -/
def Refreshes (s : TtsMoment) (e : TtsEvent) : Prop :=
  match e.call with
  | .get key read => ∀ r ∈ s.cache.rows.rows, r.cacheKey = key →
      r.lastUsedAt = s.nowAt e ∨ s.cache.lru.lookup key = none ∧ read ≠ .updateFails
  | _ => True

/-- The column is the last use. -/
def Dated (s : TtsMoment) : Prop :=
  ∀ r ∈ s.cache.rows.rows, s.lastUse r.cacheKey = some r.lastUsedAt

theorem dated_start (rows : KeyedTable String TtsRow TtsRow.cacheKey) (clock : Instant) :
    (start rows clock).Dated := by
  intro r hr
  have hlookup : rows.lookup r.cacheKey = some r := KeyedTable.lookup_of_mem hr
  show (rows.lookup r.cacheKey).map TtsRow.lastUsedAt = _
  rw [hlookup, Option.map_some]

theorem mem_rows_putCached {c : TtsCache} {now : Instant}
    {key lang text fileId fileUniqueId : String} {channelMessageId : Option Int} {r : TtsRow}
    (hr : r ∈ (c.putCached now key lang text fileId fileUniqueId channelMessageId
      false).rows.rows) :
    r.cacheKey = key ∧ r.lastUsedAt = now ∨ r.cacheKey ≠ key ∧ r ∈ c.rows.rows := by
  simp only [TtsCache.putCached, TtsCache.remember, Bool.false_eq_true, if_false,
    KeyedTable.rows_insertOrIgnore] at hr
  split at hr
  · have := List.mem_filter.mp hr
    exact .inr ⟨by simpa using this.2, this.1⟩
  · rcases List.mem_append.mp hr with hr | hr
    · have := List.mem_filter.mp hr
      exact .inr ⟨by simpa using this.2, this.1⟩
    · rw [List.mem_singleton.mp hr]
      exact .inl ⟨rfl, rfl⟩

theorem mem_rows_getCached {c : TtsCache} {now : Instant} {key : String} {read : TtsRead}
    {r : TtsRow} (hr : r ∈ (c.getCached now key read).1.rows.rows) :
    (r ∈ c.rows.rows ∧ (r.cacheKey = key → (c.getCached now key read).2.isSome = true →
        c.lru.lookup key ≠ none ∨ read = .updateFails)) ∨
      r.cacheKey = key ∧ r.lastUsedAt = now ∧ (c.getCached now key read).2.isSome = true := by
  unfold TtsCache.getCached at hr ⊢
  cases hlru : c.lru.lookup key with
  | some row =>
    rw [hlru] at hr
    exact .inl ⟨hr, fun _ _ => .inl (by simp)⟩
  | none =>
    rw [hlru] at hr
    simp only at hr ⊢
    split at hr
    · rename_i hfails
      rw [if_pos hfails]
      exact .inl ⟨hr, fun _ h => by cases h⟩
    · rename_i hfails
      rw [if_neg hfails]
      cases hrow : c.rows.lookup key with
      | none =>
        rw [hrow] at hr
        exact .inl ⟨hr, fun _ h => by cases h⟩
      | some row =>
        rw [hrow] at hr
        simp only at hr ⊢
        by_cases hupdate : read = .updateFails
        · rw [if_pos hupdate] at hr
          exact .inl ⟨hr, fun _ _ => .inr hupdate⟩
        · rw [if_neg hupdate] at hr
          obtain ⟨old, hold, rfl⟩ := List.mem_map.mp hr
          by_cases hkey : old.cacheKey = key
          · refine .inr ?_
            simp [hkey]
          · refine .inl ?_
            simp [hkey, hold]

/-- **A step keeps the column dated** when its read refreshes it. -/
theorem dated_step {s : TtsMoment} (h : s.Dated) {e : TtsEvent} (he : s.Refreshes e) :
    (s.step e).Dated := by
  obtain ⟨elapsed, call⟩ := e
  cases call with
  | put key lang text fileId fileUniqueId channelMessageId fails =>
    cases fails with
    | true => exact h
    | false =>
      intro r hr
      show Function.update s.lastUse key _ r.cacheKey = _
      rcases mem_rows_putCached hr with ⟨rfl, hnow⟩ | ⟨hkey, hr⟩
      · rw [Function.update_self, hnow]
      · rw [Function.update_of_ne hkey]
        exact h r hr
  | get key read =>
    intro r hr
    have hr : r ∈ (s.cache.getCached (s.nowAt ⟨elapsed, .get key read⟩) key read).1.rows.rows := hr
    show (if (s.cache.getCached (s.nowAt ⟨elapsed, .get key read⟩) key read).2.isSome
      then Function.update s.lastUse key _ else s.lastUse) r.cacheKey = _
    rcases mem_rows_getCached hr with ⟨hold, hstale⟩ | ⟨rfl, hnow, hsome⟩
    · split
      · rename_i hsome
        by_cases hkey : r.cacheKey = key
        · rw [hkey, Function.update_self]
          rcases he r hold hkey with hnow | ⟨hmiss, hworks⟩
          · rw [hnow]
          · rcases hstale hkey hsome with hhit | hfailed
            · exact absurd hmiss hhit
            · exact absurd hfailed hworks
        · rw [Function.update_of_ne hkey]
          exact h r hold
      · exact h r hold
    · rw [if_pos hsome, Function.update_self, hnow]
  | clearLru => exact h
  | purge p =>
    intro r hr
    have hmid := ((TtsCache.sizePass_spec _ _ _ _ _ _).1 r).mp hr
    exact h r (((TtsCache.agePass_spec _ _ _ _ _).1 r).mp hmid.1).1

theorem evictsByUse_of_dated {s : TtsMoment} (h : s.Dated) (e : TtsEvent) : s.EvictsByUse e := by
  obtain ⟨elapsed, call⟩ := e
  cases call with
  | purge p =>
    let now := s.nowAt ⟨elapsed, .purge p⟩
    obtain ⟨hrows, hexpired⟩ := TtsCache.agePass_spec (max 1 p.batch).toNat
      (now - p.unusedDays * dayMicros) p.late 0 s.cache
    obtain ⟨hrows', hfirst⟩ := TtsCache.sizePass_spec (max 1 p.batch).toNat p.maxBytes p.sizes
      p.late (s.cache.aged now p).2.2 (s.cache.aged now p).1
    refine ⟨fun key t hlast hwithin hhas => ?_, fun key other t t' hmid hgone hleft ht ht' => ?_⟩
    · obtain ⟨r, hr, rfl⟩ := KeyedTable.has_iff.mp hhas
      refine KeyedTable.has_iff.mpr ⟨r, (hrows r).mpr ⟨hr, fun hmem => ?_⟩, rfl⟩
      -- Only keys with a column before the cutoff are deleted.
      obtain ⟨old, hold, hkey, hbefore⟩ := hexpired _ hmem
      have hdate := h old hold
      rw [hkey, hlast, Option.some.injEq] at hdate
      exact absurd (hdate ▸ hwithin) (not_le.mpr hbefore)
    · obtain ⟨r, hr, rfl⟩ := KeyedTable.has_iff.mp hmid
      obtain ⟨r', hr', rfl⟩ := KeyedTable.has_iff.mp hleft
      obtain ⟨hr'mid, hkept⟩ := (hrows' r').mp hr'
      have hevicted : r.cacheKey ∈ ((s.cache.aged now p).1.sizePass (max 1 p.batch).toNat
          p.maxBytes p.sizes p.late (s.cache.aged now p).2.2).2 := by
        by_contra hmem
        rw [← Bool.not_eq_true, KeyedTable.has_iff] at hgone
        exact hgone ⟨r, (hrows' r).mpr ⟨hr, hmem⟩, rfl⟩
      obtain ⟨first, hfirsts, hkeys⟩ := List.prefix_map_iff.mp hfirst
      rw [hkeys] at hevicted hkept
      obtain ⟨r₀, hr₀, hkey⟩ := List.mem_map.mp hevicted
      have hle := le_of_prefix_sortBy _ hfirsts hr₀ hr'mid
        fun hmem => hkept (List.mem_map.mpr ⟨r', hmem, rfl⟩)
      have hr₀mid : r₀ ∈ (s.cache.aged now p).1.rows.rows :=
        (mem_sortBy _).mp (hfirsts.subset hr₀)
      have hdate := h r ((hrows r).mp hr).1
      have hdate' := h r' ((hrows r').mp hr'mid).1
      have hdate₀ := h r₀ ((hrows r₀).mp hr₀mid).1
      rw [hkey] at hdate₀
      rw [ht, Option.some.injEq] at hdate hdate₀
      rw [ht', Option.some.injEq] at hdate'
      rw [hdate', hdate₀]
      exact Prod.Lex.monotone_fst _ _ hle
  | put => trivial
  | get => trivial
  | clearLru => trivial

/-- **Eviction by last use.**  In a run from any table with nothing in memory
whose reads all refresh the column, every purge evicts by last use. -/
theorem purges_evict_by_last_use (rows : KeyedTable String TtsRow TtsRow.cacheKey)
    (clock : Instant) (events : List TtsEvent)
    (h : Meets step Refreshes (start rows clock) events) :
    Meets step EvictsByUse (start rows clock) events := by
  have hstep : ∀ s e, Dated s → Refreshes s e → Dated (s.step e) :=
    fun _ _ hdated he => dated_step hdated he
  have hpurge : ∀ s e, Dated s → Refreshes s e → EvictsByUse s e :=
    fun _ e hdated _ => evictsByUse_of_dated hdated e
  exact meets_of_meets step hstep hpurge (dated_start rows clock) h

/-- The arguments of a purge with the defaults, no files and no deadline. -/
def nightly : TtsPurge where
  batch := 500
  maxBytes := maxBytesDefault
  unusedDays := unusedDaysDefault
  sizes _ := 0
  late _ := false

theorem reread_after_restart_is_kept :
    let days : Nat → Nat := (· * 86400000000)
    Meets step EvictsByUse (start .empty 0)
      [⟨0, .put "k" "en" "tree" "f" "u" none false⟩, ⟨0, .clearLru⟩, ⟨days 89, .get "k" .works⟩,
        ⟨days 2, .purge nightly⟩] := by
  intro days
  refine purges_evict_by_last_use _ _ _ ⟨trivial, trivial, ?_, trivial, trivial⟩
  intro r _ _
  exact .inr ⟨rfl, by decide⟩

/-- A key read from memory on day 89 and purged on day 91. -/
theorem read_two_days_ago_purged :
    let days : Nat → Nat := (· * 86400000000)
    let before := run step (start .empty 0)
      [⟨0, .put "k" "en" "tree" "f" "u" none false⟩, ⟨days 89, .get "k" .works⟩]
    let night : TtsEvent := ⟨days 2, .purge nightly⟩
    before.lastUse "k" = some (89 * dayMicros) ∧ before.nowAt night = 91 * dayMicros ∧
      before.cache.rows.has "k" = true ∧ (before.step night).cache.rows.has "k" = false ∧
      ¬ before.EvictsByUse night := by
  intro days before night
  have hlast : before.lastUse "k" = some (89 * dayMicros) := by decide +kernel
  have hhas : before.cache.rows.has "k" = true := by decide +kernel
  have hgone : (before.cache.aged (before.nowAt night) nightly).1.rows.has "k" = false := by
    decide +kernel
  refine ⟨hlast, by decide +kernel, hhas, by decide +kernel, fun law => ?_⟩
  have hkept := law.1 "k" _ hlast (by decide +kernel) hhas
  exact Bool.false_ne_true (hgone.symm.trans hkept)

end TtsMoment

end HamZaboon
