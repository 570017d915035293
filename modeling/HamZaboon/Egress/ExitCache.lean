import HamZaboon.Library.Recency
import Mathlib.Algebra.Order.Ring.Rat
import Mathlib.Data.List.Induction

/-! # The exit cache

`ProviderCacheStore` and `TunnelSelector.remember` (`factory/net/tunnel_selection.py`):
one file, one namespace of exits for each provider, one time stamp for each
namespace.  The window is the namespace's: a reading returns the exits remembered
since the provider's last pause longer than the window, however old they are
(`read_remembered`).
-/

namespace HamZaboon
open Library

/-- A cached exit; `L` is the type of latencies. -/
structure ExitRow (L : Type) where
  id : String
  latencyMs : L
  deriving DecidableEq, Repr

/-- The namespace of a provider. -/
structure ExitRows (L : Type) where
  savedAt : ℚ
  rows : List (ExitRow L)

abbrev CacheFile (L : Type) := String → Option (ExitRows L)

/-- The settings of a `ProviderCacheStore`. -/
structure ProviderCacheStore where
  ttl : ℚ
  maxRows : Nat
  ttl_pos : 0 < ttl
  maxRows_pos : 0 < maxRows

/-- A call of `TunnelSelector.remember`, with the clock as the store reads it, first
in `read` and then in `write`. -/
structure Remember (L : Type) where
  provider : String
  exitId : String
  latencyMs : L
  readAt : ℚ
  savedAt : ℚ

variable {L : Type}

def Remember.row (e : Remember L) : ExitRow L := ⟨e.exitId, e.latencyMs⟩

/-- The loop of `write`: rows with an id, each id once. -/
def uniqueRows (seen : List String) : List (ExitRow L) → List (ExitRow L)
  | [] => []
  | row :: rows =>
      if row.id = "" ∨ row.id ∈ seen then uniqueRows seen rows
      else row :: uniqueRows (row.id :: seen) rows

namespace ProviderCacheStore
variable (store : ProviderCacheStore)

def read (file : CacheFile L) (provider : String) (now : ℚ) : List (ExitRow L) :=
  if provider = "" then []
  else
    match file provider with
    | none => []
    | some entry =>
        if store.ttl < now - entry.savedAt then [] else entry.rows.filter fun row => row.id ≠ ""

def write (file : CacheFile L) (provider : String) (rows : List (ExitRow L)) (now : ℚ) :
    CacheFile L :=
  if provider = "" then file
  else
    match uniqueRows [] rows with
    | [] => file
    | cleaned => Function.update file provider (some ⟨now, cleaned.take store.maxRows⟩)

def remember (file : CacheFile L) (e : Remember L) : CacheFile L :=
  if e.exitId = "" then file
  else
    store.write file e.provider
      (e.row :: (store.read file e.provider e.readAt).filter fun row => row.id ≠ e.exitId) e.savedAt

/-- The file after calls, from a file that is not there. -/
def rememberAll (calls : List (Remember L)) : CacheFile L :=
  calls.foldl store.remember fun _ => none

end ProviderCacheStore

/-! ## What a provider's namespace is about -/

/-- The calls that count for a provider, the newest first. -/
def rememberedFor (provider : String) (calls : List (Remember L)) : List (Remember L) :=
  (calls.filter fun e => e.provider = provider ∧ e.provider ≠ "" ∧ e.exitId ≠ "").reverse

/-- The calls, newest first, up to the first pause longer than the window; a pause
ends when a call reads the cache, or at the reading. -/
def sincePause (ttl : ℚ) : ℚ → List (Remember L) → List (Remember L)
  | _, [] => []
  | now, e :: older => if ttl < now - e.savedAt then [] else e :: sincePause ttl e.readAt older

/-- The namespace of a provider after its calls. -/
def namespaceOf (store : ProviderCacheStore) : List (Remember L) → Option (ExitRows L)
  | [] => none
  | e :: older => some ⟨e.savedAt,
      ((recent (·.exitId) (e :: sincePause store.ttl e.readAt older)).map (·.row)).take store.maxRows⟩

/-- The exits remembered since the last pause, the last remembered first, each once,
as many as the cache holds. -/
def freshExits (store : ProviderCacheStore) (now : ℚ) (log : List (Remember L)) :
    List (ExitRow L) :=
  ((recent (·.exitId) (sincePause store.ttl now log)).map (·.row)).take store.maxRows

theorem uniqueRows_eq_self {rows : List (ExitRow L)} {seen : List String}
    (hids : (rows.map (·.id)).Nodup) (hnonempty : ∀ row ∈ rows, row.id ≠ "" ∧ row.id ∉ seen) :
    uniqueRows seen rows = rows := by
  induction rows generalizing seen with
  | nil => rfl
  | cons row rows ih =>
    rw [List.map_cons, List.nodup_cons] at hids
    obtain ⟨hid, hnew⟩ := hnonempty row (List.mem_cons_self ..)
    rw [uniqueRows, if_neg (by simp [hid, hnew]), ih hids.2]
    intro other hother
    obtain ⟨hne, hnotin⟩ := hnonempty other (List.mem_cons_of_mem _ hother)
    refine ⟨hne, fun hmem => ?_⟩
    rcases List.mem_cons.mp hmem with heq | hmem
    · exact hids.1 (heq ▸ List.mem_map_of_mem hother)
    · exact hnotin hmem

theorem sincePause_subset {ttl now : ℚ} {log : List (Remember L)} {e : Remember L}
    (h : e ∈ sincePause ttl now log) : e ∈ log := by
  induction log generalizing now with
  | nil => exact h
  | cons x older ih =>
    rw [sincePause] at h
    split at h
    · cases h
    · rcases List.mem_cons.mp h with rfl | h
      · exact List.mem_cons_self ..
      · exact List.mem_cons_of_mem _ (ih h)

theorem map_row_id (log : List (Remember L)) :
    (log.map (·.row)).map (·.id) = log.map (·.exitId) := by
  rw [List.map_map]
  rfl

theorem freshExits_ids (store : ProviderCacheStore) (now : ℚ) (log : List (Remember L)) :
    ((freshExits store now log).map (·.id)).Nodup := by
  refine List.Nodup.sublist ((List.take_sublist _ _).map _) ?_
  rw [map_row_id]
  exact nodup_recent _

theorem mem_freshExits {store : ProviderCacheStore} {now : ℚ} {log : List (Remember L)}
    {row : ExitRow L} (h : row ∈ freshExits store now log) : ∃ e ∈ log, row = e.row := by
  obtain ⟨e, he, rfl⟩ := List.mem_map.mp (List.mem_of_mem_take h)
  exact ⟨e, sincePause_subset ((recent_sublist _).subset he), rfl⟩

/-! ## The file holds the namespaces -/

section Step
variable {store : ProviderCacheStore} {file : CacheFile L} {provider : String}

theorem read_namespace {log : List (Remember L)} (hprovider : provider ≠ "")
    (hids : ∀ e ∈ log, e.exitId ≠ "") (hfile : file provider = namespaceOf store log) (now : ℚ) :
    store.read file provider now = freshExits store now log := by
  unfold ProviderCacheStore.read
  rw [if_neg hprovider, hfile]
  cases log with
  | nil => simp [namespaceOf, freshExits, sincePause, recent]
  | cons e older =>
    simp only [namespaceOf]
    unfold freshExits
    rw [sincePause]
    by_cases hstale : store.ttl < now - e.savedAt
    · simp [hstale, recent]
    · rw [if_neg hstale, if_neg hstale]
      refine List.filter_eq_self.mpr fun row hrow => decide_eq_true ?_
      obtain ⟨x, hx, rfl⟩ := List.mem_map.mp (List.mem_of_mem_take hrow)
      rcases List.mem_cons.mp ((recent_sublist _).subset hx) with rfl | hx
      · exact hids _ (List.mem_cons_self ..)
      · exact hids _ (List.mem_cons_of_mem _ (sincePause_subset hx))

theorem remember_other (e : Remember L) (h : provider ≠ e.provider) :
    store.remember file e provider = file provider := by
  unfold ProviderCacheStore.remember ProviderCacheStore.write
  split
  · rfl
  · split
    · rfl
    · generalize uniqueRows [] _ = cleaned
      cases cleaned with
      | nil => rfl
      | cons row rows => exact Function.update_of_ne h ..

theorem remember_own {log : List (Remember L)} {e : Remember L} (hprovider : e.provider ≠ "")
    (hexit : e.exitId ≠ "") (hids : ∀ e ∈ log, e.exitId ≠ "")
    (hfile : file e.provider = namespaceOf store log) :
    store.remember file e e.provider = namespaceOf store (e :: log) := by
  have hrows : e.row :: (freshExits store e.readAt log).filter (fun row => row.id ≠ e.exitId) =
      touch (·.id) e.row (freshExits store e.readAt log) := rfl
  have hclean : uniqueRows [] (touch (·.id) e.row (freshExits store e.readAt log)) =
      touch (·.id) e.row (freshExits store e.readAt log) := by
    refine uniqueRows_eq_self (nodup_touch (freshExits_ids store e.readAt log)) fun row hrow => ?_
    refine ⟨?_, List.not_mem_nil⟩
    rcases mem_touch.mp hrow with rfl | ⟨hrow, -⟩
    · exact hexit
    · obtain ⟨x, hx, rfl⟩ := mem_freshExits hrow
      exact hids x hx
  have hcut : (touch (·.id) e.row (freshExits store e.readAt log)).take store.maxRows =
      ((recent (·.exitId) (e :: sincePause store.ttl e.readAt log)).map (·.row)).take
        store.maxRows := by
    have hid : ∀ x : Remember L, x.row.id = x.exitId := fun _ => rfl
    have hmap : (recent (·.exitId) (e :: sincePause store.ttl e.readAt log)).map Remember.row =
        touch ExitRow.id e.row ((recent (·.exitId) (sincePause store.ttl e.readAt log)).map (·.row)) :=
      map_touch hid e _
    rw [hmap, freshExits, take_touch_take]
    rw [map_row_id]
    exact nodup_recent _
  unfold ProviderCacheStore.remember ProviderCacheStore.write
  rw [if_neg hexit, if_neg hprovider, read_namespace hprovider hids hfile, hrows, hclean]
  show Function.update _ _ _ _ = _
  rw [Function.update_self, hcut]
  rfl

end Step

theorem rememberedFor_ids {provider : String} {calls : List (Remember L)} :
    ∀ e ∈ rememberedFor provider calls, e.exitId ≠ "" := by
  intro e he
  have hmem := List.mem_reverse.mp he
  exact (of_decide_eq_true (List.mem_filter.mp hmem).2).2.2

theorem rememberAll_eq (store : ProviderCacheStore) (provider : String)
    (calls : List (Remember L)) :
    store.rememberAll calls provider = namespaceOf store (rememberedFor provider calls) := by
  induction calls using List.reverseRecOn with
  | nil => rfl
  | append_singleton calls e ih =>
    have hrun : store.rememberAll (calls ++ [e]) = store.remember (store.rememberAll calls) e :=
      List.foldl_concat ..
    have hlog : rememberedFor provider (calls ++ [e]) =
        (if e.provider = provider ∧ e.provider ≠ "" ∧ e.exitId ≠ "" then [e] else []) ++
          rememberedFor provider calls := by
      unfold rememberedFor
      rw [List.filter_append, List.reverse_append]
      by_cases hcounts : e.provider = provider ∧ e.provider ≠ "" ∧ e.exitId ≠ ""
      · rw [List.filter_cons_of_pos (by simpa using hcounts), if_pos hcounts]
        rfl
      · rw [List.filter_cons_of_neg (by simpa using hcounts), if_neg hcounts]
        rfl
    rw [hrun, hlog]
    by_cases hown : e.provider = provider
    · subst hown
      by_cases hcounts : e.provider ≠ "" ∧ e.exitId ≠ ""
      · rw [if_pos ⟨rfl, hcounts⟩]
        exact remember_own hcounts.1 hcounts.2 rememberedFor_ids ih
      · rw [if_neg (fun h => hcounts h.2), List.nil_append, ← ih]
        unfold ProviderCacheStore.remember ProviderCacheStore.write
        by_cases hexit : e.exitId = ""
        · rw [if_pos hexit]
        · rw [if_neg hexit, if_pos (not_not.mp fun hprovider => hcounts ⟨hprovider, hexit⟩)]
    · rw [if_neg (fun h => hown h.1), List.nil_append, ← ih]
      exact remember_other e (Ne.symm hown)

/-- **The exit cache.**  After any calls a provider reads the exits remembered for it
since its last pause longer than the window, the last remembered first, each once
with its last latency, at most as many as the cache holds; and a further call for one
provider changes no other's reading. -/
theorem read_remembered (store : ProviderCacheStore) (calls : List (Remember L))
    (provider : String) (now : ℚ) :
    store.read (store.rememberAll calls) provider now =
        freshExits store now (rememberedFor provider calls) ∧
      ((store.read (store.rememberAll calls) provider now).map (·.id)).Nodup ∧
      (store.read (store.rememberAll calls) provider now).length ≤ store.maxRows ∧
      ∀ e : Remember L, provider ≠ e.provider →
        store.read (store.rememberAll (calls ++ [e])) provider now =
          store.read (store.rememberAll calls) provider now := by
  have hread : ∀ calls : List (Remember L), store.read (store.rememberAll calls) provider now =
      freshExits store now (rememberedFor provider calls) := by
    intro calls
    by_cases hprovider : provider = ""
    · have hnone : rememberedFor provider calls = [] := by
        unfold rememberedFor
        rw [List.reverse_eq_nil_iff, List.filter_eq_nil_iff]
        rintro e - hcounts
        obtain ⟨hown, hne, -⟩ := of_decide_eq_true hcounts
        exact hne (hown.trans hprovider)
      rw [hnone]
      simp [ProviderCacheStore.read, hprovider, freshExits, sincePause, recent]
    · exact read_namespace hprovider rememberedFor_ids (rememberAll_eq store provider calls) now
  refine ⟨hread calls, ?_, ?_, fun e hne => ?_⟩
  · rw [hread]
    exact freshExits_ids store now _
  · rw [hread]
    exact List.length_take_le ..
  · unfold ProviderCacheStore.read
    rw [rememberAll_eq, rememberAll_eq]
    have hlog : rememberedFor provider (calls ++ [e]) = rememberedFor provider calls := by
      unfold rememberedFor
      rw [List.filter_append, List.filter_cons_of_neg (by simp [Ne.symm hne])]
      simp
    rw [hlog]

def dayCache : ProviderCacheStore := ⟨86400, 20, by decide, by decide⟩

def lastRemember (provider exitId : String) (calls : List (Remember L)) : Option (Remember L) :=
  (rememberedFor provider calls).find? fun e => e.exitId = exitId

/-- A later exit keeps an exit in the cache beyond the window of its own last call. -/
theorem stale_exit_is_read :
    let calls : List (Remember ℚ) :=
      [⟨"google", "a", 10, 0, 0⟩, ⟨"google", "b", 20, 86400, 86400⟩]
    dayCache.read (dayCache.rememberAll calls) "google" 86401 = [⟨"b", 20⟩, ⟨"a", 10⟩] ∧
      ∃ e, lastRemember "google" "a" calls = some e ∧ dayCache.ttl < 86401 - e.savedAt := by
  refine ⟨by decide +kernel, ⟨"google", "a", 10, 0, 0⟩, rfl, by decide +kernel⟩

end HamZaboon
