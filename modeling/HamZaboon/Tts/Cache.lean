import HamZaboon.Library.Table
import HamZaboon.Library.Ranking
import HamZaboon.Words.Scheduling
import Mathlib.Data.Prod.Lex
import Mathlib.Data.String.Basic
import Mathlib.Algebra.BigOperators.Group.List.Defs

/-! # The cache of spoken texts

`services/tts_cache.py`: the table `tts_cache` and the in-memory layer over it.
A read looks into memory first and into the table after that, a put writes
both, and the purge deletes from both, first the rows not used for a while and
then the oldest ones, until the files fit the bound.

Times are instants: the texts `isoformat` gives in UTC are ordered as the
instants are.  What a call meets outside the two layers (a failing statement,
the size of a file, whether the deadline of a purge has passed) is part of the
call.
-/

namespace HamZaboon
open Library

/-- A row of `tts_cache`. -/
structure TtsRow where
  cacheKey : String
  lang : String
  text : String
  fileId : String
  fileUniqueId : String
  channelMessageId : Option Int
  createdAt : Instant
  lastUsedAt : Instant
  deriving DecidableEq, Repr

/-- The two layers; `_lru` has its oldest entry first. -/
structure TtsCache where
  rows : KeyedTable String TtsRow TtsRow.cacheKey
  lru : List (String × TtsRow)

def lruCap : Nat := 3000

/-- `_MAX_BYTES`. -/
def maxBytesDefault : Int := 2 * 1024 * 1024 * 1024

/-- `_UNUSED_DAYS`. -/
def unusedDaysDefault : Int := 90

inductive TtsRead
  | works
  /-- The row is read and `UPDATE … SET last_used_at` fails. -/
  | updateFails
  | fails
  deriving DecidableEq, Repr

namespace TtsCache

/-- `_lru[key] = row`, `move_to_end` and the bound. -/
def remember (c : TtsCache) (key : String) (row : TtsRow) : TtsCache :=
  let lru := c.lru.filter (fun e => e.1 ≠ key) ++ [(key, row)]
  { c with lru := if lruCap < lru.length then lru.tail else lru }

def getCached (c : TtsCache) (now : Instant) (key : String) (read : TtsRead) :
    TtsCache × Option TtsRow :=
  match c.lru.lookup key with
  | some row => ({ c with lru := c.lru.filter (fun e => e.1 ≠ key) ++ [(key, row)] }, some row)
  | none =>
    if read = .fails then (c, none)
    else
      match c.rows.lookup key with
      | none => (c, none)
      | some row =>
        let d := { row with lastUsedAt := now }
        let c :=
          if read = .updateFails then c
          else
            { c with
              rows := c.rows.updateWhere (fun r => r.cacheKey = key)
                (fun r => { r with lastUsedAt := now }) fun _ => rfl }
        (c.remember key d, some d)

/-- `put_cached`; nothing happens when the statement fails. -/
def putCached (c : TtsCache) (now : Instant) (key lang text fileId fileUniqueId : String)
    (channelMessageId : Option Int) (fails : Bool) : TtsCache :=
  if fails then c
  else
    let row : TtsRow := ⟨key, lang, text, fileId, fileUniqueId, channelMessageId, now, now⟩
    { c with rows := (c.rows.deleteWhere fun r => r.cacheKey = key).insertOrIgnore row }.remember
      key row

/-- `clear_lru`; also what a restart of the process does. -/
def clearLru (c : TtsCache) : TtsCache := { c with lru := [] }

/-! ## The purge -/

def deleteRowsAndFiles (c : TtsCache) (keys : List String) : TtsCache where
  rows := c.rows.deleteWhere fun r => r.cacheKey ∈ keys
  lru := c.lru.filter fun e => e.1 ∉ keys

/-- The keys of one batch of the age pass. -/
def expiredKeys (c : TtsCache) (batch : Nat) (cutoff : Instant) : List String :=
  ((sortBy TtsRow.lastUsedAt (c.rows.rows.filter fun r => r.lastUsedAt < cutoff)).take batch).map
    TtsRow.cacheKey

theorem mem_expiredKeys {c : TtsCache} {batch : Nat} {cutoff : Instant} {key : String}
    (h : key ∈ c.expiredKeys batch cutoff) :
    ∃ r ∈ c.rows.rows, r.cacheKey = key ∧ r.lastUsedAt < cutoff := by
  obtain ⟨r, hr, hkey⟩ := List.mem_map.mp h
  have hmem := List.mem_filter.mp ((mem_sortBy _).mp (List.mem_of_mem_take hr))
  exact ⟨r, hmem.1, hkey, of_decide_eq_true hmem.2⟩

theorem length_deleteRowsAndFiles {c : TtsCache} {batch : Nat} {cutoff : Instant}
    (h : c.expiredKeys batch cutoff ≠ []) :
    (c.deleteRowsAndFiles (c.expiredKeys batch cutoff)).rows.rows.length < c.rows.rows.length := by
  obtain ⟨key, hkey⟩ := List.exists_mem_of_ne_nil _ h
  obtain ⟨r, hr, hrkey, -⟩ := mem_expiredKeys hkey
  show (c.rows.rows.filter fun r => !decide (r.cacheKey ∈ c.expiredKeys batch cutoff)).length < _
  refine List.length_filter_lt_length_iff_exists.mpr ⟨r, hr, ?_⟩
  rw [hrkey]
  simp [hkey]

/-- The loop of the age pass: what is left, the deleted keys, and how often the
deadline was looked at.  `late i` says whether it had passed the `i`-th time. -/
def agePass (batch : Nat) (cutoff : Instant) (late : Nat → Bool) (check : Nat) (c : TtsCache) :
    TtsCache × List String × Nat :=
  if late check then (c, [], check + 1)
  else if h : c.expiredKeys batch cutoff = [] then (c, [], check + 1)
  else
    let keys := c.expiredKeys batch cutoff
    let next := c.deleteRowsAndFiles keys
    if keys.length < batch then (next, keys, check + 1)
    else
      let (last, rest, check') := agePass batch cutoff late (check + 1) next
      (last, keys ++ rest, check')
termination_by c.rows.rows.length
decreasing_by exact length_deleteRowsAndFiles h

/-- `ordered`: the keys in the order in which the size pass evicts. -/
def orderedRows (c : TtsCache) : List TtsRow :=
  sortBy (fun r => toLex (r.lastUsedAt, r.cacheKey)) c.rows.rows

/-- The loop that gathers `victims`. -/
def victims (sizes : String → Nat) (overBy : Int) : Int → List String → List String
  | _, [] => []
  | freed, key :: keys =>
    if overBy ≤ freed + sizes key then [key] else key :: victims sizes overBy (freed + sizes key) keys

/-- The loop over the chunks of the victims, which begin at `starts`. -/
def evictChunks (batch : Nat) (late : Nat → Bool) (keys : List String) :
    Nat → List Nat → TtsCache → TtsCache × List String
  | _, [], c => (c, [])
  | check, i :: starts, c =>
    if late check then (c, [])
    else
      let chunk := (keys.drop i).take batch
      let (last, rest) := evictChunks batch late keys (check + 1) starts (c.deleteRowsAndFiles chunk)
      (last, chunk ++ rest)

/-- `range(0, stop, step)`. -/
def pyRange (stop step : Nat) : List Nat := List.range' 0 ((stop + step - 1) / step) step

/-- The size pass: what is left, and the deleted keys. -/
def sizePass (batch : Nat) (maxBytes : Int) (sizes : String → Nat) (late : Nat → Bool)
    (check : Nat) (c : TtsCache) : TtsCache × List String :=
  if late check then (c, [])
  else
    let ordered := c.orderedRows.map TtsRow.cacheKey
    let overBy := ((ordered.map sizes).sum : Int) - maxBytes
    if 0 < overBy then
      let keys := victims sizes overBy 0 ordered
      evictChunks batch late keys (check + 1) (pyRange keys.length batch) c
    else (c, [])

end TtsCache

/-- The arguments of `purge_tts_cache`, and what it meets on its way. -/
structure TtsPurge where
  batch : Int
  maxBytes : Int
  unusedDays : Int
  /-- The size of the file of a key, 0 without one. -/
  sizes : String → Nat
  /-- Whether the deadline has passed, each time it is looked at. -/
  late : Nat → Bool

namespace TtsCache

/-- The cache after the age pass of a purge. -/
def aged (c : TtsCache) (now : Instant) (p : TtsPurge) : TtsCache × List String × Nat :=
  c.agePass (max 1 p.batch).toNat (now - p.unusedDays * dayMicros) p.late 0

/-- `purge_tts_cache`: what is left, and the counts. -/
def purge (c : TtsCache) (now : Instant) (p : TtsPurge) : TtsCache × Nat × Nat :=
  let (mid, expired, check) := c.aged now p
  let (last, overCap) := mid.sizePass (max 1 p.batch).toNat p.maxBytes p.sizes p.late check
  (last, expired.length, overCap.length)

end TtsCache

end HamZaboon
