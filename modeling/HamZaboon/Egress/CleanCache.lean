import HamZaboon.Egress.Leases
import HamZaboon.Library.Latest
import HamZaboon.Library.Trim
import HamZaboon.Texts.PyFloat
import Mathlib.Data.List.Induction
import Mathlib.Data.List.Sort
import Mathlib.Data.Prod.Lex

/-! # The cache of clean servers

The clean-server cache of `factory/precard/provider_lease_policy.py`: rows of a
server, a provider, a time and a latency, which the writer, the loader, the upsert
and the reader each normalize.  The cache is the last success of each pair in the
history that its list stands for (`clean_cache_answers`); a load goes back to the
history of the last save.
-/

namespace HamZaboon
open Library

/-- What the cache takes from Python. -/
structure CleanLib extends StrLib where
  /-- `float(n)`; `none` for the `OverflowError`. -/
  floatOfInt : Int → Option ℚ
  /-- The difference of two finite floats. -/
  minus : ℚ → ℚ → PyFloat
  /-- `str(n)` is no `ValueError`. -/
  printable : Int → Bool
  /-- A normal form is its own. -/
  normalizes : ∀ s, lower (strip (lower (strip s))) = lower (strip s)

structure CleanRow where
  serverId : String
  provider : String
  lastOkTs : ℚ
  latencyMs : Option Int
  deriving DecidableEq, Repr

def cleanCacheTtlS : ℚ := 86400

def finiteTs : PyFloat → ℚ
  | .finite q => q
  | _ => 0

def cleanLatency : Option PyNum → Option Int
  | none => none
  | some (.int n) => some n
  | some (.float x) => x.toInt.join

/-- `(r.get("latency_ms") is None, r.get("latency_ms") or 0)`. -/
def latencyKey (row : CleanRow) : Bool ×ₗ Int := toLex (row.latencyMs.isNone, row.latencyMs.getD 0)

namespace CleanLib
variable (lib : CleanLib)

/-- `float(value)`. -/
def float : PyNum → Option PyFloat
  | .int n => (lib.floatOfInt n).map .finite
  | .float x => some x

/-- `_clean_ttl`; `none` for the `OverflowError` that it lets through. -/
def cleanTtl : Option PyNum → Option ℚ
  | none => some cleanCacheTtlS
  | some value => (lib.float value).map fun
    | .finite ttl => if ttl ≤ 0 then cleanCacheTtlS else ttl
    | _ => cleanCacheTtlS

/-- `_clean_ts`; `none` for the `OverflowError` that it lets through. -/
def cleanTs : PyNum → Option ℚ
  | .int n => if n = 0 then some 0 else lib.floatOfInt n
  | .float x => some (finiteTs x)

/-- The row that `load_clean_cache` makes of a row, and `save_clean_cache` too. -/
def normalRow (row : CleanRow) : CleanRow where
  serverId := row.serverId
  provider := lib.normProvider (some row.provider)
  lastOkTs := finiteTs (.finite row.lastOkTs)
  latencyMs := cleanLatency (row.latencyMs.map .int)

/-- `load_clean_cache`, of a file that a save wrote or that is missing. -/
def loadCleanCache (file : Option (List CleanRow)) : List CleanRow :=
  ((file.getD []).filter fun row => row.serverId ≠ "").map lib.normalRow

/-- `save_clean_cache`: the file after it, or `none` where it raises and leaves the
file as it is. -/
def saveCleanCache (entries : List CleanRow) (file : Option (List CleanRow)) :
    Option (Option (List CleanRow)) :=
  let live := entries.filter fun row => row.serverId ≠ ""
  if live.isEmpty then some file
  else if live.all fun row => row.latencyMs.all lib.printable then some (some (live.map lib.normalRow))
  else none

/-- `record_clean_success`; `none` where it raises. -/
def recordCleanSuccess (entries : List CleanRow) (serverId : String) (provider : Option String)
    (latencyMs : Option PyNum) (now : PyNum) : Option (List CleanRow) :=
  if serverId = "" then some entries
  else
    let want := lib.normProvider provider
    let rows := entries.filter fun row =>
      ¬ (row.serverId = serverId ∧ lib.normProvider (some row.provider) = want)
    (lib.cleanTs now).map fun ts => rows ++ [⟨serverId, want, ts, cleanLatency latencyMs⟩]

/-- The age of a row is finite and within the limit. -/
def isFresh (limit : ℚ) (now : PyFloat) (row : CleanRow) : Bool :=
  match now with
  | .finite now =>
      match lib.minus now row.lastOkTs with
      | .finite age => 0 ≤ age ∧ age ≤ limit
      | _ => false
  | _ => false

/-- The loop of `clean_cache_candidates`. -/
def freshRows (want : String) (limit : ℚ) (now : PyNum) : List CleanRow → Option (List CleanRow)
  | [] => some []
  | row :: rows =>
      if row.serverId = "" ∨ lib.normProvider (some row.provider) ≠ want then
        freshRows want limit now rows
      else
        (lib.float now).bind fun time =>
          (freshRows want limit now rows).map fun fresh =>
            if lib.isFresh limit time row then row :: fresh else fresh

/-- `clean_cache_candidates`; `none` where it raises. -/
def cleanCacheCandidates (entries : List CleanRow) (provider : Option String) (now : PyNum)
    (ttl : Option PyNum) : Option (List CleanRow) :=
  (lib.cleanTtl ttl).bind fun limit =>
    (lib.freshRows (lib.normProvider provider) limit now entries).map fun fresh =>
      fresh.insertionSort fun a b => latencyKey a ≤ latencyKey b

end CleanLib

/-! ## Runs -/

inductive CleanOp
  | record (serverId : String) (provider : Option String) (latencyMs : Option PyNum) (now : PyNum)
  | save
  | load

structure CleanState where
  entries : List CleanRow := []
  file : Option (List CleanRow) := none

/-- A server and a normalized provider, with the time and the latency of a success. -/
abbrev Success := (String × String) × (ℚ × Option Int)

/-- The history of the caller's list, and that of the file. -/
structure CleanLedger where
  current : List Success := []
  saved : Option (List Success) := none

def lastSuccess (history : List Success) (pair : String × String) : Option (ℚ × Option Int) :=
  (history.reverse.find? fun e => e.1 = pair).map (·.2)

def CleanRow.success (row : CleanRow) : Success :=
  ((row.serverId, row.provider), (row.lastOkTs, row.latencyMs))

namespace CleanLib
variable (lib : CleanLib)

/-- An operation on the cache; one that raises changes nothing. -/
def step (s : CleanState) : CleanOp → CleanState
  | .record serverId provider latencyMs now =>
      { s with
        entries := (lib.recordCleanSuccess s.entries serverId provider latencyMs now).getD s.entries }
  | .save => { s with file := (lib.saveCleanCache s.entries s.file).getD s.file }
  | .load => { s with entries := lib.loadCleanCache s.file }

def run (ops : List CleanOp) : CleanState := ops.foldl lib.step {}

/-- The same on histories: a record with a time that can be read adds a success, a
save keeps a history that is not empty, if its last successes can be written, and a
load goes back to what was saved. -/
def ledgerStep (l : CleanLedger) : CleanOp → CleanLedger
  | .record serverId provider latencyMs now =>
      match lib.cleanTs now with
      | some ts =>
          if serverId = "" then l
          else
            let success := ((serverId, lib.normProvider provider), (ts, cleanLatency latencyMs))
            { l with current := l.current ++ [success] }
      | none => l
  | .save =>
      if l.current ≠ [] ∧ (lastEntries l.current).all fun e => e.2.2.all lib.printable then
        { l with saved := some l.current }
      else l
  | .load => { l with current := l.saved.getD [] }

def ledger (ops : List CleanOp) : CleanLedger := ops.foldl lib.ledgerStep {}

/-- The age of a success is between zero and the limit. -/
def Fresh (limit : ℚ) (now : PyNum) (ts : ℚ) : Prop :=
  ∃ time age, lib.float now = some (.finite time) ∧ lib.minus time ts = .finite age ∧
    0 ≤ age ∧ age ≤ limit

/-! ## The list is the last successes of its history -/

variable {lib}

/-- Rows as a record leaves them. -/
def Normal (lib : CleanLib) (rows : List CleanRow) : Prop :=
  ∀ row ∈ rows, row.serverId ≠ "" ∧ lib.normProvider (some row.provider) = row.provider

/-- The list and the file hold the last successes of their histories, and a history
is empty only before the first save. -/
structure Agrees (lib : CleanLib) (s : CleanState) (l : CleanLedger) : Prop where
  entries : s.entries.map (·.success) = lastEntries l.current
  normal : Normal lib s.entries
  file : s.file.map (fun rows => rows.map (·.success)) = l.saved.map lastEntries
  fileNormal : ∀ rows ∈ s.file, Normal lib rows
  unsaved : l.current = [] → l.saved = none
  saved : ∀ history ∈ l.saved, history ≠ []

theorem normProvider_normProvider (lib : CleanLib) (provider : Option String) :
    lib.normProvider (some (lib.normProvider provider)) = lib.normProvider provider :=
  lib.normalizes _

theorem lastEntries_eq_nil_iff {history : List Success} : lastEntries history = [] ↔ history = [] := by
  cases history with
  | nil => simp [lastEntries]
  | cons e history =>
    have hmem : e.1 ∈ (lastEntries (e :: history)).map (·.1) :=
      mem_keys_lastEntries.mpr (List.mem_cons_self ..)
    refine ⟨fun hnil => ?_, fun hnil => by cases hnil⟩
    rw [hnil] at hmem
    cases hmem

theorem Normal.filter_eq {rows : List CleanRow} (h : Normal lib rows) :
    rows.filter (fun row => row.serverId ≠ "") = rows :=
  List.filter_eq_self.mpr fun row hrow => decide_eq_true (h row hrow).1

theorem Normal.map_eq {rows : List CleanRow} (h : Normal lib rows) :
    rows.map lib.normalRow = rows := by
  have hrow : ∀ row ∈ rows, lib.normalRow row = row := by
    rintro ⟨serverId, provider, lastOkTs, latencyMs⟩ hrow
    have hprovider : lib.normProvider (some provider) = provider := (h _ hrow).2
    cases latencyMs with
    | none => simp [normalRow, finiteTs, cleanLatency, hprovider]
    | some ms => simp [normalRow, finiteTs, cleanLatency, hprovider]
  rw [List.map_congr_left hrow, List.map_id']

theorem loadCleanCache_eq {file : Option (List CleanRow)} (h : ∀ rows ∈ file, Normal lib rows) :
    lib.loadCleanCache file = file.getD [] := by
  cases file with
  | none => rfl
  | some rows =>
    have hrows : Normal lib rows := h rows rfl
    rw [loadCleanCache, Option.getD_some, hrows.filter_eq, hrows.map_eq]

theorem saveCleanCache_eq {entries : List CleanRow} (h : Normal lib entries)
    (file : Option (List CleanRow)) :
    lib.saveCleanCache entries file =
      if entries = [] then some file
      else if entries.all fun row => row.latencyMs.all lib.printable then some (some entries)
      else none := by
  unfold saveCleanCache
  simp only [h.filter_eq, h.map_eq, List.isEmpty_iff]

theorem record_entries {entries : List CleanRow} {history : List Success} (h : Normal lib entries)
    (hentries : entries.map (·.success) = lastEntries history) (new : CleanRow) :
    ((entries.filter fun row => ¬ (row.serverId = new.serverId ∧
        lib.normProvider (some row.provider) = new.provider)) ++ [new]).map (·.success) =
      lastEntries (history ++ [new.success]) := by
  have hfilter : entries.filter (fun row => ¬ (row.serverId = new.serverId ∧
      lib.normProvider (some row.provider) = new.provider)) =
        entries.filter fun row => row.success.1 ≠ new.success.1 := by
    refine List.filter_congr fun row hrow => ?_
    rw [(h row hrow).2]
    simp [CleanRow.success, Prod.ext_iff]
  rw [hfilter, lastEntries_append_singleton, ← hentries, List.filter_map, List.map_append]
  rfl

theorem Agrees.record {s : CleanState} {l : CleanLedger} (h : Agrees lib s l) (new : CleanRow)
    (hid : new.serverId ≠ "") (hprovider : lib.normProvider (some new.provider) = new.provider) :
    Agrees lib
      { s with entries := (s.entries.filter fun row => ¬ (row.serverId = new.serverId ∧
          lib.normProvider (some row.provider) = new.provider)) ++ [new] }
      { l with current := l.current ++ [new.success] } where
  entries := record_entries h.normal h.entries new
  normal := by
    intro row hrow
    rcases List.mem_append.mp hrow with hrow | hrow
    · exact h.normal row (List.mem_of_mem_filter hrow)
    · obtain rfl := List.mem_singleton.mp hrow
      exact ⟨hid, hprovider⟩
  file := h.file
  fileNormal := h.fileNormal
  unsaved hnil := by simp at hnil
  saved := h.saved

theorem Agrees.save {s : CleanState} {l : CleanLedger} (h : Agrees lib s l)
    (hne : l.current ≠ []) :
    Agrees lib { s with file := some s.entries } { l with saved := some l.current } where
  entries := h.entries
  normal := h.normal
  file := congrArg some h.entries
  fileNormal := by
    rintro rows ⟨⟩
    exact h.normal
  unsaved hnil := absurd hnil hne
  saved := by
    rintro history ⟨⟩
    exact hne

theorem Agrees.load {s : CleanState} {l : CleanLedger} (h : Agrees lib s l) :
    Agrees lib { s with entries := s.file.getD [] } { l with current := l.saved.getD [] } := by
  have hfile := h.file
  cases hs : s.file with
  | none =>
    rw [hs] at hfile
    have hl : l.saved = none := by simpa using hfile.symm
    exact ⟨by simp [hl, lastEntries], by simp [Normal], by simpa using hfile, by simp,
      fun _ => hl, h.saved⟩
  | some rows =>
    rw [hs] at hfile
    obtain ⟨history, hl, hrows⟩ := Option.map_eq_some_iff.mp hfile.symm
    have hnormal : Normal lib rows := h.fileNormal rows hs
    refine ⟨by simp [hl, hrows], hnormal, hfile, ?_, ?_, h.saved⟩
    · rintro rows' ⟨⟩
      exact hnormal
    · intro hnil
      refine absurd ?_ (h.saved history hl)
      simpa [hl] using hnil

theorem Agrees.entries_eq_nil_iff {s : CleanState} {l : CleanLedger} (h : Agrees lib s l) :
    s.entries = [] ↔ l.current = [] := by
  rw [← lastEntries_eq_nil_iff, ← h.entries, List.map_eq_nil_iff]

theorem Agrees.step {s : CleanState} {l : CleanLedger} (h : Agrees lib s l) (op : CleanOp) :
    Agrees lib (lib.step s op) (lib.ledgerStep l op) := by
  cases op with
  | record serverId provider latencyMs now =>
    simp only [CleanLib.step, ledgerStep, recordCleanSuccess]
    cases lib.cleanTs now with
    | none =>
      have hsame : (if serverId = "" then some s.entries else none).getD s.entries = s.entries := by
        split <;> rfl
      rw [Option.map_none, hsame]
      exact h
    | some ts =>
      by_cases hid : serverId = ""
      · simpa [hid] using h
      · rw [if_neg hid]
        dsimp only
        rw [if_neg hid]
        exact h.record ⟨serverId, lib.normProvider provider, ts, cleanLatency latencyMs⟩ hid
          (normProvider_normProvider lib provider)
  | save =>
    simp only [CleanLib.step, ledgerStep]
    have hall : (s.entries.all fun row => row.latencyMs.all lib.printable) =
        (lastEntries l.current).all fun e => e.2.2.all lib.printable := by
      rw [← h.entries, List.all_map]
      rfl
    rw [saveCleanCache_eq h.normal, hall]
    by_cases hcurrent : l.current = []
    · rw [if_pos (h.entries_eq_nil_iff.mpr hcurrent), if_neg (fun hand => hand.1 hcurrent)]
      exact h
    · rw [if_neg (fun hnil => hcurrent (h.entries_eq_nil_iff.mp hnil))]
      by_cases hprint : (lastEntries l.current).all fun e => e.2.2.all lib.printable
      · rw [if_pos hprint, if_pos ⟨hcurrent, hprint⟩]
        exact h.save hcurrent
      · rw [if_neg hprint, if_neg (fun hand => hprint hand.2)]
        exact h
  | load =>
    simp only [CleanLib.step, ledgerStep]
    rw [loadCleanCache_eq h.fileNormal]
    exact h.load

theorem agrees_run (ops : List CleanOp) : Agrees lib (lib.run ops) (lib.ledger ops) := by
  induction ops using List.reverseRecOn with
  | nil => exact ⟨rfl, by simp [Normal, run], rfl, by simp [run], fun _ => rfl, by simp [ledger]⟩
  | append_singleton ops op ih =>
    rw [run, ledger, List.foldl_concat, List.foldl_concat]
    exact ih.step op

/-! ## Answers -/

theorem mem_lastEntries_iff {history : List Success} {e : Success} :
    e ∈ lastEntries history ↔ lastSuccess history e.1 = some e.2 := by
  unfold lastSuccess
  induction history using List.reverseRecOn with
  | nil => simp [lastEntries]
  | append_singleton history x ih =>
    rw [lastEntries_append_singleton, List.reverse_append, List.reverse_singleton,
      List.singleton_append, List.find?_cons, List.mem_append, List.mem_filter,
      List.mem_singleton, ih]
    by_cases hkey : x.1 = e.1
    · simp only [hkey, ne_eq, not_true_eq_false, decide_false, Bool.false_eq_true, and_false,
        false_or, decide_true, Option.map_some, Option.some.injEq]
      exact ⟨fun heq => heq ▸ rfl, fun hvalue => Prod.ext hkey.symm hvalue.symm⟩
    · have hne : e ≠ x := fun heq => hkey (heq ▸ rfl)
      simp [hkey, Ne.symm hkey, hne]

theorem isFresh_iff {now : PyNum} {time : PyFloat} (h : lib.float now = some time) (limit : ℚ)
    (row : CleanRow) : lib.isFresh limit time row = true ↔ lib.Fresh limit now row.lastOkTs := by
  unfold Fresh isFresh
  rw [h]
  cases time with
  | finite t =>
    cases hage : lib.minus t row.lastOkTs with
    | finite age => simp [hage]
    | inf => simp [hage]
    | negInf => simp [hage]
    | nan => simp [hage]
  | inf => simp
  | negInf => simp
  | nan => simp

theorem freshRows_eq_some {want : String} {limit : ℚ} {now : PyNum} {rows fresh : List CleanRow}
    (hnormal : Normal lib rows) (h : lib.freshRows want limit now rows = some fresh) :
    fresh.Sublist rows ∧
      ∀ row, row ∈ fresh ↔ row ∈ rows ∧ row.provider = want ∧ lib.Fresh limit now row.lastOkTs := by
  induction rows generalizing fresh with
  | nil =>
    obtain rfl := Option.some.inj h
    simp
  | cons row rows ih =>
    obtain ⟨hid, hprovider⟩ := hnormal row (List.mem_cons_self ..)
    have hrest : Normal lib rows := fun r hr => hnormal r (List.mem_cons_of_mem _ hr)
    rw [freshRows, hprovider] at h
    by_cases hwant : row.provider = want
    · rw [if_neg (by simp [hid, hwant])] at h
      obtain ⟨time, htime, h⟩ := Option.bind_eq_some_iff.mp h
      obtain ⟨tail, htail, rfl⟩ := Option.map_eq_some_iff.mp h
      obtain ⟨hsub, hmem⟩ := ih hrest htail
      have hfresh := isFresh_iff htime limit row
      by_cases hrow : lib.isFresh limit time row = true
      · rw [if_pos hrow]
        refine ⟨hsub.cons_cons row, fun r => ?_⟩
        rw [List.mem_cons, List.mem_cons, hmem]
        constructor
        · rintro (rfl | ⟨hr, hboth⟩)
          · exact ⟨Or.inl rfl, hwant, hfresh.mp hrow⟩
          · exact ⟨Or.inr hr, hboth⟩
        · rintro ⟨rfl | hr, hboth⟩
          · exact Or.inl rfl
          · exact Or.inr ⟨hr, hboth⟩
      · rw [if_neg hrow]
        refine ⟨hsub.cons row, fun r => ?_⟩
        rw [List.mem_cons, hmem]
        constructor
        · rintro ⟨hr, hboth⟩
          exact ⟨Or.inr hr, hboth⟩
        · rintro ⟨rfl | hr, hboth⟩
          · exact absurd (hfresh.mpr hboth.2) hrow
          · exact ⟨hr, hboth⟩
    · rw [if_pos (Or.inr hwant)] at h
      obtain ⟨hsub, hmem⟩ := ih hrest h
      refine ⟨hsub.cons row, fun r => ?_⟩
      rw [List.mem_cons, hmem]
      constructor
      · rintro ⟨hr, hboth⟩
        exact ⟨Or.inr hr, hboth⟩
      · rintro ⟨rfl | hr, hboth⟩
        · exact absurd hboth.1 hwant
        · exact ⟨hr, hboth⟩

theorem pairwise_latency (rows : List CleanRow) :
    (rows.insertionSort fun a b => latencyKey a ≤ latencyKey b).Pairwise
      fun a b => latencyKey a ≤ latencyKey b := by
  let r : CleanRow → CleanRow → Prop := fun a b => latencyKey a ≤ latencyKey b
  have htotal : Std.Total r := ⟨fun a b => le_total _ _⟩
  have htrans : IsTrans _ r := ⟨fun a b c => le_trans⟩
  exact List.pairwise_insertionSort r rows

theorem freshRows_isSome {now : PyNum} {time : PyFloat} (h : lib.float now = some time)
    (want : String) (limit : ℚ) (rows : List CleanRow) :
    ∃ fresh, lib.freshRows want limit now rows = some fresh := by
  induction rows with
  | nil => exact ⟨[], rfl⟩
  | cons row rows ih =>
    obtain ⟨fresh, hfresh⟩ := ih
    rw [freshRows, hfresh, h]
    split
    · exact ⟨fresh, rfl⟩
    · exact ⟨_, rfl⟩

theorem mem_entries_iff {s : CleanState} {l : CleanLedger} (h : Agrees lib s l) (row : CleanRow) :
    row ∈ s.entries ↔ lastSuccess l.current (row.serverId, row.provider) =
      some (row.lastOkTs, row.latencyMs) := by
  have hinj : Function.Injective CleanRow.success := by
    rintro ⟨a, b, c, d⟩ ⟨a', b', c', d'⟩ heq
    simpa [CleanRow.success, and_assoc] using heq
  rw [← List.mem_map_of_injective hinj, h.entries, mem_lastEntries_iff]
  rfl

theorem nodup_serverIds {s : CleanState} {l : CleanLedger} (h : Agrees lib s l)
    {rows : List CleanRow} {want : String} (hsub : rows.Sublist s.entries)
    (hwant : ∀ row ∈ rows, row.provider = want) : (rows.map (·.serverId)).Nodup := by
  have hkeys : (rows.map fun row => row.success.1).Nodup := by
    refine List.Nodup.sublist (hsub.map _) ?_
    have hnodup := nodup_keys_lastEntries l.current
    rw [← h.entries, List.map_map] at hnodup
    exact hnodup
  have hpairs : rows.map (fun row => row.success.1) =
      (rows.map (·.serverId)).map fun id => (id, want) := by
    rw [List.map_map]
    refine List.map_congr_left fun row hrow => ?_
    rw [Function.comp_apply, ← hwant row hrow]
    rfl
  rw [hpairs] at hkeys
  exact hkeys.of_map _

theorem load_save {s : CleanState} {l : CleanLedger} (h : Agrees lib s l)
    {file : Option (List CleanRow)} (hfile : lib.saveCleanCache s.entries s.file = some file) :
    lib.loadCleanCache file = s.entries := by
  rw [saveCleanCache_eq h.normal] at hfile
  by_cases hempty : s.entries = []
  · rw [if_pos hempty] at hfile
    obtain rfl := Option.some.inj hfile
    have hmap := h.file
    rw [h.unsaved (h.entries_eq_nil_iff.mp hempty)] at hmap
    have hnone : s.file = none := by simpa using hmap
    rw [hnone, hempty]
    rfl
  · rw [if_neg hempty] at hfile
    split at hfile
    · obtain rfl := Option.some.inj hfile
      rw [loadCleanCache_eq]
      · rfl
      · rintro rows ⟨⟩
        exact h.normal
    · cases hfile

/-- **The clean-server cache.**  After any operations, and for a time and a window that
are floats, an answer consists of the servers whose last success for the provider, in
the history that the list stands for, is fresh, each once and with the time and the
latency of that success, the smallest latency first and unknown ones last; and a save
that returns and a load leave the answer as it is. -/
theorem clean_cache_answers (lib : CleanLib) (ops : List CleanOp) (provider : Option String)
    {now : PyNum} {time : PyFloat} {ttl : Option PyNum} {limit : ℚ}
    (hnow : lib.float now = some time) (hlimit : lib.cleanTtl ttl = some limit) :
    ∃ answer, lib.cleanCacheCandidates (lib.run ops).entries provider now ttl = some answer ∧
      (∀ row, row ∈ answer ↔ row.provider = lib.normProvider provider ∧
        lastSuccess (lib.ledger ops).current (row.serverId, row.provider) =
          some (row.lastOkTs, row.latencyMs) ∧ lib.Fresh limit now row.lastOkTs) ∧
      (answer.map (·.serverId)).Nodup ∧
      answer.Pairwise (fun a b => latencyKey a ≤ latencyKey b) ∧
      ∀ file, lib.saveCleanCache (lib.run ops).entries (lib.run ops).file = some file →
        lib.cleanCacheCandidates (lib.loadCleanCache file) provider now ttl = some answer := by
  have hagrees : Agrees lib (lib.run ops) (lib.ledger ops) := agrees_run ops
  obtain ⟨fresh, hfresh⟩ := freshRows_isSome hnow (lib.normProvider provider) limit (lib.run ops).entries
  have hanswer : ∀ entries, entries = (lib.run ops).entries →
      lib.cleanCacheCandidates entries provider now ttl =
        some (fresh.insertionSort fun a b => latencyKey a ≤ latencyKey b) := by
    rintro _ rfl
    rw [cleanCacheCandidates, hlimit, Option.bind_some, hfresh]
    rfl
  obtain ⟨hsub, hmem⟩ := freshRows_eq_some hagrees.normal hfresh
  refine ⟨_, hanswer _ rfl, fun row => ?_, ?_, pairwise_latency fresh, fun file hfile => ?_⟩
  · rw [List.mem_insertionSort, hmem, mem_entries_iff hagrees]
    exact and_left_comm
  · have hids := nodup_serverIds hagrees hsub fun row hrow => ((hmem row).mp hrow).2.1
    exact ((List.perm_insertionSort _ _).map _).nodup_iff.mpr hids
  · exact hanswer _ (load_save hagrees hfile)

/-- The library on ASCII texts and on floats that compute exactly. -/
def ascii : CleanLib where
  toStrLib := .ascii
  floatOfInt n := if n.natAbs < 2 ^ 1024 - 2 ^ 970 then some n else none
  minus a b := .finite (a - b)
  printable n := n.natAbs < 10 ^ 4300
  normalizes := StrLib.ascii_normalizes

/-- Two servers, one of them recorded again after a load. -/
def twoServers : List CleanOp :=
  [.record "s1" (some " Google ") (some (.float (.finite (127 / 10)))) (.int 100),
    .record "s2" (some "google") none (.int 200), .save, .load,
    .record "s1" (some "GOOGLE") (some (.int 30)) (.int 300)]

theorem clean_cache_answers_twoServers : ∃ answer,
    ascii.cleanCacheCandidates (ascii.run twoServers).entries (some "google") (.int 300) none =
        some answer ∧ (answer.map (·.serverId)).Nodup ∧ answer.map (·.serverId) = ["s1", "s2"] := by
  have hnow : ascii.float (.int 300) = some (.finite 300) := by decide +kernel
  have hlimit : ascii.cleanTtl none = some cleanCacheTtlS := rfl
  obtain ⟨answer, hanswer, -, hnodup, -⟩ :=
    clean_cache_answers ascii twoServers (some "google") hnow hlimit
  refine ⟨answer, hanswer, hnodup, ?_⟩
  have hrun : (ascii.cleanCacheCandidates (ascii.run twoServers).entries (some "google") (.int 300)
      none).map (fun rows => rows.map (·.serverId)) = some ["s1", "s2"] := by decide +kernel
  rw [hanswer] at hrun
  exact Option.some.inj hrun

/-- A latency of 12.7 is answered as 12, and a load forgets what was not saved. -/
theorem last_success_is_not_answered :
    let record : CleanOp := .record "s1" (some "google") (some (.float (.finite (127 / 10)))) (.int 100)
    ascii.cleanCacheCandidates (ascii.run [record]).entries (some "google") (.int 100) none =
        some [⟨"s1", "google", 100, some 12⟩] ∧
      ascii.cleanCacheCandidates (ascii.run [record, .load]).entries (some "google") (.int 100) none =
        some [] := by
  decide +kernel

end CleanLib

end HamZaboon
