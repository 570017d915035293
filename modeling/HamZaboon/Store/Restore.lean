import HamZaboon.Library.Effects
import Mathlib.Data.List.Basic

/-! # Database restore

`import_db_bytes` over a file system that maps paths to contents.  Every step
may fail: what it raises, and what it leaves half written, are part of
`RestoreOutcomes`, as is what SQLite makes of the bytes it is given.

A call that raises leaves the live database and its sidecars as they were; one
that returns leaves the migrated candidate in the live path.  A sidecar of the
old database stays beside it only if its removal failed, which is logged and not
raised (`import_db_bytes_all_or_nothing`).
-/

namespace HamZaboon
open Library

/-- What the steps of a restore raise, as far as its handlers tell them apart. -/
inductive PyError
  | valueError (text : String)
  | runtimeError (text : String)
  | osError (permission : Bool) (text : String)
  | memoryError
  | sqliteError (errorcode : Option Nat) (text : String)
  deriving DecidableEq, Repr

namespace PyError

/-- `str(exc)`. -/
def str : PyError → String
  | .valueError text | .runtimeError text | .osError _ text | .sqliteError _ text => text
  | .memoryError => ""

end PyError

abbrev Contents := List UInt8
abbrev Files := String → Option Contents

/-- What the validation reads of a database: the row of `PRAGMA quick_check` and
the names of its tables. -/
structure Inspection where
  quickCheck : Option String
  tables : List String

/-- The tables of a database with their columns. -/
abbrev SchemaTables := List (String × List String)

/-- What `_check_test_mode_guard` and `_guard_destructive_op` look at. -/
structure TestMode where
  on : Bool := false
  production : String := "hamzaban.db"
  abspath : String → String := id
  killSwitch : String := "KILL-SWITCH: test mode refuses to touch the production database."
  /-- `_db_application_id`, for a regular file. -/
  applicationId : String → Option Int := fun _ => none

/-- The ends of the steps of a call: `none` and `ok` where a step succeeds. -/
structure RestoreOutcomes where
  testMode : TestMode := {}
  lower : String → String := id
  /-- Why no temporary file can be made, or the random names that are tried. -/
  candidateNames : Except PyError (List String)
  referenceNames : Except PyError (List String)
  stat : Option PyError := none
  /-- A failing write, with what it has written. -/
  write : Option (PyError × Contents) := none
  inspect : Contents → Except PyError Inspection
  /-- `init_db(candidate_path)`; failing, it leaves something of the candidate. -/
  migrate : Contents → Except (PyError × Contents) Contents
  /-- `init_db(reference_path)`, on the empty file. -/
  build : Except (PyError × Contents) Contents
  /-- The schemas of the reference and the candidate. -/
  schemas : Contents → Contents → Except PyError (SchemaTables × SchemaTables)
  chmod : Option PyError := none
  /-- `hasattr(os, "chown")`. -/
  hasChown : Bool := true
  chown : Option PyError := none
  /-- A failing `shutil.copy2`, with what it has copied. -/
  copy : Option (PyError × Contents) := none
  replace : Option PyError := none
  /-- `os.remove` raises `OSError` for the path. -/
  removeFails : String → Bool := fun _ => false

/-- The files, and the variables that the cleanup reads. -/
structure RestoreState where
  files : Files
  candidatePath : Option String := none
  referencePath : Option String := none

abbrev Restore := EStateM PyError RestoreState

/-! ## The steps -/

def legacyDailyTables : List String := ["daily_cards", "daily_progress", "daily_card_sessions"]

def restoreCoreTables : List String :=
  ["users", "saved_words", "settings", "review_events", "llm_requests"]

def storageSqliteCodes : List Nat := [7, 8, 10, 13, 14]

/-- `phrase in text`. -/
def occursIn (phrase text : String) : Bool := text.toList.tails.any (phrase.toList.isPrefixOf ·)

def isStorageError (lower : String → String) (exc : PyError) : Bool :=
  (match exc with
    | .sqliteError (some code) _ => storageSqliteCodes.contains (code % 256)
    | _ => false) ||
  ["disk is full", "i/o error", "readonly", "read-only"].any (occursIn · (lower exc.str))

/-- `_check_test_mode_guard`: the error it raises. -/
def checkTestModeGuard (t : TestMode) (path : String) : Option PyError :=
  if t.on ∧ t.abspath path = t.abspath t.production then some (.runtimeError t.killSwitch)
  else none

def testAppId : Int := 0x48414D5A

def guardDestructiveOp (t : TestMode) (files : Files) (path : String) : Option PyError :=
  match checkTestModeGuard t path with
  | some exc => some exc
  | none =>
    if t.on ∧ (files path).isSome then
      match t.applicationId path with
      | none => some (.runtimeError
          s!"Test mode refuses a destructive operation — database identity is UNKNOWN (probe failed): '{path}'.")
      | some appId =>
        if appId ≠ testAppId then some (.runtimeError
          s!"Test mode refuses a destructive operation on a non-test database: '{path}' (application_id={appId}).")
        else none
    else none

/-- A file gets new contents, or none. -/
def setFile (path : String) (contents : Option Contents) : Restore Unit :=
  modify fun s => { s with files := Function.update s.files path contents }

/-- A step that raises what it is given. -/
def raiseIf : Option PyError → Restore Unit
  | none => pure ()
  | some exc => throw exc

def resultOf {α : Type} : Except PyError α → Restore α
  | .ok a => pure a
  | .error exc => throw exc

def tempPath (dir name : String) : String := dir ++ "/tmp" ++ name ++ ".sqlite"

/-- `tempfile.mkstemp(suffix=".sqlite", dir=…)`: an empty file under the first
name that is not taken. -/
def mkstemp (dir : String) (names : Except PyError (List String)) : Restore String := do
  let names ← resultOf names
  let s ← get
  match names.find? fun name => (s.files (tempPath dir name)).isNone with
  | none => throw (.osError false "No usable temporary file name found")
  | some name =>
    setFile (tempPath dir name) (some [])
    pure (tempPath dir name)

/-- The contents of a file that has just been written. -/
def readFile (path : String) : Restore Contents := do
  return ((← get).files path).getD []

/-- The end of a write that fails as it is told. -/
def written (failed : Option (PyError × Contents)) (contents : Contents) :
    Except (PyError × Contents) Contents :=
  match failed with
  | none => .ok contents
  | some failed => .error failed

/-- A write or `init_db` leaves these contents, or raises and leaves those. -/
def writeFile (path : String) : Except (PyError × Contents) Contents → Restore Unit
  | .ok contents => setFile path (some contents)
  | .error (exc, partialContents) => do
    setFile path (some partialContents)
    throw exc

/-! ## `import_db_bytes` -/

def invalidBackup : PyError := .valueError "فایل پشتیبان معتبر نیست."
def oldBackup : PyError := .valueError "نسخه پشتیبان قدیمی است و قابل بازگردانی نیست."
def storageShort : PyError :=
  .valueError "فضای ذخیره‌سازی یا دسترسی فایل برای بازگردانی کافی نیست."
def incompatibleBackup : PyError := .valueError "نسخه پشتیبان با نسخه فعلی ربات سازگار نیست."
def replaceImpossible : PyError :=
  .valueError "جایگزینی دیتابیس در حال حاضر ممکن نیست. دوباره تلاش کنید."

/-- The checks of the uploaded file. -/
def checkInspection (i : Inspection) : Option PyError :=
  if i.quickCheck ≠ some "ok" then some invalidBackup
  else if legacyDailyTables.any (i.tables.contains ·) then some oldBackup
  else if !restoreCoreTables.all (i.tables.contains ·) then some invalidBackup
  else none

/-- `any(missing_columns.values())`. -/
def columnsMissing (reference candidate : SchemaTables) : Bool :=
  reference.any fun required =>
    candidate.any fun table =>
      table.1 = required.1 && required.2.any fun column => !table.2.contains column

/-- The upload is written, checked and migrated. -/
def migrateCandidate (o : RestoreOutcomes) (data : Contents) (candidate : String) :
    Restore Unit := do
  writeFile candidate (written o.write data)
  let inspection ← resultOf (o.inspect (← readFile candidate))
  raiseIf (checkInspection inspection)
  writeFile candidate (o.migrate (← readFile candidate))

/-- The migrated candidate is compared with a new database. -/
def compareSchemas (o : RestoreOutcomes) (dir candidate : String) : Restore Unit := do
  let reference ← mkstemp dir o.referenceNames
  modify fun s => { s with referencePath := some reference }
  writeFile reference o.build
  let schemas ← resultOf (o.schemas (← readFile reference) (← readFile candidate))
  raiseIf (if columnsMissing schemas.1 schemas.2 then some (.runtimeError "incomplete schema")
    else none)

/-- The body of the first `try`. -/
def prepareBody (o : RestoreOutcomes) (live dir : String) (data : Contents) : Restore Unit := do
  match guardDestructiveOp o.testMode (← get).files live with
  | some exc => throw (.valueError exc.str)
  | none =>
    let candidate ← mkstemp dir o.candidateNames
    modify fun s => { s with candidatePath := some candidate }
    raiseIf (if ((← get).files live).isNone then
      some (.osError false "No such file or directory") else o.stat)
    migrateCandidate o data candidate
    compareSchemas o dir candidate

/-- The handlers of the first `try`. -/
def prepareError (o : RestoreOutcomes) : PyError → PyError
  | .valueError text => .valueError text
  | .osError _ _ | .memoryError => storageShort
  | exc => if isStorageError o.lower exc then storageShort else incompatibleBackup

/-- The first `try`: the migrated candidate is beside the live database. -/
def prepare (o : RestoreOutcomes) (live dir : String) (data : Contents) : Restore Unit :=
  tryCatch (prepareBody o live dir data) fun exc => throw (prepareError o exc)

/-- `os.chown`, whose `PermissionError` is passed over. -/
def chownError (o : RestoreOutcomes) : Option PyError :=
  if o.hasChown then
    match o.chown with
    | some (.osError true _) => none
    | error => error
  else none

/-- `shutil.copy2(db_path, backup_path)`. -/
def copyLive (o : RestoreOutcomes) (live backup : String) : Restore Unit := do
  writeFile backup (written o.copy (← readFile live))

/-- `if backup_path: shutil.copy2(db_path, backup_path)`. -/
def backUp (o : RestoreOutcomes) (live : String) : Option String → Restore Unit
  | none => pure ()
  | some backup => copyLive o live backup

/-- The body of the second `try`. -/
def replaceBody (o : RestoreOutcomes) (live : String) (backup : Option String) : Restore Unit := do
  let candidate := (← get).candidatePath.getD ""
  raiseIf ((checkTestModeGuard o.testMode candidate).map fun exc => .valueError exc.str)
  raiseIf o.chmod
  raiseIf (chownError o)
  backUp o live backup
  raiseIf o.replace
  let contents := (← get).files candidate
  setFile live contents
  setFile candidate none

/-- The second `try`: the candidate takes the live path. -/
def replaceLive (o : RestoreOutcomes) (live : String) (backup : Option String) : Restore Unit :=
  tryCatch (replaceBody o live backup) fun
    | .osError _ _ => throw replaceImpossible
    | exc => throw exc

/-- `if os.path.exists(path): os.remove(path)`, an `OSError` of which is logged. -/
def removeFile (o : RestoreOutcomes) (files : Files) (path : String) : Files :=
  if o.removeFails path then files else Function.update files path none

def sidecars (path : String) : List String :=
  [path ++ "-journal", path ++ "-wal", path ++ "-shm"]

/-- The loop over the sidecars of the old database. -/
def removeSidecars (o : RestoreOutcomes) (live : String) : Restore Unit :=
  modify fun s => { s with files := (sidecars live).foldl (removeFile o) s.files }

def RestoreState.temps (s : RestoreState) : List String :=
  s.candidatePath.toList ++ s.referencePath.toList

/-- The outer `finally`. -/
def removeTemps (o : RestoreOutcomes) (s : RestoreState) : RestoreState :=
  { s with files := s.temps.foldl (removeFile o) s.files }

/-- `import_db_bytes`, with the live path and its directory. -/
def importDbBytes (o : RestoreOutcomes) (live dir : String) (data : Contents)
    (backup : Option String) : Restore Unit :=
  withCleanup (do
    prepare o live dir data
    replaceLive o live backup
    removeSidecars o live) (removeTemps o)

/-! ## The steps, one by one -/

section Steps
variable {α : Type} {s : RestoreState}

theorem ends_setFile {path : String} {contents : Option Contents} {Q : Unit → RestoreState → Prop}
    {E : PyError → RestoreState → Prop}
    (h : Q () { s with files := Function.update s.files path contents }) :
    Ends (setFile path contents) s Q E :=
  Ends.modify h

theorem ends_raiseIf {error : Option PyError} {Q : Unit → RestoreState → Prop}
    {E : PyError → RestoreState → Prop} (hQ : error = none → Q () s) (hE : ∀ exc, E exc s) :
    Ends (raiseIf error) s Q E := by
  cases error with
  | none => exact hQ rfl
  | some exc => exact hE exc

theorem ends_resultOf {result : Except PyError α} {Q : α → RestoreState → Prop}
    {E : PyError → RestoreState → Prop} (hQ : ∀ a, result = .ok a → Q a s)
    (hE : ∀ exc, E exc s) : Ends (resultOf result) s Q E := by
  cases result with
  | ok a => exact hQ a rfl
  | error exc => exact hE exc

theorem ends_readFile {path : String} {Q : Contents → RestoreState → Prop}
    {E : PyError → RestoreState → Prop} (h : Q ((s.files path).getD []) s) :
    Ends (readFile path) s Q E := by
  apply Ends.bind
  apply Ends.get
  exact h

theorem written_eq_ok {failed : Option (PyError × Contents)} {contents c : Contents}
    (h : written failed contents = .ok c) : c = contents := by
  cases failed with
  | none => exact (Except.ok.inj h).symm
  | some failed => cases h

theorem ends_writeFile {path : String} {result : Except (PyError × Contents) Contents}
    {Q : Unit → RestoreState → Prop} {E : PyError → RestoreState → Prop}
    (hQ : ∀ c, result = .ok c → Q () { s with files := Function.update s.files path (some c) })
    (hE : ∀ exc c, E exc { s with files := Function.update s.files path (some c) }) :
    Ends (writeFile path result) s Q E := by
  cases result with
  | ok c => exact hQ c rfl
  | error failed =>
    apply Ends.bind
    apply ends_setFile
    exact hE failed.1 failed.2

theorem ends_mkstemp {dir : String} {names : Except PyError (List String)}
    {Q : String → RestoreState → Prop} {E : PyError → RestoreState → Prop}
    (hQ : ∀ name, s.files (tempPath dir name) = none → Q (tempPath dir name)
      { s with files := Function.update s.files (tempPath dir name) (some []) })
    (hE : ∀ exc, E exc s) : Ends (mkstemp dir names) s Q E := by
  apply Ends.bind
  refine ends_resultOf (fun names _ => ?_) hE
  apply Ends.bind
  apply Ends.get
  cases hfind : names.find? fun name => (s.files (tempPath dir name)).isNone with
  | none => exact hE _
  | some name =>
    apply Ends.bind
    apply ends_setFile
    have hfree := List.find?_some hfind
    exact hQ name (Option.isNone_iff_eq_none.mp hfree)

end Steps

/-! ## Files that a restore leaves alone -/

/-- All files but the temporary ones and those of `kept` are as they were; the
temporary ones have paths that were free. -/
structure Untouched (files : Files) (dir : String) (kept : List String) (s : RestoreState) :
    Prop where
  others : ∀ p, p ∉ s.temps → p ∉ kept → s.files p = files p
  free : ∀ p ∈ s.temps, files p = none
  named : ∀ p ∈ s.temps, ∃ name, p = tempPath dir name

section Untouched
variable {files : Files} {dir : String} {kept : List String} {s : RestoreState}

theorem Untouched.write (h : Untouched files dir kept s) {path : String}
    (hpath : path ∈ s.temps ∨ path ∈ kept) (contents : Option Contents) :
    Untouched files dir kept { s with files := Function.update s.files path contents } := by
  refine ⟨fun p htemps hkept => ?_, h.free, h.named⟩
  have hne : p ≠ path := by
    rintro rfl
    exact hpath.elim htemps hkept
  show Function.update s.files path contents p = files p
  rw [Function.update_of_ne hne]
  exact h.others p htemps hkept

theorem Untouched.mono (h : Untouched files dir kept s) {kept' : List String}
    (hkept : kept ⊆ kept') : Untouched files dir kept' s :=
  ⟨fun p htemps hp => h.others p htemps fun hmem => hp (hkept hmem), h.free, h.named⟩

theorem Untouched.mkstemp (h : Untouched files dir [] s) {name : String} {s' : RestoreState}
    (hfree : s.files (tempPath dir name) = none)
    (hfiles : s'.files = Function.update s.files (tempPath dir name) (some []))
    (htemps : ∀ p, p ∈ s'.temps ↔ p ∈ s.temps ∨ p = tempPath dir name) :
    Untouched files dir [] s' := by
  refine ⟨fun p hp _ => ?_, fun p hp => ?_, fun p hp => ?_⟩
  · obtain ⟨hold, hne⟩ := not_or.mp fun hor => hp ((htemps p).mpr hor)
    rw [hfiles, Function.update_of_ne hne]
    exact h.others p hold (List.not_mem_nil)
  · rcases (htemps p).mp hp with hold | rfl
    · exact h.free p hold
    · by_cases hold : tempPath dir name ∈ s.temps
      · exact h.free _ hold
      · rw [← h.others _ hold (List.not_mem_nil)]
        exact hfree
  · rcases (htemps p).mp hp with hold | rfl
    · exact h.named p hold
    · exact ⟨name, rfl⟩

end Untouched

/-- The candidate is in its path and has these contents. -/
structure CandidateHolds (files : Files) (dir candidate : String) (contents : Contents)
    (s : RestoreState) : Prop where
  untouched : Untouched files dir [] s
  path : s.candidatePath = some candidate
  holds : s.files candidate = some contents

section Prepare
variable {files : Files} {dir candidate : String} {contents : Contents} {s : RestoreState}

theorem CandidateHolds.mem_temps (h : CandidateHolds files dir candidate contents s) :
    candidate ∈ s.temps := by
  rw [RestoreState.temps, h.path]
  exact List.mem_cons_self

theorem CandidateHolds.write (h : CandidateHolds files dir candidate contents s)
    (contents' : Contents) : CandidateHolds files dir candidate contents'
      { s with files := Function.update s.files candidate (some contents') } :=
  ⟨h.untouched.write (Or.inl h.mem_temps) _, h.path, Function.update_self ..⟩

theorem ends_migrateCandidate (o : RestoreOutcomes) (data : Contents)
    (h : CandidateHolds files dir candidate contents s) (hreference : s.referencePath = none) :
    Ends (migrateCandidate o data candidate) s
      (fun _ s' => ∃ migrated, o.migrate data = .ok migrated ∧
        CandidateHolds files dir candidate migrated s' ∧ s'.referencePath = none)
      (fun _ s' => Untouched files dir [] s') := by
  unfold migrateCandidate
  apply Ends.bind
  refine ends_writeFile (fun c hc => ?_) fun _ _ => (h.write _).untouched
  obtain rfl := written_eq_ok hc
  have h₁ := h.write c
  apply Ends.bind
  apply ends_readFile
  apply Ends.bind
  refine ends_resultOf (fun inspection _ => ?_) fun _ => h₁.untouched
  apply Ends.bind
  refine ends_raiseIf (fun _ => ?_) fun _ => h₁.untouched
  apply Ends.bind
  apply ends_readFile
  rw [h₁.holds, Option.getD_some]
  refine ends_writeFile (fun migrated hmigrated => ?_) fun _ _ => (h₁.write _).untouched
  exact ⟨migrated, hmigrated, h₁.write migrated, hreference⟩

theorem CandidateHolds.writeOther (h : CandidateHolds files dir candidate contents s)
    {path : String} (hpath : path ∈ s.temps) (hne : candidate ≠ path) (c : Contents) :
    CandidateHolds files dir candidate contents
      { s with files := Function.update s.files path (some c) } := by
  refine ⟨h.untouched.write (Or.inl hpath) _, h.path, ?_⟩
  show Function.update s.files path (some c) candidate = some contents
  rw [Function.update_of_ne hne]
  exact h.holds

theorem ends_compareSchemas (o : RestoreOutcomes)
    (h : CandidateHolds files dir candidate contents s) (hreference : s.referencePath = none) :
    Ends (compareSchemas o dir candidate) s
      (fun _ s' => CandidateHolds files dir candidate contents s')
      (fun _ s' => Untouched files dir [] s') := by
  unfold compareSchemas
  apply Ends.bind
  refine ends_mkstemp (fun name hfree => ?_) fun _ => h.untouched
  have hne : candidate ≠ tempPath dir name := by
    rintro rfl
    rw [h.holds] at hfree
    cases hfree
  apply Ends.bind
  apply Ends.modify
  have h₁ : CandidateHolds files dir candidate contents
      { s with
        files := Function.update s.files (tempPath dir name) (some [])
        referencePath := some (tempPath dir name) } := by
    refine ⟨h.untouched.mkstemp hfree rfl fun p => ?_, h.path, ?_⟩
    · simp [RestoreState.temps, h.path, hreference]
    · show Function.update s.files (tempPath dir name) (some []) candidate = some contents
      rw [Function.update_of_ne hne]
      exact h.holds
  have hmem : tempPath dir name ∈ RestoreState.temps { s with
      files := Function.update s.files (tempPath dir name) (some [])
      referencePath := some (tempPath dir name) } := by
    simp [RestoreState.temps]
  apply Ends.bind
  refine ends_writeFile (fun c _ => ?_) fun _ c => (h₁.writeOther hmem hne c).untouched
  have h₂ := h₁.writeOther hmem hne c
  apply Ends.bind
  apply ends_readFile
  apply Ends.bind
  apply ends_readFile
  apply Ends.bind
  refine ends_resultOf (fun schemas _ => ?_) fun _ => h₂.untouched
  exact ends_raiseIf (fun _ => h₂) fun _ => h₂.untouched

end Prepare

def HoldsMigrated (o : RestoreOutcomes) (data : Contents) (files : Files) (dir : String)
    (s : RestoreState) : Prop :=
  ∃ candidate migrated, o.migrate data = .ok migrated ∧
    CandidateHolds files dir candidate migrated s

theorem ends_prepare (o : RestoreOutcomes) (live dir : String) (data : Contents) (files : Files) :
    Ends (prepare o live dir data) ⟨files, none, none⟩
      (fun _ s => HoldsMigrated o data files dir s) (fun _ s => Untouched files dir [] s) := by
  have hstart : Untouched files dir [] ⟨files, none, none⟩ := ⟨fun _ _ _ => rfl, nofun, nofun⟩
  apply Ends.tryCatch
  refine Ends.mono (E := fun _ s => Untouched files dir [] s) ?_ (fun _ _ h => h)
    fun _ _ h => Ends.throw h
  unfold prepareBody
  apply Ends.bind
  apply Ends.get
  cases guardDestructiveOp o.testMode files live with
  | some exc => exact hstart
  | none =>
    apply Ends.bind
    refine ends_mkstemp (fun name hfree => ?_) fun _ => hstart
    apply Ends.bind
    apply Ends.modify
    have hmade : CandidateHolds files dir (tempPath dir name) [] ⟨Function.update files
        (tempPath dir name) (some []), some (tempPath dir name), none⟩ := by
      refine ⟨hstart.mkstemp hfree rfl fun p => ?_, rfl, Function.update_self ..⟩
      simp [RestoreState.temps]
    apply Ends.bind
    apply Ends.get
    apply Ends.bind
    refine ends_raiseIf (fun _ => ?_) fun _ => hmade.untouched
    apply Ends.bind
    refine Ends.mono (ends_migrateCandidate o data hmade rfl) ?_ fun _ _ h => h
    rintro _ s ⟨migrated, hmigrated, h, hreference⟩
    refine Ends.mono (ends_compareSchemas o h hreference) ?_ fun _ _ h => h
    exact fun _ s' h' => ⟨tempPath dir name, migrated, hmigrated, h'⟩

/-! ## The replacement and the cleanup -/

theorem tempPath_ne_append {dir name live ending : String} {c d : Char} {l : List Char}
    (hending : ending.toList = l ++ [c, d]) (hcd : (c, d) ≠ ('t', 'e')) :
    tempPath dir name ≠ live ++ ending := by
  intro h
  have hlast := congrArg (fun s : String => s.toList.reverse.take 2) h
  simp only [tempPath, String.toList_append, hending, List.reverse_append, List.append_assoc] at hlast
  have hpair : ['e', 't'] = [d, c] := hlast
  simp only [List.cons.injEq, and_true] at hpair
  exact hcd (by rw [← hpair.1, ← hpair.2])

theorem tempPath_not_mem_sidecars (dir name live : String) :
    tempPath dir name ∉ sidecars live := by
  simp only [sidecars, List.mem_cons, List.not_mem_nil, or_false, not_or]
  refine ⟨tempPath_ne_append (l := "-journ".toList) rfl (by decide),
    tempPath_ne_append (l := "-w".toList) rfl (by decide),
    tempPath_ne_append (l := "-s".toList) rfl (by decide)⟩

theorem append_ne_self {path ending : String} (h : ending ≠ "") : path ++ ending ≠ path := by
  intro heq
  have hlength := congrArg String.length heq
  rw [String.length_append] at hlength
  exact h (String.length_eq_zero_iff.mp (by omega))

theorem not_mem_sidecars_self (live : String) : live ∉ sidecars live := by
  simp only [sidecars, List.mem_cons, List.not_mem_nil, or_false, not_or]
  exact ⟨(append_ne_self (by decide)).symm, (append_ne_self (by decide)).symm,
    (append_ne_self (by decide)).symm⟩

theorem foldl_removeFile (o : RestoreOutcomes) (paths : List String) (files : Files) (p : String) :
    (paths.foldl (removeFile o) files) p =
      if p ∈ paths ∧ o.removeFails p = false then none else files p := by
  induction paths generalizing files with
  | nil => simp
  | cons path paths ih =>
    rw [List.foldl_cons, ih, removeFile]
    by_cases hp : p = path
    · subst hp
      cases hfails : o.removeFails p <;> simp
    · by_cases hfails : o.removeFails path = true
      · simp [hp, hfails]
      · simp [hp, hfails]

/-- The files `import_db_bytes` works on. -/
structure RestoreTarget (files : Files) (live : String) (backup : Option String) : Prop where
  exists_live : (files live).isSome = true
  backup_eq : ∀ path ∈ backup, path = live ++ ".pre_restore"

section Replace
variable {o : RestoreOutcomes} {files : Files} {live dir : String} {backup : Option String}
  {s : RestoreState} {data : Contents}

theorem RestoreTarget.not_mem_temps (ht : RestoreTarget files live backup) {kept : List String}
    (h : Untouched files dir kept s) {p : String} (hp : p ∈ live :: sidecars live) :
    p ∉ s.temps := by
  intro hmem
  rcases List.mem_cons.mp hp with rfl | hp
  · have hsome := ht.exists_live
    rw [h.free p hmem] at hsome
    cases hsome
  · obtain ⟨name, rfl⟩ := h.named p hmem
    exact tempPath_not_mem_sidecars dir name live hp

theorem RestoreTarget.not_mem_backup (ht : RestoreTarget files live backup) {p : String}
    (hp : p ∈ live :: sidecars live) : p ∉ backup := by
  intro hmem
  rw [ht.backup_eq p hmem] at hp
  rcases List.mem_cons.mp hp with hp | hp
  · exact append_ne_self (by decide) hp
  · simp [sidecars] at hp

/-- The candidate stays while the backup is written. -/
def CandidateStays (files : Files) (dir : String) (backup : Option String) (candidate : String)
    (migrated : Contents) (s : RestoreState) : Prop :=
  Untouched files dir backup.toList s ∧ s.candidatePath = some candidate ∧
    s.files candidate = some migrated

theorem ends_copyLive {candidate path : String} {migrated : Contents}
    (h : CandidateStays files dir (some path) candidate migrated s) (hne : candidate ≠ path) :
    Ends (copyLive o live path) s
      (fun _ s' => CandidateStays files dir (some path) candidate migrated s')
      (fun _ s' => Untouched files dir [path] s') := by
  obtain ⟨huntouched, hpath, hholds⟩ := h
  have hwrite := fun c => huntouched.write (Or.inr (List.mem_singleton_self path)) (some c)
  apply Ends.bind
  apply ends_readFile
  refine ends_writeFile (fun c _ => ⟨hwrite c, hpath, ?_⟩) fun _ c => hwrite c
  show Function.update s.files path (some c) candidate = some migrated
  rw [Function.update_of_ne hne]
  exact hholds

theorem ends_backUp (ht : RestoreTarget files live backup) {candidate : String}
    {migrated : Contents} (hmem : candidate ∈ s.temps)
    (h : CandidateStays files dir backup candidate migrated s) :
    Ends (backUp o live backup) s
      (fun _ s' => CandidateStays files dir backup candidate migrated s')
      (fun _ s' => Untouched files dir backup.toList s') := by
  cases backup with
  | none => exact h
  | some path =>
    refine ends_copyLive h ?_
    obtain ⟨name, hname⟩ := h.1.named candidate hmem
    rw [hname, ht.backup_eq path rfl]
    exact tempPath_ne_append (l := ".pre_resto".toList) rfl (by decide)

theorem ends_replaceBody (ht : RestoreTarget files live backup)
    (h : HoldsMigrated o data files dir s) :
    Ends (replaceBody o live backup) s
      (fun _ s' => Untouched files dir (live :: backup.toList) s' ∧
        ∃ migrated, o.migrate data = .ok migrated ∧ s'.files live = some migrated)
      (fun _ s' => Untouched files dir backup.toList s') := by
  obtain ⟨candidate, migrated, hmigrated, h⟩ := h
  have hlive := ht.not_mem_temps h.untouched List.mem_cons_self
  have hne : live ≠ candidate := fun heq => hlive (heq ▸ h.mem_temps)
  have hkept : Untouched files dir backup.toList s := h.untouched.mono (List.nil_subset _)
  unfold replaceBody
  apply Ends.bind
  apply Ends.get
  rw [h.path, Option.getD_some]
  apply Ends.bind
  refine ends_raiseIf (fun _ => ?_) fun _ => hkept
  apply Ends.bind
  refine ends_raiseIf (fun _ => ?_) fun _ => hkept
  apply Ends.bind
  refine ends_raiseIf (fun _ => ?_) fun _ => hkept
  apply Ends.bind
  refine Ends.mono (ends_backUp ht h.mem_temps ⟨hkept, h.path, h.holds⟩) ?_ fun _ _ h => h
  rintro _ s' ⟨huntouched, hpath, hholds⟩
  apply Ends.bind
  refine ends_raiseIf (fun _ => ?_) fun _ => huntouched
  apply Ends.bind
  apply Ends.get
  apply Ends.bind
  apply ends_setFile
  apply ends_setFile
  have hmem : candidate ∈ s'.temps := by
    rw [RestoreState.temps, hpath]
    exact List.mem_cons_self
  have hmoved := (huntouched.mono (List.subset_cons_self live _)).write
    (Or.inr List.mem_cons_self) (s'.files candidate)
  refine ⟨hmoved.write (Or.inl hmem) none, migrated, hmigrated, ?_⟩
  show Function.update (Function.update s'.files live (s'.files candidate)) candidate none live =
    some migrated
  rw [Function.update_of_ne hne, Function.update_self, hholds]

theorem ends_replaceLive (ht : RestoreTarget files live backup)
    (h : HoldsMigrated o data files dir s) :
    Ends (replaceLive o live backup) s
      (fun _ s' => Untouched files dir (live :: backup.toList) s' ∧
        ∃ migrated, o.migrate data = .ok migrated ∧ s'.files live = some migrated)
      (fun _ s' => Untouched files dir backup.toList s') := by
  apply Ends.tryCatch
  refine Ends.mono (ends_replaceBody ht h) (fun _ _ h => h) ?_
  rintro (_ | _ | _ | _ | _) s' h' <;> exact h'

theorem removeTemps_of_not_mem {p : String} (hp : p ∉ s.temps) :
    (removeTemps o s).files p = s.files p := by
  show s.temps.foldl (removeFile o) s.files p = s.files p
  rw [foldl_removeFile, if_neg fun h => hp h.1]

theorem removeTemps_of_mem {p : String} (hp : p ∈ s.temps) (hfails : o.removeFails p = false) :
    (removeTemps o s).files p = none := by
  show s.temps.foldl (removeFile o) s.files p = none
  rw [foldl_removeFile, if_pos ⟨hp, hfails⟩]

/-- All other files are as before, but for a temporary file that could not be removed. -/
def OthersKept (o : RestoreOutcomes) (files : Files) (live : String) (backup : Option String)
    (files' : Files) : Prop :=
  ∀ p, p ∉ live :: sidecars live → p ∉ backup →
    files' p = files p ∨ (files p = none ∧ o.removeFails p = true)

theorem Untouched.othersKept {kept : List String} (h : Untouched files dir kept s)
    (hkept : ∀ p ∈ kept, p ∈ live :: sidecars live ∨ p ∈ backup) :
    OthersKept o files live backup (removeTemps o s).files := by
  intro p hp hbackup
  by_cases htemp : p ∈ s.temps
  · cases hfails : o.removeFails p with
    | false =>
      rw [removeTemps_of_mem htemp hfails, h.free p htemp]
      exact Or.inl rfl
    | true => exact Or.inr ⟨h.free p htemp, rfl⟩
  · rw [removeTemps_of_not_mem htemp]
    refine Or.inl (h.others p htemp fun hmem => ?_)
    exact (hkept p hmem).elim hp hbackup

theorem RestoreTarget.undone (ht : RestoreTarget files live backup)
    (h : Untouched files dir backup.toList s) :
    (∀ p ∈ live :: sidecars live, (removeTemps o s).files p = files p) ∧
      OthersKept o files live backup (removeTemps o s).files := by
  refine ⟨fun p hp => ?_, h.othersKept fun p hp => Or.inr (Option.mem_toList.mp hp)⟩
  have htemp : p ∉ s.temps := ht.not_mem_temps h hp
  rw [removeTemps_of_not_mem htemp]
  exact h.others p htemp fun hmem => ht.not_mem_backup hp (Option.mem_toList.mp hmem)

/-- The state after the sidecars of the old database are removed. -/
def withoutSidecars (o : RestoreOutcomes) (live : String) (s : RestoreState) : RestoreState :=
  { s with files := (sidecars live).foldl (removeFile o) s.files }

theorem files_withoutSidecars (p : String) : (withoutSidecars o live s).files p =
    if p ∈ sidecars live ∧ o.removeFails p = false then none else s.files p :=
  foldl_removeFile o (sidecars live) s.files p

theorem Untouched.withoutSidecars {kept : List String} (h : Untouched files dir kept s) :
    Untouched files dir (kept ++ sidecars live) (withoutSidecars o live s) := by
  refine ⟨fun p hp hkept => ?_, h.free, h.named⟩
  rw [files_withoutSidecars, if_neg fun hmem => hkept (List.mem_append_right _ hmem.1)]
  exact h.others p hp fun hmem => hkept (List.mem_append_left _ hmem)

end Replace

/-- **All or nothing.**  A restore that raises leaves the live database and its
sidecars as they were; one that returns leaves the migrated upload in the live
path, and no sidecar but one whose own removal failed.  Either way all other
files are as before, the backup apart, and no temporary file stays but one whose
own removal failed. -/
theorem import_db_bytes_all_or_nothing (o : RestoreOutcomes) {files : Files} {live : String}
    (dir : String) (data : Contents) {backup : Option String}
    (ht : RestoreTarget files live backup) :
    Ends (importDbBytes o live dir data backup) ⟨files, none, none⟩
      (fun _ s =>
        (∃ migrated, o.migrate data = .ok migrated ∧ s.files live = some migrated) ∧
        (∀ p ∈ sidecars live, s.files p = none ∨ o.removeFails p = true) ∧
        OthersKept o files live backup s.files)
      (fun _ s =>
        (∀ p ∈ live :: sidecars live, s.files p = files p) ∧
        OthersKept o files live backup s.files) := by
  apply Ends.withCleanup
  apply Ends.bind
  refine Ends.mono (ends_prepare o live dir data files) (fun _ s hprepared => ?_) fun _ s h =>
    ht.undone (h.mono (List.nil_subset _))
  apply Ends.bind
  refine Ends.mono (ends_replaceLive ht hprepared) ?_ fun _ s h => ht.undone h
  rintro _ s ⟨h, migrated, hmigrated, hlive⟩
  apply Ends.modify
  -- the sidecars of the old database go, then the temporary files
  have hcleaned : Untouched files dir (live :: backup.toList ++ sidecars live)
      (withoutSidecars o live s) := h.withoutSidecars
  have hkeep : ∀ p ∈ live :: sidecars live,
      (removeTemps o (withoutSidecars o live s)).files p = (withoutSidecars o live s).files p :=
    fun p hp => removeTemps_of_not_mem (ht.not_mem_temps h hp)
  show (∃ migrated, o.migrate data = .ok migrated ∧
      (removeTemps o (withoutSidecars o live s)).files live = some migrated) ∧
    (∀ p ∈ sidecars live, (removeTemps o (withoutSidecars o live s)).files p = none ∨
      o.removeFails p = true) ∧
    OthersKept o files live backup (removeTemps o (withoutSidecars o live s)).files
  refine ⟨⟨migrated, hmigrated, ?_⟩, fun p hp => ?_, hcleaned.othersKept fun p hp => ?_⟩
  · rw [hkeep live List.mem_cons_self, files_withoutSidecars,
      if_neg fun h => not_mem_sidecars_self live h.1]
    exact hlive
  · rw [hkeep p (List.mem_cons_of_mem live hp), files_withoutSidecars]
    cases hfails : o.removeFails p with
    | false => exact Or.inl (if_pos ⟨hp, rfl⟩)
    | true => exact Or.inr rfl
  · rcases List.mem_append.mp hp with hp | hp
    · rcases List.mem_cons.mp hp with rfl | hp
      · exact Or.inl List.mem_cons_self
      · exact Or.inr (Option.mem_toList.mp hp)
    · exact Or.inl (List.mem_cons_of_mem live hp)

/-- A restore in which nothing fails but the removal of a sidecar. -/
def walStays : RestoreOutcomes where
  candidateNames := .ok ["a"]
  referenceNames := .ok ["a", "b"]
  inspect := fun _ => .ok ⟨some "ok", restoreCoreTables⟩
  migrate := fun data => .ok (data ++ [0])
  build := .ok [0]
  schemas := fun _ _ => .ok ([], [])
  removeFails := (· = "hamzaban.db-wal")

def withWal : Files := fun path =>
  if path = "hamzaban.db" then some [1] else if path = "hamzaban.db-wal" then some [2] else none

theorem import_db_bytes_backs_up :
    Ends (importDbBytes walStays "hamzaban.db" "." [3] (some "hamzaban.db.pre_restore"))
      ⟨withWal, none, none⟩
      (fun _ s =>
        (∃ migrated, walStays.migrate [3] = .ok migrated ∧ s.files "hamzaban.db" = some migrated) ∧
        (∀ p ∈ sidecars "hamzaban.db", s.files p = none ∨ walStays.removeFails p = true) ∧
        OthersKept walStays withWal "hamzaban.db" (some "hamzaban.db.pre_restore") s.files)
      (fun _ s =>
        (∀ p ∈ "hamzaban.db" :: sidecars "hamzaban.db", s.files p = withWal p) ∧
        OthersKept walStays withWal "hamzaban.db" (some "hamzaban.db.pre_restore") s.files) :=
  import_db_bytes_all_or_nothing walStays "." [3]
    ⟨by decide, fun path hpath => (Option.some.inj hpath).symm⟩

/-- The call returns, and the sidecar of the old database is still there. -/
theorem sidecar_left_behind :
    Ends (importDbBytes walStays "hamzaban.db" "." [3] none) ⟨withWal, none, none⟩
      (fun _ s => s.files "hamzaban.db" = some [3, 0] ∧ s.files "hamzaban.db-wal" = some [2])
      (fun _ _ => False) := by
  show _ ∧ _
  decide

end HamZaboon
