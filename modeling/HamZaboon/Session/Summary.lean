import HamZaboon.Library.JsonWrite
import HamZaboon.Texts.Decoded
import HamZaboon.Texts.PyFloat
import Mathlib.Algebra.Order.Floor.Ring
import Mathlib.Algebra.Order.Ring.Rat
import Mathlib.Data.List.Nodup
import Mathlib.Data.List.Range
import Mathlib.Tactic.Linarith

/-! # Stored session reports

`services/session/summary.py`: a report is made of the records of a session, and only the
records are stored; all else is computed again when the report is opened.

So a report opens as it was when its records can be written: json writes no integer with more
digits than the limit (`report_reopens`).
-/

namespace HamZaboon
open Library

/-- A number of a record: an integer, or a float as `repr` writes it. -/
inductive ReportNumber
  | int (n : Int)
  | float (literal : List Char) (valid : isFloatLiteral literal = true)

structure WordReviewRecord where
  wordId : Int
  word : String
  activityType : String
  stabilityBefore : Option ReportNumber
  stabilityAfter : Option ReportNumber
  priorReviewDate : Option String
  grade : Option Int
  intervalDays : Option ReportNumber
  nextReviewDate : Option String
  difficulty : Option ReportNumber

structure SessionReport where
  learnedCount : Nat
  reviewedCount : Nat
  total : Nat
  rows : List WordReviewRecord
  avgStabilityDelta : Option PyFloat
  recallRate : Option ℚ
  avgStabilityAfter : Option PyFloat
  pages : List (List WordReviewRecord)

/-- How Python rounds to floats: in order, and exactly where a float is whole. -/
structure FloatRounding where
  rnd : ℚ → ℚ
  mono : Monotone rnd
  natural : ∀ n : Nat, n ≤ 2 ^ 53 → rnd n = n
  tie : rnd (2 ^ 53 + 1) = 2 ^ 53

/-- What a report takes from Python. -/
structure ReportLib extends FloatRounding where
  /-- The float of a literal. -/
  floatOf : List Char → PyFloat
  /-- `a - b`; `none` for the `OverflowError`. -/
  minus : PyNum → PyNum → Option PyNum
  /-- `fmean`; `none` for the exceptions of `fsum`. -/
  fmean : List PyNum → Option PyFloat

def pageSize : Nat := 8

def paginate {α : Type} (records : List α) (size : Nat) : List (List α) :=
  if records = [] then []
  else (List.range ((records.length + size - 1) / size)).map fun k => (records.drop (k * size)).take size

namespace ReportLib
variable (lib : ReportLib)

/-! ## The report -/

def valueOf : ReportNumber → PyNum
  | .int n => .int n
  | .float literal _ => .float (lib.floatOf literal)

/-- `RECALL_WEIGHTS.get(g, 0.0)`. -/
def recallWeight (grade : Int) : ℚ :=
  if grade = 2 then lib.rnd (7 / 10) else if grade = 3 ∨ grade = 4 then 1 else 0

/-- `sum` of the weights. -/
def weightSum (grades : List Int) : ℚ :=
  (grades.map lib.recallWeight).foldl (fun sum w => lib.rnd (sum + w)) 0

/-- `fmean(values) if values else None`. -/
def meanOf (values : List PyNum) : Option (Option PyFloat) :=
  if values = [] then some none else (lib.fmean values).map some

/-- The stabilities after and before, of a row that has both. -/
def stabilities (r : WordReviewRecord) : Option (ReportNumber × ReportNumber) :=
  match r.stabilityBefore, r.stabilityAfter with
  | some before, some after => some (after, before)
  | _, _ => none

/-- `build_report`; `none` for an exception. -/
def buildReport (records : List WordReviewRecord) : Option SessionReport := do
  let deltas ← (records.filterMap stabilities).mapM fun s => lib.minus (lib.valueOf s.1) (lib.valueOf s.2)
  let avgDelta ← lib.meanOf deltas
  let grades := records.filterMap (·.grade)
  let avgAfter ← lib.meanOf ((records.filterMap (·.stabilityAfter)).map lib.valueOf)
  return {
    learnedCount := records.countP (·.activityType = "first_exposure")
    reviewedCount := records.countP (·.activityType = "srs_review")
    total := records.length
    rows := records
    avgStabilityDelta := avgDelta
    recallRate := if grades = [] then none
      else some (lib.rnd (lib.weightSum grades / lib.rnd grades.length))
    avgStabilityAfter := avgAfter
    pages := paginate records pageSize }

end ReportLib

/-! ## The stored text -/

inductive RecordField
  | wordId | word | activityType | stabilityBefore | stabilityAfter | priorReviewDate | grade
  | intervalDays | nextReviewDate | difficulty
  deriving DecidableEq

namespace RecordField

def name : RecordField → String
  | wordId => "word_id"
  | word => "word"
  | activityType => "activity_type"
  | stabilityBefore => "stability_before"
  | stabilityAfter => "stability_after"
  | priorReviewDate => "prior_review_date"
  | grade => "grade"
  | intervalDays => "interval_days"
  | nextReviewDate => "next_review_date"
  | difficulty => "difficulty"

def all : List RecordField :=
  [wordId, word, activityType, stabilityBefore, stabilityAfter, priorReviewDate, grade, intervalDays,
    nextReviewDate, difficulty]

def key (f : RecordField) : List Nat := points f.name

theorem key_injective {f g : RecordField} (h : f.key = g.key) : f = g := by
  revert h
  cases f <;> cases g <;> decide +kernel

theorem mem_all (f : RecordField) : f ∈ all := by
  cases f <;> decide

end RecordField

/-- The limits of the interpreter. -/
def pythonLimits : ScanLimits where
  depth := 1000
  digits := 4300

/-- `REPORT_JSON_VERSION`. -/
def reportVersion : Int := 1

/-- What `deserialize_report` raises. -/
inductive ReportError
  | malformed
  | unsupportedVersion
  | noRows
  | raised
  deriving DecidableEq

def ReportNumber.json : ReportNumber → JsonTree
  | .int n => .int n
  | .float literal _ => .float literal

namespace WordReviewRecord

def json (r : WordReviewRecord) : RecordField → JsonTree
  | .wordId => .int r.wordId
  | .word => .str (points r.word)
  | .activityType => .str (points r.activityType)
  | .stabilityBefore => (r.stabilityBefore.map ReportNumber.json).getD .null
  | .stabilityAfter => (r.stabilityAfter.map ReportNumber.json).getD .null
  | .priorReviewDate => (r.priorReviewDate.map fun s => .str (points s)).getD .null
  | .grade => (r.grade.map .int).getD .null
  | .intervalDays => (r.intervalDays.map ReportNumber.json).getD .null
  | .nextReviewDate => (r.nextReviewDate.map fun s => .str (points s)).getD .null
  | .difficulty => (r.difficulty.map ReportNumber.json).getD .null

def asdict (r : WordReviewRecord) : JsonTree :=
  .obj (RecordField.all.map fun f => (f.key, r.json f))

end WordReviewRecord

/-- `serialize_report`; `none` for the `ValueError` of an integer with too many digits. -/
def serializeReport (report : SessionReport) : Option (List Char) :=
  jsonDumps pythonLimits (.obj [(points "version", .int reportVersion),
    (points "rows", .arr (report.rows.map WordReviewRecord.asdict))])

/-! ## Reading it -/

def textOfPoints (text : List Nat) : String := String.ofList (text.map Char.ofNat)

def readText : JsonTree → Option String
  | .str text => some (textOfPoints text)
  | _ => none

def readInt : JsonTree → Option Int
  | .int n => some n
  | _ => none

def readNumber : JsonTree → Option ReportNumber
  | .int n => some (.int n)
  | .float literal => if h : isFloatLiteral literal = true then some (.float literal h) else none
  | _ => none

/-- A field that may be missing or `None`. -/
def readOptional {α : Type} (read : JsonTree → Option α) : Option JsonTree → Option (Option α)
  | none => some none
  | some .null => some none
  | some value => (read value).map some

/-- `WordReviewRecord(**row)`; `none` for the `TypeError`.  A value of another type than its field's,
which the source takes as it is, is refused. -/
def readRecord : JsonTree → Option WordReviewRecord
  | .obj row => do
    let get := fun f : RecordField => row.lookup f.key
    guard (row.all fun e => e.1 ∈ RecordField.all.map RecordField.key)
    return {
      wordId := ← readInt (← get .wordId)
      word := ← readText (← get .word)
      activityType := ← readText (← get .activityType)
      stabilityBefore := ← readOptional readNumber (get .stabilityBefore)
      stabilityAfter := ← readOptional readNumber (get .stabilityAfter)
      priorReviewDate := ← readOptional readText (get .priorReviewDate)
      grade := ← readOptional readInt (get .grade)
      intervalDays := ← readOptional readNumber (get .intervalDays)
      nextReviewDate := ← readOptional readText (get .nextReviewDate)
      difficulty := ← readOptional readNumber (get .difficulty) }
  | _ => none

/-- `data.get("version") == REPORT_JSON_VERSION`. -/
def ReportLib.isVersion (lib : ReportLib) : Option JsonTree → Bool
  | some (.int n) => n = reportVersion
  | some (.bool b) => b
  | some (.float literal) => lib.floatOf literal = .finite reportVersion
  | _ => false

def ReportLib.deserializeReport (lib : ReportLib) (payload : List Char) :
    Except ReportError SessionReport :=
  match jsonLoads pythonLimits payload with
  | .error _ => .error .malformed
  | .ok (.obj data) =>
    if lib.isVersion (data.lookup (points "version")) then
      match data.lookup (points "rows") with
      | some (.arr rows) =>
        match (rows.mapM readRecord).bind lib.buildReport with
        | some report => .ok report
        | none => .error .raised
      | _ => .error .noRows
    else .error .unsupportedVersion
  | .ok _ => .error .raised

/-! ## The records are read back -/

theorem textOfPoints_points (s : String) : textOfPoints (points s) = s := by
  unfold textOfPoints points
  rw [List.map_map]
  have hid : (Char.ofNat ∘ Char.toNat) = id := funext Char.ofNat_toNat
  rw [hid, List.map_id, String.ofList_toList]

theorem lookup_fields (value : RecordField → JsonTree) (f : RecordField) :
    (RecordField.all.map fun f => (f.key, value f)).lookup f.key = some (value f) := by
  have hall : ∀ fields : List RecordField, f ∈ fields →
      (fields.map fun f => (f.key, value f)).lookup f.key = some (value f) := by
    intro fields
    induction fields with
    | nil => nofun
    | cons g fields ih =>
      intro hf
      by_cases hg : f = g
      · subst hg
        exact List.lookup_cons_self
      · have hkey : f.key ≠ g.key := fun h => hg (RecordField.key_injective h)
        rw [List.map_cons, List.lookup_cons, beq_false_of_ne hkey]
        exact ih ((List.mem_cons.mp hf).resolve_left hg)
  exact hall _ f.mem_all

theorem readNumber_json (n : ReportNumber) : readNumber n.json = some n := by
  cases n with
  | int n => rfl
  | float literal valid => exact dif_pos valid

theorem readOptional_map {α : Type} {read : JsonTree → Option α} {json : α → JsonTree}
    (hread : ∀ a, read (json a) = some a) (hnull : ∀ a, json a ≠ .null) (value : Option α) :
    readOptional read (some ((value.map json).getD .null)) = some value := by
  cases value with
  | none => rfl
  | some a =>
    have hsome : ∀ v : JsonTree, v ≠ .null → readOptional read (some v) = (read v).map some := by
      intro v hv
      cases v with
      | null => exact absurd rfl hv
      | _ => rfl
    rw [Option.map_some, Option.getD_some, hsome _ (hnull a), hread]
    rfl

theorem json_ne_null (n : ReportNumber) : n.json ≠ .null := by
  cases n <;> nofun

theorem readRecord_asdict (r : WordReviewRecord) : readRecord r.asdict = some r := by
  have hkeys : (RecordField.all.map fun f => (f.key, r.json f)).all
      (fun e => e.1 ∈ RecordField.all.map RecordField.key) = true := by
    rw [List.all_eq_true]
    intro e he
    obtain ⟨f, hf, rfl⟩ := List.mem_map.mp he
    exact decide_eq_true (List.mem_map_of_mem hf)
  have hnumber : ∀ value : Option ReportNumber,
      readOptional readNumber (some ((value.map ReportNumber.json).getD .null)) = some value :=
    readOptional_map readNumber_json json_ne_null
  have htext : ∀ value : Option String,
      readOptional readText (some ((value.map fun s => .str (points s)).getD .null)) = some value :=
    readOptional_map (fun s => congrArg some (textOfPoints_points s)) fun _ => nofun
  have hint : ∀ value : Option Int,
      readOptional readInt (some ((value.map .int).getD .null)) = some value :=
    readOptional_map (fun _ => rfl) fun _ => nofun
  unfold WordReviewRecord.asdict readRecord
  simp only [hkeys, lookup_fields, guard, if_true, Option.bind_eq_bind, Option.bind_some, Option.pure_def]
  simp only [WordReviewRecord.json, hnumber, htext, hint, readInt, readText, textOfPoints_points,
    Option.bind_some]

theorem mapM_readRecord (rows : List WordReviewRecord) :
    (rows.map WordReviewRecord.asdict).mapM readRecord = some rows := by
  induction rows with
  | nil => rfl
  | cons r rows ih =>
    rw [List.map_cons, List.mapM_cons, readRecord_asdict, ih]
    rfl

/-! ## What can be written -/

/-- The integer has no more digits than json writes. -/
def ShortInt (n : Int) : Prop := (Nat.toDigits 10 n.natAbs).length ≤ 4300

instance (n : Int) : Decidable (ShortInt n) := inferInstanceAs (Decidable (_ ≤ _))

/-- The integers of a record can be written. -/
structure WordReviewRecord.Writable (r : WordReviewRecord) : Prop where
  wordId : ShortInt r.wordId
  grade : ∀ n, r.grade = some n → ShortInt n
  numbers : ∀ n, some (.int n) ∈ [r.stabilityBefore, r.stabilityAfter, r.intervalDays, r.difficulty] →
    ShortInt n

theorem fits_text (depth : Nat) (s : String) : fits pythonLimits depth (.str (points s)) = true := by
  cases depth <;> exact isText_points s

theorem fits_int {depth : Nat} {n : Int} : fits pythonLimits depth (.int n) = true ↔ ShortInt n := by
  cases depth <;> exact decide_eq_true_iff

theorem fits_optional {α : Type} {json : α → JsonTree} {depth : Nat} {value : Option α} :
    fits pythonLimits depth ((value.map json).getD .null) = true ↔
      ∀ a, value = some a → fits pythonLimits depth (json a) = true := by
  cases value with
  | none => cases depth <;> simp [fits]
  | some a => simp

theorem fits_number {depth : Nat} {n : ReportNumber} :
    fits pythonLimits depth n.json = true ↔ ∀ k, n = .int k → ShortInt k := by
  cases n with
  | int k => simp [ReportNumber.json, fits_int]
  | float literal valid => cases depth <;> simp [ReportNumber.json, fits, valid]

theorem fits_json_iff (depth : Nat) {r : WordReviewRecord} :
    (∀ f, fits pythonLimits depth (r.json f) = true) ↔ r.Writable := by
  have hnumber : ∀ value : Option ReportNumber,
      fits pythonLimits depth ((value.map ReportNumber.json).getD .null) = true ↔
        ∀ k, value = some (.int k) → ShortInt k := fun value => by
    rw [fits_optional]
    constructor
    · exact fun h k hk => fits_number.mp (h _ hk) k rfl
    · rintro h a rfl
      exact fits_number.mpr fun k hk => h k (congrArg some hk)
  constructor
  · intro h
    refine ⟨fits_int.mp (h .wordId), fun n hn => fits_int.mp (fits_optional.mp (h .grade) n hn), ?_⟩
    intro n hn
    simp only [List.mem_cons, List.not_mem_nil, or_false] at hn
    rcases hn with hn | hn | hn | hn
    · exact (hnumber _).mp (h .stabilityBefore) n hn.symm
    · exact (hnumber _).mp (h .stabilityAfter) n hn.symm
    · exact (hnumber _).mp (h .intervalDays) n hn.symm
    · exact (hnumber _).mp (h .difficulty) n hn.symm
  · intro h f
    have htext : ∀ value : Option String,
        fits pythonLimits depth ((value.map fun s => .str (points s)).getD .null) = true := fun value =>
      fits_optional.mpr fun s _ => fits_text depth s
    cases f with
    | wordId => exact fits_int.mpr h.wordId
    | word => exact fits_text depth r.word
    | activityType => exact fits_text depth r.activityType
    | stabilityBefore => exact (hnumber _).mpr fun k hk => h.numbers k (by simp [hk])
    | stabilityAfter => exact (hnumber _).mpr fun k hk => h.numbers k (by simp [hk])
    | priorReviewDate => exact htext _
    | grade => exact fits_optional.mpr fun n hn => fits_int.mpr (h.grade n hn)
    | intervalDays => exact (hnumber _).mpr fun k hk => h.numbers k (by simp [hk])
    | nextReviewDate => exact htext _
    | difficulty => exact (hnumber _).mpr fun k hk => h.numbers k (by simp [hk])

theorem fits_asdict_iff (depth : Nat) {r : WordReviewRecord} :
    fits pythonLimits (depth + 1) r.asdict = true ↔ r.Writable := by
  have hnodup : ((RecordField.all.map fun f => (f.key, r.json f)).map (·.1)).Nodup := by
    rw [List.map_map]
    exact List.Nodup.map (fun _ _ => RecordField.key_injective) (by decide)
  rw [WordReviewRecord.asdict, fits, Bool.and_eq_true, decide_eq_true_iff, and_iff_right hnodup,
    fitsEntries_iff, ← fits_json_iff depth]
  constructor
  · exact fun h f => (h _ (List.mem_map_of_mem f.mem_all)).2
  · intro h e he
    obtain ⟨f, -, rfl⟩ := List.mem_map.mp he
    exact ⟨isText_points _, h f⟩

theorem serializeReport_isSome {report : SessionReport} :
    (serializeReport report).isSome = true ↔ ∀ r ∈ report.rows, r.Writable := by
  have hrows : fits pythonLimits pythonLimits.depth (.obj [(points "version", .int reportVersion),
      (points "rows", .arr (report.rows.map WordReviewRecord.asdict))]) = true ↔
        ∀ r ∈ report.rows, r.Writable := by
    have hnodup : ([(points "version", JsonTree.int reportVersion),
        (points "rows", .arr (report.rows.map WordReviewRecord.asdict))].map (·.1)).Nodup := by
      change [points "version", points "rows"].Nodup
      decide +kernel
    have hversion : isText (points "version") = true ∧
        fits pythonLimits 999 (.int reportVersion) = true := by decide +kernel
    rw [show pythonLimits.depth = 998 + 1 + 1 from rfl, fits, Bool.and_eq_true, decide_eq_true_iff,
      and_iff_right hnodup, fitsEntries_iff, List.forall_mem_cons, and_iff_right hversion,
      List.forall_mem_singleton, and_iff_right (isText_points "rows"), fits, fitsItems_iff,
      List.forall_mem_map]
    exact forall_congr' fun r => forall_congr' fun _ => fits_asdict_iff 997
  rw [serializeReport, jsonDumps, ← hrows]
  split <;> simp [*]

theorem deserialize_of_serialize (lib : ReportLib) {report : SessionReport} {payload : List Char}
    (h : serializeReport report = some payload) : lib.deserializeReport payload =
      match lib.buildReport report.rows with
      | some report => .ok report
      | none => .error .raised := by
  have hversion : ([(points "version", JsonTree.int reportVersion),
      (points "rows", .arr (report.rows.map WordReviewRecord.asdict))]).lookup (points "version") =
        some (.int reportVersion) := List.lookup_cons_self
  have hrows : ([(points "version", JsonTree.int reportVersion),
      (points "rows", .arr (report.rows.map WordReviewRecord.asdict))]).lookup (points "rows") =
        some (.arr (report.rows.map WordReviewRecord.asdict)) := by
    rw [List.lookup_cons, show (points "rows" == points "version") = false by decide +kernel]
    exact List.lookup_cons_self
  rw [ReportLib.deserializeReport, loads_of_dumps h]
  dsimp only
  rw [hversion, hrows]
  dsimp only
  rw [mapM_readRecord, Option.bind_some]
  rfl

/-! ## Pages -/

section Pages
variable {α : Type} {size : Nat}

theorem flatten_slices (l : List α) (size n : Nat) :
    ((List.range n).map fun k => (l.drop (k * size)).take size).flatten = l.take (n * size) := by
  induction n with
  | zero => simp
  | succ n ih =>
    rw [List.range_succ, List.map_append, List.flatten_append, ih, Nat.succ_mul, List.take_add]
    simp

theorem flatten_paginate (l : List α) (hsize : 0 < size) : (paginate l size).flatten = l := by
  unfold paginate
  split
  · simp [*]
  · rw [flatten_slices, List.take_of_length_le]
    have hdiv := Nat.div_add_mod (l.length + size - 1) size
    have hmod := Nat.mod_lt (l.length + size - 1) hsize
    rw [Nat.mul_comm] at hdiv
    omega

theorem page_bounds {l page : List α} (hpage : page ∈ paginate l size) :
    page ≠ [] ∧ page.length ≤ size := by
  unfold paginate at hpage
  split at hpage
  · cases hpage
  · obtain ⟨k, hk, rfl⟩ := List.mem_map.mp hpage
    refine ⟨fun hnil => ?_, List.length_take_le _ _⟩
    rw [List.mem_range] at hk
    rcases Nat.eq_zero_or_pos size with rfl | hsize
    · simp at hk
    · have hlt := (Nat.lt_div_iff_mul_lt hsize).mp hk
      rw [List.take_eq_nil_iff, List.drop_eq_nil_iff] at hnil
      omega

end Pages

/-! ## The recall rate -/

namespace FloatRounding
variable (f : FloatRounding)

theorem foldl_bounds (weights : List ℚ) (hweights : ∀ w ∈ weights, 0 ≤ w ∧ w ≤ 1) :
    0 ≤ weights.foldl (fun sum w => f.rnd (sum + w)) 0 ∧
      weights.foldl (fun sum w => f.rnd (sum + w)) 0 ≤ (min weights.length (2 ^ 53) : Nat) := by
  induction weights using List.reverseRecOn with
  | nil => simp
  | append_singleton weights w ih =>
    obtain ⟨hlow, hhigh⟩ := ih fun v hv => hweights v (List.mem_append_left _ hv)
    obtain ⟨hw, hw'⟩ := hweights w (by simp)
    have hzero : f.rnd 0 = 0 := by exact_mod_cast f.natural 0 (by norm_num)
    rw [List.foldl_append, List.foldl_cons, List.foldl_nil, List.length_append, List.length_singleton]
    refine ⟨?_, ?_⟩
    · exact hzero.symm.le.trans (f.mono (by linarith))
    · by_cases hshort : weights.length < 2 ^ 53
      · rw [min_eq_left hshort.le] at hhigh
        rw [min_eq_left (Nat.succ_le_of_lt hshort), ← f.natural _ (Nat.succ_le_of_lt hshort)]
        refine f.mono ?_
        push_cast
        linarith
      · -- the sum stands still at the last whole number before a gap
        rw [min_eq_right (not_lt.mp hshort)] at hhigh
        rw [min_eq_right (by omega)]
        refine (f.mono (b := 2 ^ 53 + 1) ?_).trans (le_of_eq ?_)
        · push_cast at hhigh
          linarith
        · rw [f.tie]
          norm_num

theorem mean_bounds {weights : List ℚ} (hne : weights ≠ []) (hweights : ∀ w ∈ weights, 0 ≤ w ∧ w ≤ 1) :
    0 ≤ f.rnd (weights.foldl (fun sum w => f.rnd (sum + w)) 0 / f.rnd weights.length) ∧
      f.rnd (weights.foldl (fun sum w => f.rnd (sum + w)) 0 / f.rnd weights.length) ≤ 1 := by
  obtain ⟨hlow, hhigh⟩ := f.foldl_bounds weights hweights
  have hzero : f.rnd 0 = 0 := by exact_mod_cast f.natural 0 (by norm_num)
  have hone : f.rnd 1 = 1 := by exact_mod_cast f.natural 1 (by norm_num)
  have hcount : ((min weights.length (2 ^ 53) : Nat) : ℚ) ≤ f.rnd weights.length := by
    rw [← f.natural _ (min_le_right _ _)]
    exact f.mono (by exact_mod_cast min_le_left _ _)
  have hpos : (0 : ℚ) < (min weights.length (2 ^ 53) : Nat) := by
    exact_mod_cast lt_min (List.length_pos_iff.mpr hne) (by norm_num)
  constructor
  · exact hzero.symm.le.trans (f.mono (div_nonneg hlow (hpos.le.trans hcount)))
  · exact (f.mono ((div_le_one (hpos.trans_le hcount)).mpr (hhigh.trans hcount))).trans hone.le

end FloatRounding

/-! ## Reports -/

/-- What is stored and opened again. -/
def ReportLib.reopen (lib : ReportLib) (report : SessionReport) : Option SessionReport := do
  let payload ← serializeReport report
  (lib.deserializeReport payload).toOption

structure SessionReport.WellFormed (report : SessionReport) : Prop where
  pages : ∀ page ∈ report.pages, page ≠ [] ∧ page.length ≤ pageSize
  inOrder : report.pages.flatten = report.rows
  counts : report.learnedCount + report.reviewedCount ≤ report.total
  unrated : report.recallRate = none ↔ ∀ r ∈ report.rows, r.grade = none
  rated : ∀ rate, report.recallRate = some rate → 0 ≤ rate ∧ rate ≤ 1

section Report
variable {lib : ReportLib} {records : List WordReviewRecord} {report : SessionReport}

theorem buildReport_eq_some (h : lib.buildReport records = some report) :
    report.rows = records ∧ report.total = records.length ∧
      report.learnedCount = records.countP (·.activityType = "first_exposure") ∧
      report.reviewedCount = records.countP (·.activityType = "srs_review") ∧
      report.pages = paginate records pageSize ∧
      report.recallRate = if records.filterMap (·.grade) = [] then none
        else some (lib.rnd (lib.weightSum (records.filterMap (·.grade)) /
          lib.rnd (records.filterMap (·.grade)).length)) := by
  unfold ReportLib.buildReport at h
  obtain ⟨deltas, -, h⟩ := Option.bind_eq_some_iff.mp h
  obtain ⟨avgDelta, -, h⟩ := Option.bind_eq_some_iff.mp h
  obtain ⟨avgAfter, -, h⟩ := Option.bind_eq_some_iff.mp h
  obtain rfl := Option.some.inj h
  exact ⟨rfl, rfl, rfl, rfl, rfl, rfl⟩

theorem recallWeight_bounds (grade : Int) : 0 ≤ lib.recallWeight grade ∧ lib.recallWeight grade ≤ 1 := by
  have hzero : lib.rnd 0 = 0 := by exact_mod_cast lib.natural 0 (by norm_num)
  have hone : lib.rnd 1 = 1 := by exact_mod_cast lib.natural 1 (by norm_num)
  unfold ReportLib.recallWeight
  split
  · exact ⟨hzero.symm.le.trans (lib.mono (by norm_num)), (lib.mono (by norm_num)).trans hone.le⟩
  · split <;> norm_num

theorem countP_activities (records : List WordReviewRecord) :
    records.countP (·.activityType = "first_exposure") + records.countP (·.activityType = "srs_review") ≤
      records.length := by
  induction records with
  | nil => rfl
  | cons r records ih =>
    have hapart : ¬ (r.activityType = "first_exposure" ∧ r.activityType = "srs_review") := fun h =>
      absurd (h.1.symm.trans h.2) (by decide)
    rw [List.countP_cons, List.countP_cons, List.length_cons]
    simp only [decide_eq_true_eq]
    split <;> split <;> first | omega | exact absurd ⟨‹_›, ‹_›⟩ hapart

theorem wellFormed_buildReport (h : lib.buildReport records = some report) :
    report.WellFormed := by
  obtain ⟨hrows, htotal, hlearned, hreviewed, hpages, hrate⟩ := buildReport_eq_some h
  refine ⟨fun page hpage => ?_, ?_, ?_, ?_, fun rate hrated => ?_⟩
  · rw [hpages] at hpage
    exact page_bounds hpage
  · rw [hpages, hrows, flatten_paginate records (by decide)]
  · rw [hlearned, hreviewed, htotal]
    exact countP_activities records
  · rw [hrate, hrows]
    split
    · rename_i hnil
      rw [List.filterMap_eq_nil_iff] at hnil
      exact iff_of_true rfl hnil
    · rename_i hne
      rw [List.filterMap_eq_nil_iff] at hne
      exact iff_of_false nofun hne
  · rw [hrate] at hrated
    split at hrated
    · cases hrated
    · rename_i hne
      have hweights : ∀ w ∈ (records.filterMap (·.grade)).map lib.recallWeight, 0 ≤ w ∧ w ≤ 1 := by
        intro w hw
        obtain ⟨grade, -, rfl⟩ := List.mem_map.mp hw
        exact recallWeight_bounds grade
      have hbounds := lib.mean_bounds (mt List.map_eq_nil_iff.mp hne) hweights
      rw [List.length_map] at hbounds
      obtain rfl := Option.some.inj hrated
      exact hbounds

/-- **A report opens as it was, in order, when its records can be written.** -/
theorem report_reopens (hwritable : ∀ r ∈ records, r.Writable) :
    (lib.buildReport records).bind lib.reopen = lib.buildReport records ∧
      ∀ report, lib.buildReport records = some report → report.WellFormed := by
  refine ⟨?_, fun report => wellFormed_buildReport⟩
  cases hbuild : lib.buildReport records with
  | none => rfl
  | some report =>
    have hrows := (buildReport_eq_some hbuild).1
    obtain ⟨payload, hpayload⟩ := Option.isSome_iff_exists.mp
      (serializeReport_isSome.mpr (hrows ▸ hwritable))
    rw [Option.bind_some, ReportLib.reopen, hpayload, Option.bind_eq_bind, Option.bind_some,
      deserialize_of_serialize lib hpayload, hrows, hbuild]
    rfl

end Report

/-! ## An integer that json does not write -/

/-- Exact numbers, but for the first whole number that is no float. -/
def coarseRounding : FloatRounding where
  rnd q := if q ≤ 2 ^ 53 + 1 then min q (2 ^ 53) else q
  mono := by
    intro a b hab
    dsimp only
    split
    · split
      · exact min_le_min_right _ hab
      · exact (min_le_left _ _).trans hab
    · rw [if_neg fun hb => ‹¬ a ≤ _› (hab.trans hb)]
      exact hab
  natural n hn := by
    have hcast : (n : ℚ) ≤ 2 ^ 53 := by exact_mod_cast hn
    rw [if_pos (by linarith), min_eq_left hcast]
  tie := by norm_num

def PyNum.toRat : PyNum → ℚ
  | .int n => n
  | .float (.finite q) => q
  | .float _ => 0

/-- Exact means and differences. -/
def exactReports : ReportLib where
  toFloatRounding := coarseRounding
  floatOf _ := .finite 0
  minus a b := some (.float (.finite (a.toRat - b.toRat)))
  fmean values := some (.finite ((values.map PyNum.toRat).sum / values.length))

/-- The record of a word with this identity. -/
def reviewOf (wordId : Int) : WordReviewRecord where
  wordId := wordId
  word := "Haus"
  activityType := "srs_review"
  stabilityBefore := some (.int 2)
  stabilityAfter := some (.int 5)
  priorReviewDate := none
  grade := some 3
  intervalDays := none
  nextReviewDate := some "2026-01-05"
  difficulty := none

theorem report_reopens_one :
    (exactReports.buildReport [reviewOf 7]).bind exactReports.reopen =
        exactReports.buildReport [reviewOf 7] ∧
      ∀ report, exactReports.buildReport [reviewOf 7] = some report → report.WellFormed :=
  report_reopens fun r hr => by
    obtain rfl := List.mem_singleton.mp hr
    refine ⟨by decide +kernel, fun n hn => ?_, fun n hn => ?_⟩
    · obtain rfl := Option.some.inj hn
      decide +kernel
    · simp only [reviewOf, List.mem_cons, Option.some.injEq, ReportNumber.int.injEq, reduceCtorEq,
        List.not_mem_nil, or_false] at hn
      rcases hn with rfl | rfl <;> decide +kernel

/-- An identity of 4301 digits. -/
theorem huge_identity : (exactReports.buildReport [reviewOf (10 ^ 4300)]).isSome = true ∧
    (exactReports.buildReport [reviewOf (10 ^ 4300)]).bind exactReports.reopen ≠
      exactReports.buildReport [reviewOf (10 ^ 4300)] := by
  have hlong : ¬ ShortInt (10 ^ 4300) := by decide +kernel
  obtain ⟨report, hbuild⟩ : ∃ report, exactReports.buildReport [reviewOf (10 ^ 4300)] = some report :=
    ⟨_, rfl⟩
  have hrows := (buildReport_eq_some hbuild).1
  have hserial : serializeReport report = none := by
    rw [← Option.not_isSome_iff_eq_none, serializeReport_isSome, hrows]
    exact fun h => hlong (h _ List.mem_cons_self).wordId
  rw [hbuild, Option.bind_some, ReportLib.reopen, hserial]
  exact ⟨rfl, nofun⟩

end HamZaboon
