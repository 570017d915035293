import HamZaboon.Lexicon.SampleExits

/-! # Filled and even reservoirs

Of each level, an uninterrupted `sample` returns the rows of the pilot and as many
accepted lines as the quota and the index let it, each accepted line of the level with
the same odds.  The part of speech of a row is empty where that of the line is no
text, but the line was known by it: so two rows can have one lemma key.  And a record
that cannot be read for a reason that `sample` does not catch ends the run
(`reservoir_fills_iff`). -/

namespace HamZaboon
open Library

/-- The sampling with another generator. -/
def SampleLib.withDraws {R S : Type} (lib : SampleLib R) (draw : S → Nat → Nat × S) : SampleLib S where
  toRegistryLib := lib.toRegistryLib
  loads := lib.loads
  display := lib.display
  intOfStr := lib.intOfStr
  isDigit := lib.isDigit
  isAlpha := lib.isAlpha
  zipf := lib.zipf
  sieve := lib.sieve
  randrange := draw

/-- The same run with another generator. -/
def SampleJob.withDraws {R S : Type} (job : SampleJob R) (draw : S → Nat → Nat × S) (rng : S) :
    SampleJob S where
  lib := job.lib.withDraws draw
  pack := job.pack
  quotas := job.quotas
  rng := rng
  pilot := job.pilot
  batch := job.batch
  lines := job.lines
  batch_pos := job.batch_pos

/-- What is offered to the reservoirs, with the number of each accepted line. -/
def numbered (cs : List Candidate) : List (CefrLevel × Candidate × Nat) :=
  cs.zipIdx.map fun x => (x.1.level, x)

namespace SampleJob
variable {R : Type} (job : SampleJob R)

def accepted (pilot : List String) : List Candidate := job.candidates pilot job.lines

/-- The reservoirs that the accepted lines fill, with the lines instead of their records. -/
def filled (pilot : List String) : Reservoirs CefrLevel (Candidate × Nat) R :=
  Reservoirs.run job.cap job.lib.randrange ⟨fun _ => 0, fun _ => [], job.rng⟩
    (numbered (job.accepted pilot))

/-- The accepted lines that have a place at the end, with their numbers. -/
def heldLines (pilot : List String) : CefrLevel → List (Candidate × Nat) := (job.filled pilot).held

/-- Whether an accepted line is among the rows of its level. -/
def isHeld (pilot : List String) (level : CefrLevel) (i : Nat) : Bool :=
  i ∈ (job.heldLines pilot level).map (·.2)

def tallyAfter (pilot : List String) (n : Nat) : Option (SampleTally R) :=
  (job.scan (job.lines.take n) (pilot, job.emptyTally) 0 0).2.map (·.2)

/-! ## What is claimed of a run -/

/-- Of each level, the rows are those of the pilot and as many as its quota and the
accepted lines let it have. -/
def RowsFilled (out : SampleResult R) : Prop :=
  ∃ further, out.rows.Perm (job.pilot ++ further) ∧
    ∀ level, (further.countP fun row => row.2.2 = level) =
      min (job.quotas level - job.pilotCount level) (out.seen level)

/-- Each line that is not blank moves one counter by one. -/
def LinesCounted (pilot : List String) (out : SampleResult R) : Prop :=
  (∀ e, job.emptyTally.count e = 0) ∧
    (∀ n line, job.lines[n]? = some line → ∃ t t', job.tallyAfter pilot n = some t ∧
      job.tallyAfter pilot (n + 1) = some t' ∧
        if job.lib.isBlankLine line then ∀ e, t'.count e = t.count e
        else ∃ exit ≠ .blank, ∀ e, t'.count e = t.count e + if e = exit then 1 else 0) ∧
      ∃ t, job.tallyAfter pilot job.lines.length = some t ∧
        ∀ e, exitCount out.seen out.counters e = t.count e

/-- The run returns, its rows are filled, no lemma key is there twice, and each line is
counted once. -/
def Fills (pilot : List String) : Prop :=
  ∃ out, (job.session none).2 = some out ∧ job.RowsFilled out ∧
    (out.rows.map job.lemmaKeyOf).Nodup ∧ job.LinesCounted pilot out

/-- The generator is asked for the same draws whatever it gives, and over all their
outcomes each accepted line of a level is as often among its rows as any other. -/
def EvenOdds (pilot : List String) : Prop :=
  ∃ bounds,
    (∀ (S : Type) (draw : S → Nat → Nat × S) (rng : S), ∃ out,
      ((job.withDraws (Reservoirs.logged draw) (rng, [])).session none).2 = some out ∧
        out.rng.2 = bounds) ∧
    (∀ picks, ∃ out, ((job.withDraws Reservoirs.tape picks).session none).2 = some out ∧
      out.reservoirs = (CefrLevel.order.flatMap
        ((job.withDraws Reservoirs.tape picks).heldLines pilot)).map fun x => x.1.record) ∧
    ∀ (i j : Nat) (c d : Candidate), (job.accepted pilot)[i]? = some c →
      (job.accepted pilot)[j]? = some d → c.level = d.level →
        ((outcomes bounds).countP fun picks =>
          (job.withDraws Reservoirs.tape picks).isHeld pilot c.level i) =
        (outcomes bounds).countP fun picks =>
          (job.withDraws Reservoirs.tape picks).isHeld pilot d.level j

/-! ## When it holds -/

/-- The caps admit a row of each of the levels. -/
def Fit (a b : CefrLevel) : Prop := 0 < job.cap a ∧ 0 < job.cap b ∧ (a = b → 2 ≤ job.cap a)

/-- No line ends the run, and the row of an accepted line with an odd part of speech has
the lemma key of no row of the pilot, and of no accepted line that fits beside it. -/
structure KeysApart (pilot : List String) : Prop where
  read : none ∉ job.exits pilot job.lines
  pilot_apart : ∀ c ∈ job.accepted pilot, c.entry.oddPos = true →
    0 < job.cap c.level → ∀ key ∈ pilot, job.lemmaKeyOf c.row ≠ some key
  lines_apart : ∀ (i j : Nat) (c d : Candidate), (job.accepted pilot)[i]? = some c →
    (job.accepted pilot)[j]? = some d → i ≠ j → c.entry.oddPos = true →
      job.Fit c.level d.level → job.lemmaKeyOf c.row ≠ job.lemmaKeyOf d.row

/-! ## Another generator -/

variable {job}
variable {S : Type} {draw : S → Nat → Nat × S} {rng : S}

theorem readLine_withDraws (line : String) :
    (job.withDraws draw rng).lib.readLine line = job.lib.readLine line := rfl

theorem entryExit_withDraws (e : IndexEntry) :
    (job.withDraws draw rng).entryExit e = job.entryExit e := rfl

theorem learn_withDraws (known : List String) (line : String) :
    (job.withDraws draw rng).learn known line = job.learn known line := by
  simp only [learn, readLine_withDraws]

theorem exits_withDraws (known lines : List String) :
    (job.withDraws draw rng).exits known lines = job.exits known lines := by
  induction lines generalizing known with
  | nil => rfl
  | cons line lines ih =>
    simp only [exits, lineExit, readLine_withDraws, entryExit_withDraws, learn_withDraws, ih]

theorem candidates_withDraws (known lines : List String) :
    (job.withDraws draw rng).candidates known lines = job.candidates known lines := by
  induction lines generalizing known with
  | nil => rfl
  | cons line lines ih =>
    simp only [candidates, accepts, readLine_withDraws, entryExit_withDraws, learn_withDraws, ih]

theorem accepted_withDraws (pilot : List String) :
    (job.withDraws draw rng).accepted pilot = job.accepted pilot :=
  candidates_withDraws pilot job.lines

theorem filled_withDraws (pilot : List String) :
    (job.withDraws draw rng).filled pilot =
      Reservoirs.run job.cap draw ⟨fun _ => 0, fun _ => [], rng⟩
        (numbered (job.accepted pilot)) := by
  rw [filled, accepted_withDraws]
  rfl

/-! ## Each line is counted once -/

theorem entryExit_ne_blank (e : IndexEntry) : job.entryExit e ≠ some .blank := by
  have hword : job.wordExit e ≠ some .blank := by
    unfold wordExit
    split
    · exact fun h => LineExit.noConfusion (Option.some.inj h)
    · intro h
      obtain ⟨keep, -, hkeep⟩ := Option.map_eq_some_iff.mp h
      cases keep <;> cases hkeep
  unfold entryExit
  split
  · exact fun h => LineExit.noConfusion (Option.some.inj h)
  · exact hword
  · split
    · exact hword
    · exact fun h => LineExit.noConfusion (Option.some.inj h)

theorem exit_eq_blank_iff {known : List String} {line : String} {exit : LineExit}
    (h : job.lineExit known line = some exit) :
    exit = .blank ↔ job.lib.isBlankLine line = true := by
  by_cases hblank : job.lib.isBlankLine line = true
  · have hread : job.lib.readLine line = .blank := if_pos hblank
    rw [lineExit, hread] at h
    exact iff_of_true (Option.some.inj h).symm hblank
  · refine iff_of_false ?_ hblank
    rintro rfl
    have hread : job.lib.readLine line ≠ .blank := by
      unfold SampleLib.readLine
      rw [if_neg hblank]
      split
      · exact fun hcon => IndexLine.noConfusion hcon
      · split
        · split <;> exact fun hcon => IndexLine.noConfusion hcon
        · exact fun hcon => IndexLine.noConfusion hcon
    unfold lineExit at h
    split at h
    · rename_i hline
      exact hread hline
    · cases h
    · split at h
      · cases h
      · exact entryExit_ne_blank _ h

theorem tallyAfter_eq (pilot : List String) (n : Nat) :
    job.tallyAfter pilot n =
      (job.dedup.run (pilot, job.emptyTally) (job.lines.take n)).map (·.2) := by
  rw [tallyAfter, scan_result]

theorem linesCounted {pilot : List String} {final : List String × SampleTally R}
    {out : SampleResult R}
    (hrun : job.dedup.run (pilot, job.emptyTally) job.lines = some final)
    (hresult : job.result final.2 = some out) : job.LinesCounted pilot out := by
  refine ⟨fun e => by cases e <;> rfl, fun n line hline => ?_, final.2, ?_, fun e => ?_⟩
  · -- the run stops after `n` lines, and takes one step from there
    obtain ⟨x, hx⟩ := DedupScan.run_take hrun n
    obtain ⟨y, hy, hnext⟩ := DedupScan.step_of_run_take hrun hline hx
    obtain ⟨hraise, hmoves⟩ := visit_moves job x.1 x.2 line
    cases hexit : job.lineExit x.1 line with
    | none => exact absurd (hy.symm.trans (hraise hexit)) (Option.some_ne_none y)
    | some exit =>
      obtain ⟨t', hstep, hmoves⟩ := hmoves exit hexit
      obtain rfl : y = (job.learn x.1 line, t') := Option.some.inj (hy.symm.trans hstep)
      refine ⟨x.2, t', by rw [tallyAfter_eq, hx]; rfl, by rw [tallyAfter_eq, hnext]; rfl, ?_⟩
      have hblank := exit_eq_blank_iff hexit
      split
      · rename_i hline
        intro e
        rw [hmoves.counts e, hblank.mpr hline, if_neg fun h => h.2 h.1, Nat.add_zero]
      · rename_i hline
        have hne : exit ≠ .blank := fun h => hline (hblank.mp h)
        refine ⟨exit, hne, fun e => ?_⟩
        rw [hmoves.counts e]
        by_cases he : e = exit
        · rw [if_pos he, if_pos ⟨he, he ▸ hne⟩]
        · rw [if_neg he, if_neg fun h => he h.1]
  · rw [tallyAfter_eq, List.take_length, hrun]
    rfl
  · rw [(result_eq_some hresult).1, (result_eq_some hresult).2]
    rfl

/-! ## The lines that are held -/

variable {pilot : List String}

omit job in
theorem offered_eq (cs : List Candidate) :
    offered cs = (numbered cs).map fun y => (y.1, y.2.1.record) := by
  show cs.map (fun c => (c.level, c.record)) =
    (cs.zipIdx.map fun x => (x.1.level, x)).map fun y => (y.1, y.2.1.record)
  rw [List.map_map]
  conv_lhs => rw [← List.zipIdx_map_fst 0 cs, List.map_map]
  rfl

omit job in
theorem mem_numbered {cs : List Candidate} {level : CefrLevel} {x : Candidate × Nat} :
    (level, x) ∈ numbered cs ↔ cs[x.2]? = some x.1 ∧ x.1.level = level := by
  unfold numbered
  rw [List.mem_map]
  constructor
  · rintro ⟨y, hy, heq⟩
    obtain ⟨hlevel, rfl⟩ := Prod.mk.inj heq
    exact ⟨List.mem_zipIdx_iff_getElem?.mp hy, hlevel⟩
  · rintro ⟨hget, rfl⟩
    exact ⟨x, List.mem_zipIdx_iff_getElem?.mpr hget, rfl⟩

omit job in
theorem nodup_numbers (cs : List Candidate) : ((numbered cs).map fun y => y.2.2).Nodup := by
  have heq : (numbered cs).map (fun y => y.2.2) = cs.zipIdx.map (·.2) := by
    unfold numbered
    rw [List.map_map]
    rfl
  rw [heq, List.zipIdx_map_snd]
  exact List.nodup_range'

theorem run_offered (pilot : List String) :
    Reservoirs.run job.cap job.lib.randrange job.emptyTally.core
        (offered (job.accepted pilot)) =
      (job.filled pilot).map fun x => x.1.record := by
  rw [offered_eq, filled, ← Reservoirs.run_map job.cap job.lib.randrange]
  rfl

theorem mem_heldLines {level : CefrLevel} {x : Candidate × Nat}
    (h : x ∈ job.heldLines pilot level) :
    (job.accepted pilot)[x.2]? = some x.1 ∧ x.1.level = level :=
  mem_numbered.mp ((Reservoirs.mem_run h).resolve_left List.not_mem_nil)

theorem nodup_heldLines (pilot : List String) :
    (CefrLevel.order.flatMap (job.heldLines pilot)).Nodup := by
  have hnumbers := nodup_numbers (job.accepted pilot)
  have hitems : ((numbered (job.accepted pilot)).map (·.2)).Nodup := by
    refine List.Nodup.of_map (·.2) ?_
    rw [List.map_map]
    exact hnumbers
  refine List.nodup_flatMap.mpr ⟨fun level _ =>
    Reservoirs.nodup_run (Reservoirs.distinct_empty hitems) level, ?_⟩
  have horder : CefrLevel.order.Nodup := by decide
  refine horder.imp fun {a b} hab x hxa hxb => hab ?_
  exact (mem_heldLines hxa).2.symm.trans (mem_heldLines hxb).2

variable (job) in
theorem length_heldLines (pilot : List String) (level : CefrLevel) :
    (job.heldLines pilot level).length = min (job.cap level) ((job.filled pilot).seen level) :=
  Reservoirs.filled_run (s := ⟨fun _ => 0, fun _ => [], job.rng⟩) (Reservoirs.filled_empty job.cap) _ level

theorem fit_of_held {a b : CefrLevel} {x y : Candidate × Nat} (hx : x ∈ job.heldLines pilot a)
    (hy : y ∈ job.heldLines pilot b) (hne : x ≠ y) : job.Fit a b := by
  have hxs := List.length_pos_of_mem hx
  have hys := List.length_pos_of_mem hy
  have ha := length_heldLines job pilot a
  have hb := length_heldLines job pilot b
  refine ⟨by omega, by omega, ?_⟩
  rintro rfl
  have htwo : 1 < (job.heldLines pilot a).length := by
    by_contra hle
    obtain ⟨z, hz⟩ := List.length_eq_one_iff.mp (by omega : (job.heldLines pilot a).length = 1)
    rw [hz, List.mem_singleton] at hx hy
    exact hne (hx.trans hy.symm)
  omega

/-! ## The rows -/

variable (job) in
theorem session_straight (hpilot : job.pilotKeys = some pilot) (hover : job.overfull = false) :
    (job.session none).2 =
      (job.dedup.run (pilot, job.emptyTally) job.lines).bind fun y => job.result y.2 := by
  rw [session_eq hpilot hover]
  show ((job.scan job.lines (pilot, job.emptyTally) 0 0).2.bind fun y => job.result y.2) = _
  rw [scan_result]

theorem sortedRows_perm {t : SampleTally R} {rows : List (String × String × CefrLevel)}
    (h : job.sortedRows t = some rows) :
    rows.Perm (job.pilot ++
      (CefrLevel.order.flatMap t.reservoirs).map fun r => (r.word, r.pos, r.level)) := by
  obtain ⟨keyed, hkeyed, rfl⟩ := Option.map_eq_some_iff.mp h
  have hrows : ∀ (source : List (String × String × CefrLevel)) keyed,
      (source.mapM fun row => (job.rowKey row).map fun key => (key, row)) = some keyed →
        keyed.map (·.2) = source := by
    intro source keyed hkeyed
    have hall := forall₂_of_mapM hkeyed
    clear hkeyed
    induction hall with
    | nil => rfl
    | cons hrow _ ih =>
      obtain ⟨key, -, rfl⟩ := Option.map_eq_some_iff.mp hrow
      rw [List.map_cons, ih]
  rw [← hrows _ keyed hkeyed]
  exact (List.perm_insertionSort _ keyed).map _

theorem sortedRows_isSome {t : SampleTally R}
    (h : ∀ row ∈ job.pilot ++
      (CefrLevel.order.flatMap t.reservoirs).map fun r => (r.word, r.pos, r.level),
        (job.lemmaKeyOf row).isSome) : ∃ rows, job.sortedRows t = some rows := by
  unfold sortedRows
  obtain ⟨keyed, hkeyed⟩ := exists_mapM (f := fun row => (job.rowKey row).map fun key => (key, row))
    fun row hrow => by
      have hkey := h row hrow
      rw [lemmaKeyOf, Option.isSome_map] at hkey
      rw [Option.isSome_map]
      exact hkey
  dsimp only
  rw [hkeyed]
  exact ⟨_, rfl⟩

theorem core_of_run {final : List String × SampleTally R}
    (hrun : job.dedup.run (pilot, job.emptyTally) job.lines = some final) :
    final.2.core = (job.filled pilot).map fun x => x.1.record := by
  obtain ⟨hraise, hend⟩ := run_core job job.lines pilot job.emptyTally
  have hread : none ∉ job.exits pilot job.lines := by
    intro hmem
    rw [hraise hmem] at hrun
    cases hrun
  obtain ⟨y, hy, hcore⟩ := hend hread
  obtain rfl : final = y := Option.some.inj (hrun.symm.trans hy)
  exact hcore.trans (run_offered pilot)

theorem reservoirs_of_run {final : List String × SampleTally R}
    (hrun : job.dedup.run (pilot, job.emptyTally) job.lines = some final) (level : CefrLevel) :
    final.2.reservoirs level = (job.heldLines pilot level).map fun x => x.1.record :=
  congrFun (congrArg Reservoirs.held (core_of_run hrun)) level

theorem allRecords_of_run {final : List String × SampleTally R}
    (hrun : job.dedup.run (pilot, job.emptyTally) job.lines = some final) :
    CefrLevel.order.flatMap final.2.reservoirs =
      (CefrLevel.order.flatMap (job.heldLines pilot)).map fun x => x.1.record := by
  rw [List.map_flatMap]
  exact congrArg (CefrLevel.order.flatMap ·) (funext (reservoirs_of_run hrun))

theorem pilot_lemmaKeys (hpilot : job.pilotKeys = some pilot) :
    job.pilot.map job.lemmaKeyOf = pilot.map some := by
  have hall := forall₂_of_mapM hpilot
  clear hpilot
  generalize job.pilot = rows at hall
  induction hall with
  | nil => rfl
  | @cons row key rows keys hkey _ ih =>
    obtain ⟨word, pos, level⟩ := row
    have hok : job.lib.lemmaKeyFor (some word) (some pos) = .ok key := by
      cases hfor : job.lib.lemmaKeyFor (some word) (some pos) with
      | error err =>
        rw [hfor] at hkey
        cases hkey
      | ok key' =>
        rw [hfor] at hkey
        rw [Option.some.inj hkey]
    have hne : pos ≠ "" := by
      rintro rfl
      rw [lemmaKeyFor_empty] at hkey
      cases hkey
    rw [List.map_cons, List.map_cons, ih, lemmaKeyOf_text level hne hok]

theorem rows_perm {final : List String × SampleTally R} {out : SampleResult R}
    (hrun : job.dedup.run (pilot, job.emptyTally) job.lines = some final)
    (hresult : job.result final.2 = some out) :
    out.rows.Perm (job.pilot ++
      (CefrLevel.order.flatMap (job.heldLines pilot)).map fun x => x.1.row) := by
  obtain ⟨rows, hrows, rfl⟩ := Option.map_eq_some_iff.mp hresult
  have hperm := sortedRows_perm hrows
  rw [allRecords_of_run hrun, List.map_map] at hperm
  exact hperm

theorem keys_perm (hpilot : job.pilotKeys = some pilot) {final : List String × SampleTally R}
    {out : SampleResult R}
    (hrun : job.dedup.run (pilot, job.emptyTally) job.lines = some final)
    (hresult : job.result final.2 = some out) :
    (out.rows.map job.lemmaKeyOf).Perm (pilot.map some ++
      (CefrLevel.order.flatMap (job.heldLines pilot)).map fun x => job.lemmaKeyOf x.1.row) := by
  have hperm := (rows_perm hrun hresult).map job.lemmaKeyOf
  rw [List.map_append, List.map_map, pilot_lemmaKeys hpilot] at hperm
  exact hperm

variable (job) in
theorem straight_returns (hpilot : job.pilotKeys = some pilot)
    (hread : none ∉ job.exits pilot job.lines) :
    ∃ final out, job.dedup.run (pilot, job.emptyTally) job.lines = some final ∧
      job.result final.2 = some out := by
  obtain ⟨final, hrun, -⟩ := (run_core job job.lines pilot job.emptyTally).2 hread
  have hkeys : ∀ row ∈ job.pilot ++
      (CefrLevel.order.flatMap final.2.reservoirs).map fun r => (r.word, r.pos, r.level),
        (job.lemmaKeyOf row).isSome := by
    intro row hrow
    rcases List.mem_append.mp hrow with hrow | hrow
    · have hmem : job.lemmaKeyOf row ∈ pilot.map some := by
        rw [← pilot_lemmaKeys hpilot]
        exact List.mem_map_of_mem hrow
      obtain ⟨key, -, hkey⟩ := List.mem_map.mp hmem
      rw [← hkey]
      rfl
    · rw [allRecords_of_run hrun, List.map_map] at hrow
      obtain ⟨x, hx, rfl⟩ := List.mem_map.mp hrow
      obtain ⟨level, -, hx⟩ := List.mem_flatMap.mp hx
      exact (lemmaKeyOf_candidate (List.mem_of_getElem? (mem_heldLines hx).1)).1
  obtain ⟨rows, hrows⟩ := sortedRows_isSome hkeys
  exact ⟨final, _, hrun, by rw [result, hrows]; rfl⟩

theorem rowsFilled {final : List String × SampleTally R} {out : SampleResult R}
    (hrun : job.dedup.run (pilot, job.emptyTally) job.lines = some final)
    (hresult : job.result final.2 = some out) : job.RowsFilled out := by
  refine ⟨_, rows_perm hrun hresult, fun level => ?_⟩
  have hseen := congrFun (congrArg Reservoirs.seen (core_of_run hrun)) level
  have hlevels : ∀ other, (((job.heldLines pilot other).map fun x => x.1.row).countP
      fun row => row.2.2 = level) = if other = level then (job.heldLines pilot level).length
        else 0 := by
    intro other
    rw [List.countP_map]
    split
    · rename_i heq
      subst heq
      exact List.countP_eq_length.mpr fun x hx => decide_eq_true (mem_heldLines hx).2
    · rename_i hne
      exact List.countP_eq_zero.mpr fun x hx hlevel =>
        hne ((mem_heldLines hx).2.symm.trans (of_decide_eq_true hlevel))
  have hcount : (((CefrLevel.order.flatMap (job.heldLines pilot)).map fun x => x.1.row).countP
      fun row => row.2.2 = level) = (job.heldLines pilot level).length := by
    rw [List.map_flatMap, List.countP_flatMap]
    show (CefrLevel.order.map fun other => ((job.heldLines pilot other).map fun x => x.1.row).countP
      fun row => row.2.2 = level).sum = _
    rw [List.map_congr_left fun other _ => hlevels other]
    cases level <;> simp [CefrLevel.order]
  rw [hcount, length_heldLines job, (result_eq_some hresult).1]
  exact congrArg (min (job.cap level)) hseen.symm

/-! ## No key twice -/

theorem Fit.symm {a b : CefrLevel} (h : job.Fit a b) : job.Fit b a :=
  ⟨h.2.1, h.1, fun heq => heq ▸ h.2.2 heq.symm⟩

theorem eq_of_keys (hapart : job.KeysApart pilot) {a b : CefrLevel} {x y : Candidate × Nat}
    (hx : x ∈ job.heldLines pilot a) (hy : y ∈ job.heldLines pilot b)
    (hkeys : job.lemmaKeyOf x.1.row = job.lemmaKeyOf y.1.row) : x = y := by
  by_contra hne
  obtain ⟨hxget, hxlevel⟩ := mem_heldLines hx
  obtain ⟨hyget, hylevel⟩ := mem_heldLines hy
  have hnumber : x.2 ≠ y.2 := by
    intro heq
    rw [heq, hyget] at hxget
    exact hne (Prod.ext (Option.some.inj hxget).symm heq)
  have hfit : job.Fit x.1.level y.1.level := by
    rw [hxlevel, hylevel]
    exact fit_of_held hx hy hne
  cases hxodd : x.1.entry.oddPos with
  | true => exact hapart.lines_apart _ _ _ _ hxget hyget hnumber hxodd hfit hkeys
  | false =>
    cases hyodd : y.1.entry.oddPos with
    | true => exact hapart.lines_apart _ _ _ _ hyget hxget hnumber.symm hyodd hfit.symm hkeys.symm
    | false =>
      -- the rows have the keys of their lines
      rw [(lemmaKeyOf_candidate (List.mem_of_getElem? hxget)).2 hxodd,
        (lemmaKeyOf_candidate (List.mem_of_getElem? hyget)).2 hyodd] at hkeys
      obtain ⟨hlt, -⟩ := List.getElem?_eq_some_iff.mp hxget
      have hmap : ((job.accepted pilot).map fun c => c.entry.key)[x.2]? =
          ((job.accepted pilot).map fun c => c.entry.key)[y.2]? := by
        rw [List.getElem?_map, List.getElem?_map, hxget, hyget]
        exact hkeys
      refine hnumber ((List.getElem?_inj ?_ (nodup_keys job.lines pilot)).mp hmap)
      rw [List.length_map]
      exact hlt

theorem key_not_mem_pilot (hapart : job.KeysApart pilot) {level : CefrLevel}
    {x : Candidate × Nat} (hx : x ∈ job.heldLines pilot level) :
    job.lemmaKeyOf x.1.row ∉ pilot.map some := by
  obtain ⟨hget, hlevel⟩ := mem_heldLines hx
  have hmem := List.mem_of_getElem? hget
  intro hkey
  obtain ⟨key, hpilot, hkey⟩ := List.mem_map.mp hkey
  cases hodd : x.1.entry.oddPos with
  | true =>
    have hlength := length_heldLines job pilot level
    have hpos := List.length_pos_of_mem hx
    refine hapart.pilot_apart x.1 hmem hodd ?_ key hpilot hkey.symm
    rw [hlevel]
    omega
  | false =>
    rw [(lemmaKeyOf_candidate hmem).2 hodd] at hkey
    exact (mem_candidates hmem).1 (Option.some.inj hkey ▸ hpilot)

theorem nodup_rowKeys (hdistinct : pilot.Nodup) (hapart : job.KeysApart pilot) :
    (pilot.map some ++ (CefrLevel.order.flatMap (job.heldLines pilot)).map fun x =>
      job.lemmaKeyOf x.1.row).Nodup := by
  refine List.Nodup.append (hdistinct.map (Option.some_injective _)) ?_ ?_
  · refine List.Nodup.map_on (fun x hx y hy hkeys => ?_) (nodup_heldLines pilot)
    obtain ⟨a, -, hx⟩ := List.mem_flatMap.mp hx
    obtain ⟨b, -, hy⟩ := List.mem_flatMap.mp hy
    exact eq_of_keys hapart hx hy hkeys
  · intro key hpilot hheld
    obtain ⟨x, hx, rfl⟩ := List.mem_map.mp hheld
    obtain ⟨level, -, hx⟩ := List.mem_flatMap.mp hx
    exact key_not_mem_pilot hapart hx hpilot

variable (job) in
theorem fills_of_apart (hpilot : job.pilotKeys = some pilot) (hdistinct : pilot.Nodup)
    (hover : job.overfull = false) (hapart : job.KeysApart pilot) : job.Fills pilot := by
  obtain ⟨final, out, hrun, hresult⟩ := straight_returns job hpilot hapart.read
  refine ⟨out, ?_, rowsFilled hrun hresult, ?_, linesCounted hrun hresult⟩
  · rw [session_straight job hpilot hover, hrun]
    exact hresult
  · exact (keys_perm hpilot hrun hresult).nodup_iff.mpr (nodup_rowKeys hdistinct hapart)

theorem keysApart_withDraws (h : job.KeysApart pilot) : (job.withDraws draw rng).KeysApart pilot where
  read := by
    rw [exits_withDraws]
    exact h.read
  pilot_apart := by
    rw [accepted_withDraws]
    exact h.pilot_apart
  lines_apart := by
    rw [accepted_withDraws]
    exact h.lines_apart

/-! ## The odds -/

theorem numbers_held (picks : List Nat) (level : CefrLevel) :
    ((job.withDraws Reservoirs.tape picks).heldLines pilot level).map (·.2) =
      Reservoirs.heldAfter job.cap (fun _ => 0) (fun _ => [])
        ((numbered (job.accepted pilot)).map fun y => (y.1, y.2.2)) picks level := by
  rw [heldLines, filled_withDraws]
  have hmap := Reservoirs.run_map job.cap Reservoirs.tape (fun x => x.2)
    (⟨fun _ => 0, fun _ => [], picks⟩ : Reservoirs CefrLevel (Candidate × Nat) (List Nat))
    (numbered (job.accepted pilot))
  exact (congrFun (congrArg Reservoirs.held hmap) level).symm

theorem evenOdds_of_read (hpilot : job.pilotKeys = some pilot) (hover : job.overfull = false)
    (hread : none ∉ job.exits pilot job.lines) : job.EvenOdds pilot := by
  have hreturns : ∀ (S : Type) (draw : S → Nat → Nat × S) (rng : S), ∃ final out,
      (job.withDraws draw rng).dedup.run (pilot, (job.withDraws draw rng).emptyTally) job.lines =
        some final ∧ ((job.withDraws draw rng).session none).2 = some out ∧
          (job.withDraws draw rng).result final.2 = some out := by
    intro S draw rng
    have hread' : none ∉ (job.withDraws draw rng).exits pilot job.lines := by
      rw [exits_withDraws]
      exact hread
    obtain ⟨final, out, hrun, hresult⟩ :=
      straight_returns (job.withDraws draw rng) hpilot hread'
    refine ⟨final, out, hrun, ?_, hresult⟩
    rw [session_straight (job.withDraws draw rng) hpilot hover]
    exact (congrArg (Option.bind · _) hrun).trans hresult
  refine ⟨Reservoirs.bounds job.cap (fun _ => 0) (numbered (job.accepted pilot)),
    fun S draw rng => ?_, fun picks => ?_, fun i j c d hi hj hlevel => ?_⟩
  · obtain ⟨final, out, hrun, hout, hresult⟩ := hreturns _ (Reservoirs.logged draw) (rng, [])
    refine ⟨out, hout, ?_⟩
    obtain ⟨rows, -, rfl⟩ := Option.map_eq_some_iff.mp hresult
    have hrng := congrArg Reservoirs.rng (core_of_run hrun)
    rw [filled_withDraws] at hrng
    show final.2.rng.2 = _
    have hlogged := Reservoirs.run_logged job.cap draw
      (s := ⟨fun _ => 0, fun _ => [], (rng, [])⟩) (Reservoirs.filled_empty job.cap)
      (numbered (job.accepted pilot))
    exact (congrArg Prod.snd hrng).trans hlogged
  · obtain ⟨final, out, hrun, hout, hresult⟩ := hreturns _ Reservoirs.tape picks
    refine ⟨out, hout, ?_⟩
    obtain ⟨rows, -, rfl⟩ := Option.map_eq_some_iff.mp hresult
    exact allRecords_of_run hrun
  · have hnodup : (((numbered (job.accepted pilot)).map
        fun y => (y.1, y.2.2)).map (·.2)).Nodup := by
      rw [List.map_map]
      exact nodup_numbers _
    have hmem : ∀ {k : Nat} {e : Candidate}, (job.accepted pilot)[k]? = some e →
        (e.level, k) ∈ (numbered (job.accepted pilot)).map fun y => (y.1, y.2.2) :=
      fun {k e} hk => List.mem_map.mpr ⟨(e.level, e, k), mem_numbered.mpr ⟨hk, rfl⟩, rfl⟩
    have hways := Reservoirs.ways_uniform job.cap hnodup (hlevel ▸ hmem hi) (hmem hj)
    have hbounds : Reservoirs.bounds job.cap (fun _ => 0)
        ((numbered (job.accepted pilot)).map fun y => (y.1, y.2.2)) =
          Reservoirs.bounds job.cap (fun _ => 0) (numbered (job.accepted pilot)) :=
      Reservoirs.bounds_map _ _ _
    unfold Reservoirs.ways at hways
    rw [hbounds] at hways
    unfold isHeld
    rw [hlevel]
    simp only [numbers_held]
    exact hways

/-! ## Rows of one key -/

variable (job) in
theorem exists_draws {wanted : List (CefrLevel × Nat)}
    (hroom : ∀ level, (wanted.countP fun w => w.1 = level) ≤ job.cap level)
    (hwanted : ∀ w ∈ wanted, ∃ c, (job.accepted pilot)[w.2]? = some c ∧ c.level = w.1) :
    ∃ picks : List Nat, ∀ w ∈ wanted, ∃ x ∈ CefrLevel.order.flatMap
      ((job.withDraws Reservoirs.tape picks).heldLines pilot), x.2 = w.2 := by
  have hitems : (((numbered (job.accepted pilot)).map
      fun y => (y.1, y.2.2)).map (·.2)).Nodup := by
    rw [List.map_map]
    exact nodup_numbers _
  obtain ⟨picks, -, hall⟩ := Reservoirs.held_together job.cap (Reservoirs.filled_empty job.cap)
    (Reservoirs.distinct_empty hitems) hroom fun w hw => by
      obtain ⟨c, hc, hlevel⟩ := hwanted w hw
      refine Or.inr (List.mem_map.mpr ⟨(w.1, c, w.2), mem_numbered.mpr ⟨hc, hlevel⟩, rfl⟩)
  refine ⟨picks, fun w hw => ?_⟩
  have hheld := hall w hw
  rw [← numbers_held] at hheld
  obtain ⟨x, hx, hnumber⟩ := List.mem_map.mp hheld
  exact ⟨x, List.mem_flatMap.mpr ⟨w.1, CefrLevel.mem_order w.1, hx⟩, hnumber⟩

variable (job) in
theorem nodup_of_fills (hpilot : job.pilotKeys = some pilot) (hover : job.overfull = false)
    (h : job.Fills pilot) :
    none ∉ job.exits pilot job.lines ∧
      (pilot.map some ++ (CefrLevel.order.flatMap (job.heldLines pilot)).map fun x =>
        job.lemmaKeyOf x.1.row).Nodup := by
  obtain ⟨out, hout, -, hkeys, -⟩ := h
  rw [session_straight job hpilot hover] at hout
  obtain ⟨final, hrun, hresult⟩ := Option.bind_eq_some_iff.mp hout
  refine ⟨fun hmem => ?_, (keys_perm hpilot hrun hresult).nodup_iff.mp hkeys⟩
  rw [(run_core job job.lines pilot job.emptyTally).1 hmem] at hrun
  cases hrun

theorem eq_of_held {picks : List Nat} {x : Candidate × Nat} {i : Nat} {c : Candidate}
    (hx : x ∈ CefrLevel.order.flatMap ((job.withDraws Reservoirs.tape picks).heldLines pilot))
    (hnumber : x.2 = i) (hc : (job.accepted pilot)[i]? = some c) : x = (c, i) := by
  obtain ⟨level, -, hx⟩ := List.mem_flatMap.mp hx
  have hget := (mem_heldLines hx).1
  rw [accepted_withDraws] at hget
  subst hnumber
  exact Prod.ext (Option.some.inj (hget.symm.trans hc)) rfl

theorem room_single {a : CefrLevel} (h : 0 < job.cap a) (i : Nat) (level : CefrLevel) :
    ([(a, i)].countP fun w => w.1 = level) ≤ job.cap level := by
  rw [List.countP_singleton]
  by_cases ha : a = level
  · subst ha
    rw [if_pos (decide_eq_true rfl)]
    exact h
  · rw [if_neg (by simpa using ha)]
    exact Nat.zero_le _

theorem room_pair {a b : CefrLevel} (h : job.Fit a b) (i j : Nat) (level : CefrLevel) :
    ([(a, i), (b, j)].countP fun w => w.1 = level) ≤ job.cap level := by
  have ha := room_single h.1 i level
  have hb := room_single h.2.1 j level
  have hcons : ([(a, i), (b, j)].countP fun w => w.1 = level) =
      ([(a, i)].countP fun w => w.1 = level) + [(b, j)].countP fun w => w.1 = level := by
    rw [← List.countP_append]
    rfl
  rw [List.countP_singleton] at ha hb hcons
  rw [hcons, List.countP_singleton]
  by_cases hal : a = level <;> by_cases hbl : b = level
  · subst hal
    subst hbl
    simpa using h.2.2 rfl
  · simp [hbl] at ha ⊢
    exact ha
  · simp [hal] at hb ⊢
    exact hb
  · simp [hal, hbl]

theorem keysApart_of_nodup (hread : none ∉ job.exits pilot job.lines)
    (hnodup : ∀ picks : List Nat, (pilot.map some ++ (CefrLevel.order.flatMap
      ((job.withDraws Reservoirs.tape picks).heldLines pilot)).map fun x =>
        job.lemmaKeyOf x.1.row).Nodup) : job.KeysApart pilot := by
  refine ⟨hread, fun c hc _ hcap key hkey heq => ?_, fun i j c d hi hj hne _ hfit heq => ?_⟩
  · -- draws for which the line has a place beside the pilot
    obtain ⟨i, hi⟩ := List.mem_iff_getElem?.mp hc
    obtain ⟨picks, hpicks⟩ := exists_draws job (room_single hcap i) fun w hw =>
      ⟨c, by rw [List.mem_singleton.mp hw]; exact ⟨hi, rfl⟩⟩
    obtain ⟨x, hx, hnumber⟩ := hpicks _ (List.mem_singleton_self _)
    obtain rfl := eq_of_held hx hnumber hi
    exact (List.nodup_append'.mp (hnodup picks)).2.2 (List.mem_map_of_mem hkey)
      (List.mem_map.mpr ⟨_, hx, heq⟩)
  · -- draws for which both lines have a place
    obtain ⟨picks, hpicks⟩ := exists_draws job (room_pair hfit i j) fun w hw => by
      rcases List.mem_cons.mp hw with rfl | hw
      · exact ⟨c, hi, rfl⟩
      · obtain rfl := List.mem_singleton.mp hw
        exact ⟨d, hj, rfl⟩
    obtain ⟨x, hx, hxi⟩ := hpicks _ (List.mem_cons_self ..)
    obtain ⟨y, hy, hyj⟩ := hpicks _ (List.mem_cons_of_mem _ (List.mem_singleton_self _))
    obtain rfl := eq_of_held hx hxi hi
    obtain rfl := eq_of_held hy hyj hj
    have hsame := List.inj_on_of_nodup_map (List.nodup_append'.mp (hnodup picks)).2.1 hx hy heq
    exact hne (Prod.mk.inj hsame).2

/-- **Filled and even reservoirs.**  With a pilot of different keys that the quotas can
hold, every uninterrupted run returns, whatever its generator, for each level the rows of
the pilot and as many accepted lines as the quota leaves room for, no lemma key twice,
with each line that is not blank counted once, and the accepted lines of a level have the
same odds, exactly when no line ends the run and no accepted line with an odd part of
speech can stand beside a row of its lemma key. -/
theorem reservoir_fills_iff (job : SampleJob R) {pilot : List String}
    (hpilot : job.pilotKeys = some pilot) (hdistinct : pilot.Nodup)
    (hover : job.overfull = false) :
    ((∀ (S : Type) (draw : S → Nat → Nat × S) (rng : S), (job.withDraws draw rng).Fills pilot) ∧
      job.EvenOdds pilot) ↔ job.KeysApart pilot := by
  constructor
  · rintro ⟨hfills, -⟩
    have hruns := fun picks => nodup_of_fills (job.withDraws Reservoirs.tape picks) hpilot
      hover (hfills _ Reservoirs.tape picks)
    refine keysApart_of_nodup ?_ fun picks => (hruns picks).2
    have hread := (hruns []).1
    rw [exits_withDraws] at hread
    exact hread
  · intro hapart
    exact ⟨fun S draw rng => fills_of_apart (job.withDraws draw rng) hpilot hdistinct hover
      (keysApart_withDraws hapart), evenOdds_of_read hpilot hover hapart.read⟩

theorem reservoir_fills_catAndDog :
    (∀ (S : Type) (draw : S → Nat → Nat × S) (rng : S), (catAndDog.withDraws draw rng).Fills []) ∧
      catAndDog.EvenOdds [] := by
  have hread : none ∉ catAndDog.exits [] catAndDog.lines := by decide +kernel
  have heven : ∀ c ∈ catAndDog.accepted [], c.entry.oddPos = false := by
    have hall : ((catAndDog.accepted []).all fun c => !c.entry.oddPos) = true := by
      decide +kernel
    intro c hc
    simpa using List.all_eq_true.mp hall c hc
  refine (reservoir_fills_iff catAndDog (by decide +kernel) List.nodup_nil (by decide +kernel)).mpr
    ⟨hread, fun c hc hodd => ?_, fun i j c d hi _ _ hodd => ?_⟩
  · exact absurd hodd (by rw [heven c hc]; decide)
  · exact absurd hodd (by rw [heven c (List.mem_of_getElem? hi)]; decide)

/-! ## A lemma key twice -/

/-- Two index lines for one word, decoded by hand. -/
def oddLine : String → Option JsonValue
  | "\x7b\"word\": \"cat\", \"pos\": 5, \"offset\": 0, \"length\": 5\x7d" =>
      some (.obj [("word", .str "cat"), ("pos", .int 5), ("offset", .int 0), ("length", .int 5)])
  | "\x7b\"word\": \"cat\", \"pos\": null, \"offset\": 5, \"length\": 5\x7d" =>
      some (.obj [("word", .str "cat"), ("pos", .null), ("offset", .int 5), ("length", .int 5)])
  | _ => none

/-- A word whose part of speech is a number, and again without one. -/
def oddCat : SampleJob Unit where
  lib :=
    { toRegistryLib := .ascii
      loads := oddLine
      display := fun value =>
        match value with
        | .int n => some (toString n)
        | _ => none
      intOfStr := fun _ => none
      isDigit := Char.isDigit
      isAlpha := Char.isAlpha
      zipf := none
      sieve := fun _ _ => some true
      randrange := fun rng _ => (0, rng) }
  pack := ⟨fun _ => some .a1, fun _ => [], fun _ => [], []⟩
  quotas _ := 5
  rng := ()
  pilot := []
  batch := 1
  lines :=
    ["\x7b\"word\": \"cat\", \"pos\": 5, \"offset\": 0, \"length\": 5\x7d",
      "\x7b\"word\": \"cat\", \"pos\": null, \"offset\": 5, \"length\": 5\x7d"]
  batch_pos := Nat.one_pos

/-- Both lines are accepted, and their rows have one lemma key. -/
theorem odd_pos_doubles_key :
    oddCat.pilotKeys = some [] ∧ oddCat.overfull = false ∧
      (oddCat.session none).2.map (fun out => out.rows.map oddCat.lemmaKeyOf) =
        some [some "cat|", some "cat|"] ∧ ¬ oddCat.Fills [] := by
  have hkeys : (oddCat.session none).2.map (fun out => out.rows.map oddCat.lemmaKeyOf) =
      some [some "cat|", some "cat|"] := by decide +kernel
  refine ⟨by decide +kernel, by decide +kernel, hkeys, ?_⟩
  rintro ⟨out, hout, -, hnodup, -⟩
  rw [hout] at hkeys
  have hrows : out.rows.map oddCat.lemmaKeyOf = [some "cat|", some "cat|"] := Option.some.inj hkeys
  rw [hrows] at hnodup
  exact absurd hnodup (by decide)

end SampleJob

end HamZaboon
