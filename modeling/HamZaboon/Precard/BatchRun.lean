import HamZaboon.Precard.JudgeStage

/-! # Batches judged at once

`run_batches_async`: all units are judged concurrently, `asyncio.gather` returns
what became of each in the order of the units, and a loop over these sorts them
into mappings, the terminal error, and exceptions that are raised.

A second terminal error falls through to `raise item`, so the settled units are
lost to the caller exactly where two units before any other exception fail with
one (`keepsSettled_iff`).
-/

namespace HamZaboon

/-- An exception of a unit: one that ends the stage, or any other one. -/
inductive UnitError (ε : Type)
  | terminal (e : TerminalError)
  | other (e : ε)
  deriving DecidableEq, Repr

/-- A unit: how `judge_batch_async` ends, and what `progress_sink` raises for its
mapping. -/
structure UnitRun (μ ε : Type) where
  judged : Except (UnitError ε) μ
  sinkRaised : Option (UnitError ε) := none

/-- `out` and `terminal`. -/
structure Gathered (μ : Type) where
  maps : Nat → Option μ
  terminal : Option TerminalError

section Loop
variable {μ ε : Type}

/-- `one`. -/
def UnitRun.result (u : UnitRun μ ε) : Except (UnitError ε) μ :=
  match u.judged, u.sinkRaised with
  | .error e, _ => .error e
  | .ok _, some e => .error e
  | .ok mapping, none => .ok mapping

/-- The loop's body: with a terminal error already there, the next one is raised
like any other exception. -/
def collect (acc : Gathered μ) (item : Except (UnitError ε) μ × Nat) :
    Except (UnitError ε) (Gathered μ) :=
  match item.1 with
  | .ok mapping => .ok { acc with maps := Function.update acc.maps item.2 (some mapping) }
  | .error (.other e) => .error (.other e)
  | .error (.terminal e) =>
    match acc.terminal with
    | none => .ok { acc with terminal := some e }
    | some _ => .error (.terminal e)

/-- The loop over the results from the `n`-th on. -/
def collectFrom (n : Nat) (acc : Gathered μ) (results : List (Except (UnitError ε) μ)) :
    Except (UnitError ε) (Gathered μ) :=
  (results.zipIdx n).foldlM collect acc

def runBatchesAsync (units : List (UnitRun μ ε)) : Except (UnitError ε) (Gathered μ) :=
  collectFrom 0 ⟨fun _ => none, none⟩ (units.map UnitRun.result)

/-! ## What it promises -/

def firstFailure (results : List (Except (UnitError ε) μ)) : Option (UnitError ε) :=
  results.findSome? fun
    | .error e => some e
    | .ok _ => none

/-- What is returned has the mapping of every settled unit and of no other, and
the terminal error of the first failing unit; what is raised is an exception of
another kind, of some unit. -/
def KeepsSettled (units : List (UnitRun μ ε)) : Prop :=
  match runBatchesAsync units with
  | .ok got => (∀ i, got.maps i = (units[i]?).bind fun u => u.result.toOption) ∧
      got.terminal.map .terminal = firstFailure (units.map UnitRun.result)
  | .error e => ∃ x, e = .other x ∧ ∃ u ∈ units, u.result = .error (.other x)

/-- The unit fails with an exception of another kind. -/
def failsOther : Except (UnitError ε) μ → Bool
  | .error (.other _) => true
  | _ => false

def failsTerminal : Except (UnitError ε) μ → Bool
  | .error (.terminal _) => true
  | _ => false

/-- The terminal errors before the first exception of another kind. -/
def terminalsBefore (results : List (Except (UnitError ε) μ)) : Nat :=
  (results.takeWhile fun r => !failsOther r).countP failsTerminal

/-! ## The loop -/

variable {n : Nat} {acc : Gathered μ} {results : List (Except (UnitError ε) μ)}

theorem collectFrom_terminal_none (h : acc.terminal = none) (e : TerminalError) :
    collectFrom n acc (.error (.terminal e) :: results) =
      collectFrom (n + 1) { acc with terminal := some e } results := by
  obtain ⟨maps, terminal⟩ := acc
  subst h
  rfl

theorem collectFrom_terminal_some {first : TerminalError} (h : acc.terminal = some first)
    (e : TerminalError) :
    collectFrom n acc (.error (.terminal e) :: results) = .error (.terminal e) := by
  obtain ⟨maps, terminal⟩ := acc
  subst h
  rfl

@[simp] theorem terminalsBefore_terminal (e : TerminalError) :
    terminalsBefore (.error (.terminal e) :: results) = terminalsBefore results + 1 := by
  rw [terminalsBefore, List.takeWhile_cons_of_pos rfl, List.countP_cons_of_pos rfl]
  rfl

theorem mem_of_collectFrom_error {e : UnitError ε} (h : collectFrom n acc results = .error e) :
    .error e ∈ results := by
  induction results generalizing n acc with
  | nil => cases h
  | cons result results ih =>
    match result with
    | .ok mapping => exact List.mem_cons_of_mem _ (ih h)
    | .error (.other x) =>
      obtain rfl := Except.error.inj h
      exact List.mem_cons_self
    | .error (.terminal x) =>
      cases hfirst : acc.terminal with
      | none =>
        rw [collectFrom_terminal_none hfirst] at h
        exact List.mem_cons_of_mem _ (ih h)
      | some first =>
        rw [collectFrom_terminal_some hfirst] at h
        obtain rfl := Except.error.inj h
        exact List.mem_cons_self

theorem collectFrom_terminal_iff : (∃ x, collectFrom n acc results = .error (.terminal x)) ↔
    1 < acc.terminal.toList.length + terminalsBefore results := by
  induction results generalizing n acc with
  | nil =>
    refine iff_of_false nofun (Nat.not_lt.mpr ?_)
    cases acc.terminal <;> exact Nat.le_of_ble_eq_true rfl
  | cons result results ih =>
    match result with
    | .ok mapping => exact ih
    | .error (.other x) =>
      refine iff_of_false nofun (Nat.not_lt.mpr ?_)
      cases acc.terminal <;> exact Nat.le_of_ble_eq_true rfl
    | .error (.terminal x) =>
      cases hfirst : acc.terminal with
      | none =>
        rw [collectFrom_terminal_none hfirst, ih, terminalsBefore_terminal]
        simp only [Option.toList, List.length_cons, List.length_nil]
        omega
      | some first =>
        rw [collectFrom_terminal_some hfirst, terminalsBefore_terminal]
        refine iff_of_true ⟨x, rfl⟩ ?_
        simp only [Option.toList, List.length_cons, List.length_nil]
        omega

theorem collectFrom_ok {got : Gathered μ} (hfresh : ∀ i, n ≤ i → acc.maps i = none)
    (h : collectFrom n acc results = .ok got) :
    (∀ i, got.maps i = if i < n then acc.maps i else (results[i - n]?).bind Except.toOption) ∧
      got.terminal.map .terminal = (acc.terminal.map .terminal).or (firstFailure results) := by
  induction results generalizing n acc with
  | nil =>
    obtain rfl := Except.ok.inj h
    refine ⟨fun i => ?_, Option.or_none.symm⟩
    by_cases hi : i < n
    · rw [if_pos hi]
    · rw [if_neg hi, hfresh i (Nat.le_of_not_lt hi)]
      rfl
  | cons result results ih =>
    -- the later results, for a loop that has recorded this one
    have hlater : ∀ acc' : Gathered μ, collectFrom (n + 1) acc' results = .ok got →
        (∀ i, n + 1 ≤ i → acc'.maps i = none) → acc'.maps n = result.toOption →
        (∀ i < n, acc'.maps i = acc.maps i) →
        ∀ i, got.maps i = if i < n then acc.maps i
          else ((result :: results)[i - n]?).bind Except.toOption := by
      intro acc' hrest hnone hhere hbefore i
      rw [(ih hnone hrest).1 i]
      rcases Nat.lt_trichotomy i n with hi | rfl | hi
      · rw [if_pos hi, if_pos (Nat.lt_succ_of_lt hi), hbefore i hi]
      · rw [if_pos (Nat.lt_succ_self i), if_neg (Nat.lt_irrefl i), Nat.sub_self, hhere]
        rfl
      · rw [if_neg (by omega), if_neg (by omega), show i - n = i - (n + 1) + 1 by omega,
          List.getElem?_cons_succ]
    match result with
    | .ok mapping =>
      have hnone : ∀ i, n + 1 ≤ i → Function.update acc.maps n (some mapping) i = none := by
        intro i hi
        rw [Function.update_of_ne (by omega)]
        exact hfresh i (by omega)
      refine ⟨hlater _ h hnone (Function.update_self ..) fun i hi => ?_, (ih hnone h).2⟩
      exact Function.update_of_ne (by omega) _ _
    | .error (.other x) => cases h
    | .error (.terminal x) =>
      cases hfirst : acc.terminal with
      | none =>
        rw [collectFrom_terminal_none hfirst] at h
        have hnone : ∀ i, n + 1 ≤ i → acc.maps i = none := fun i hi => hfresh i (by omega)
        refine ⟨hlater _ h hnone (hfresh n (Nat.le_refl n)) fun _ _ => rfl, ?_⟩
        have hone : ∀ i, n + 1 ≤ i → ({ acc with terminal := some x } : Gathered μ).maps i = none :=
          hnone
        exact (ih hone h).2
      | some first =>
        rw [collectFrom_terminal_some hfirst] at h
        cases h

/-! ## When the settled units are kept -/

/-- **Exactly the runs with at most one terminal error before the first exception
of another kind keep what is settled.** -/
theorem keepsSettled_iff (units : List (UnitRun μ ε)) :
    KeepsSettled units ↔ terminalsBefore (units.map UnitRun.result) ≤ 1 := by
  have hmany : (∃ x, runBatchesAsync units = .error (.terminal x)) ↔
      1 < 0 + terminalsBefore (units.map UnitRun.result) := collectFrom_terminal_iff
  rw [Nat.zero_add] at hmany
  rw [← Nat.not_lt, ← hmany, KeepsSettled]
  cases hrun : runBatchesAsync units with
  | ok got =>
    obtain ⟨hmaps, hterminal⟩ := collectFrom_ok (fun _ _ => rfl) hrun
    refine iff_of_true ⟨fun i => ?_, hterminal⟩ ?_
    · rw [hmaps i, if_neg (Nat.not_lt_zero i), Nat.sub_zero, List.getElem?_map]
      cases units[i]? <;> rfl
    · rintro ⟨x, hx⟩
      cases hx
  | error e =>
    constructor
    · rintro ⟨x, rfl, -⟩ ⟨y, hy⟩
      cases hy
    · intro hfew
      cases e with
      | terminal x => exact absurd ⟨x, rfl⟩ hfew
      | other x =>
        obtain ⟨u, hu, hresult⟩ := List.mem_map.mp (mem_of_collectFrom_error hrun)
        exact ⟨x, rfl, u, hu, hresult⟩

/-- Two units hit the quota, with a settled one between them. -/
def quotaTogether : List (UnitRun String Unit) :=
  [⟨.error (.terminal ⟨.rateLimited, "a"⟩), none⟩, ⟨.ok "m", none⟩,
    ⟨.error (.terminal ⟨.rateLimited, "b"⟩), none⟩]

/-- The second error is raised, and the mapping is lost. -/
theorem second_terminal_raised :
    runBatchesAsync quotaTogether = .error (.terminal ⟨.rateLimited, "b"⟩) ∧
      ¬ KeepsSettled quotaTogether := by
  have hraised : runBatchesAsync quotaTogether = .error (.terminal ⟨.rateLimited, "b"⟩) := rfl
  refine ⟨hraised, ?_⟩
  rw [KeepsSettled, hraised]
  rintro ⟨x, hx, -⟩
  cases hx

end Loop

end HamZaboon
