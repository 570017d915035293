import HamZaboon.Library.Batches

/-! # Proving tunnels

`TunnelSelector.prove` (`factory/net/tunnel_selection.py`): exits are probed in
priority order, a batch at a time, until enough of them are clean.  The outcome
does not depend on the width of a batch: it is that of probing one exit after
the other (`prove_eq_scan`).
-/

namespace HamZaboon
open Library

variable {Exit E : Type}

structure Proof (Exit : Type) where
  clean : List Exit := []
  blocked : List Exit := []
  unknown : List Exit := []
  deriving DecidableEq, Repr

/-- What a proof says about an exit. -/
inductive Standing
  | clean | blocked | unknown
  deriving DecidableEq, Repr

/-- The answer of a probe: a transport error is unknown, as is any other verdict. -/
def standing : Except E String → Standing
  | .ok verdict =>
    if verdict = "clean" then .clean else if verdict = "blocked" then .blocked else .unknown
  | .error _ => .unknown

/-- The exit is appended to the list of its standing. -/
def Proof.add (p : Proof Exit) (exit : Exit) : Standing → Proof Exit
  | .clean => { p with clean := p.clean ++ [exit] }
  | .blocked => { p with blocked := p.blocked ++ [exit] }
  | .unknown => { p with unknown := p.unknown ++ [exit] }

/-- The loop's lists, and the exits it has called the probe for. -/
structure Proving (Exit : Type) where
  proof : Proof Exit := {}
  calls : List Exit := []
  deriving DecidableEq, Repr

/-- `len(clean) >= keep`. -/
def Proving.enough (keep : Int) (s : Proving Exit) : Bool := keep ≤ s.proof.clean.length

def Proving.probe (probe : Exit → Except E String) (s : Proving Exit) (exit : Exit) :
    Proving Exit where
  proof := s.proof.add exit (standing (probe exit))
  calls := s.calls ++ [exit]

/-- `TunnelSelector.prove` with a probe for the provider. -/
def proveWith (probe : Exit → Except E String) (batch keep : Int) (exits : List Exit) :
    Proving Exit :=
  let total := exits.length
  if h : keep ≤ 0 ∨ total = 0 then {}
  else
    let width := if 0 < batch then batch.toNat else total
    foldBatches (Proving.enough keep) (Proving.probe probe) width
      (by simp only [width]; split <;> omega) exits 0 {}

/-- `TunnelSelector.prove`; `none` is `NoTunnelExit`. -/
def prove (probes : String → Option (Exit → Except E String)) (batch keep : Int)
    (provider : String) (exits : List Exit) : Option (Proof Exit) :=
  (probes provider).map fun probe => (proveWith probe batch keep exits).proof

/-! ## One after the other -/

section Scan
variable (clean : Exit → Bool)

/-- The exits a scan looks at that stops after `keep` clean ones. -/
def scanned : Nat → List Exit → List Exit
  | 0, _ => []
  | _, [] => []
  | keep + 1, exit :: exits => exit :: scanned (if clean exit then keep else keep + 1) exits

variable {clean}

theorem scanned_isPrefix (keep : Nat) (exits : List Exit) : scanned clean keep exits <+: exits := by
  induction exits generalizing keep with
  | nil => cases keep <;> exact List.nil_prefix
  | cons exit exits ih =>
    cases keep with
    | zero => exact List.nil_prefix
    | succ keep => exact (List.prefix_cons_inj exit).mpr (ih _)

theorem filter_scanned (keep : Nat) (exits : List Exit) :
    (scanned clean keep exits).filter clean = (exits.filter clean).take keep := by
  induction exits generalizing keep with
  | nil => cases keep <;> rfl
  | cons exit exits ih =>
    cases keep with
    | zero => rfl
    | succ keep =>
      simp only [scanned]
      cases h : clean exit
      · rw [List.filter_cons_of_neg (by simp [h]), List.filter_cons_of_neg (by simp [h])]
        exact ih (keep + 1)
      · rw [List.filter_cons_of_pos h, List.filter_cons_of_pos h, List.take_succ_cons]
        exact congrArg _ (ih keep)

end Scan

/-! ## The loop is the scan -/

section Loop
variable (probe : Exit → Except E String)

/-- The exits of one standing, in the order they are given. -/
def withStanding (standing' : Standing) (exits : List Exit) : List Exit :=
  exits.filter fun exit => standing (probe exit) = standing'

/-- The proof after further exits are probed. -/
def Proof.addAll (p : Proof Exit) (exits : List Exit) : Proof Exit where
  clean := p.clean ++ withStanding probe .clean exits
  blocked := p.blocked ++ withStanding probe .blocked exits
  unknown := p.unknown ++ withStanding probe .unknown exits

theorem Proof.addAll_cons (p : Proof Exit) (exit : Exit) (exits : List Exit) :
    p.addAll probe (exit :: exits) = (p.add exit (standing (probe exit))).addAll probe exits := by
  cases h : standing (probe exit) <;> simp [Proof.addAll, Proof.add, withStanding, h]

theorem foldUntil_probe (keep : Nat) (s : Proving Exit) (exits : List Exit) :
    foldUntil (Proving.enough (s.proof.clean.length + keep)) (Proving.probe probe) s exits =
      { proof := s.proof.addAll probe (scanned (fun e => standing (probe e) = .clean) keep exits)
        calls := s.calls ++ scanned (fun e => standing (probe e) = .clean) keep exits } := by
  induction exits generalizing keep s with
  | nil => cases keep <;> simp [scanned, Proof.addAll, withStanding]
  | cons exit exits ih =>
    cases keep with
    | zero =>
      have henough : s.enough (s.proof.clean.length + (0 : Nat)) = true := by
        simp [Proving.enough]
      rw [foldUntil_of_stop henough]
      simp [scanned, Proof.addAll, withStanding]
    | succ keep =>
      have hmore : s.enough (s.proof.clean.length + (keep + 1 : Nat)) = false := by
        rw [Proving.enough, decide_eq_false_iff_not]
        omega
      have hstep : ∀ keep' : Nat,
          (s.proof.clean.length + (keep + 1 : Nat) : Int) =
            (s.probe probe exit).proof.clean.length + keep' →
          scanned (fun e => standing (probe e) = .clean) (keep + 1) (exit :: exits) =
            exit :: scanned (fun e => standing (probe e) = .clean) keep' exits →
          foldUntil (Proving.enough (s.proof.clean.length + (keep + 1 : Nat)))
            (Proving.probe probe) s (exit :: exits) =
          { proof := s.proof.addAll probe
              (scanned (fun e => standing (probe e) = .clean) (keep + 1) (exit :: exits))
            calls := s.calls ++
              scanned (fun e => standing (probe e) = .clean) (keep + 1) (exit :: exits) } := by
        intro keep' hbound hscan
        rw [foldUntil, hmore, if_neg Bool.false_ne_true, hbound, ih keep', hscan,
          Proof.addAll_cons]
        simp [Proving.probe]
      cases h : standing (probe exit) with
      | clean =>
        refine hstep keep ?_ (by simp [scanned, h])
        simp [Proving.probe, Proof.add, h]
        omega
      | blocked =>
        exact hstep (keep + 1) (by simp [Proving.probe, Proof.add, h]) (by simp [scanned, h])
      | unknown =>
        exact hstep (keep + 1) (by simp [Proving.probe, Proof.add, h]) (by simp [scanned, h])

theorem proveWith_eq (batch keep : Int) (exits : List Exit) :
    proveWith probe batch keep exits =
      { proof := ({} : Proof Exit).addAll probe
          (scanned (fun e => standing (probe e) = .clean) keep.toNat exits)
        calls := scanned (fun e => standing (probe e) = .clean) keep.toNat exits } := by
  simp only [proveWith]
  split
  · rename_i h
    have hnone : scanned (fun e => standing (probe e) = .clean) keep.toNat exits = [] := by
      rcases h with hkeep | htotal
      · rw [Int.toNat_of_nonpos hkeep, scanned]
      · rw [List.length_eq_zero_iff.mp htotal]
        cases keep.toNat <;> rfl
    rw [hnone]
    rfl
  · rename_i h
    have hkeep : keep = ((({} : Proving Exit).proof.clean.length : Nat) : Int) + keep.toNat := by
      simp
      omega
    have hloop := foldUntil_probe probe keep.toNat {} exits
    rw [← hkeep] at hloop
    rw [foldBatches_eq, List.drop_zero, hloop]
    simp

/-- **Proving does not depend on the width of a batch.**  The exits kept are the
first `keep` clean ones, in order; the calls are those of a scan that stops after
them, a prefix of the exits; and the three lists are that prefix sorted by
outcome, each in order. -/
theorem prove_eq_scan {probes : String → Option (Exit → Except E String)} {provider : String}
    (h : probes provider = some probe) (batch keep : Int) (exits : List Exit) :
    ∃ probed, (proveWith probe batch keep exits).calls = probed ∧ probed <+: exits ∧
      probed = scanned (fun e => standing (probe e) = .clean) keep.toNat exits ∧
      prove probes batch keep provider exits = some
        { clean := withStanding probe .clean probed
          blocked := withStanding probe .blocked probed
          unknown := withStanding probe .unknown probed } ∧
      withStanding probe .clean probed = (withStanding probe .clean exits).take keep.toNat := by
  refine ⟨_, rfl, ?_, ?_, ?_, ?_⟩
  · rw [proveWith_eq]
    exact scanned_isPrefix _ _
  · rw [proveWith_eq]
  · rw [prove, h, Option.map_some, proveWith_eq]
    rfl
  · rw [proveWith_eq]
    exact filter_scanned _ _

end Loop

/-- Two clean exits in batches of three: the scan stops within the second batch. -/
theorem prove_stops_in_second_batch :
    let probe : Nat → Except Unit String := fun exit =>
      if exit % 2 = 0 then .ok "clean" else if exit = 3 then .error () else .ok "blocked"
    ∃ probed, (proveWith probe 3 2 [1, 2, 3, 4, 5, 6]).calls = probed ∧
      probed <+: [1, 2, 3, 4, 5, 6] ∧
      probed = scanned (fun e => standing (probe e) = .clean) 2 [1, 2, 3, 4, 5, 6] ∧
      prove (fun _ => some probe) 3 2 "google" [1, 2, 3, 4, 5, 6] = some
        { clean := withStanding probe .clean probed
          blocked := withStanding probe .blocked probed
          unknown := withStanding probe .unknown probed } ∧
      withStanding probe .clean probed = (withStanding probe .clean [1, 2, 3, 4, 5, 6]).take 2 := by
  intro probe
  exact prove_eq_scan probe rfl 3 2 [1, 2, 3, 4, 5, 6]

end HamZaboon
