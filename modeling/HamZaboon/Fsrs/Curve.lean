import HamZaboon.Fsrs.Bounds
import HamZaboon.Library.PowerCurve

/-! # The forgetting curve

Retrievability and interval over real numbers.  The two formulas are those of one
power curve, whose time axis is scaled by the stability, floored; so an interval
that is not capped ends exactly when retrievability has fallen to the retention
that was asked for (`retrievability_at_interval`).
-/

namespace HamZaboon
open Library

/-- Exact real arithmetic. -/
noncomputable instance elementaryReal : Elementary ℝ where
  exp := Real.exp
  pow := Real.rpow

instance lawfulElementaryReal : LawfulElementary ℝ where
  exp_pos := Real.exp_pos
  pow_pos _ y hx := Real.rpow_pos_of_pos hx y
  one_lt_pow _ _ hx hlt hy := Real.one_lt_rpow_of_pos_of_lt_one_of_neg hx hlt hy

namespace FsrsConfig
variable (cfg : FsrsConfig ℝ)

noncomputable def curve (hw : 0 < cfg.decay) : PowerCurve where
  decay := cfg.decay
  factor := computeFactor cfg.decay
  decay_pos := hw
  factor_pos := computeFactor_pos hw

theorem computeInterval_eq_min (s r : ℝ) :
    cfg.computeInterval s (some r) = min (cfg.uncappedInterval s r) cfg.maximumInterval := rfl

variable {cfg}

theorem computeRetrievability_eq_level (hw : 0 < cfg.w 20) (t s : ℝ) :
    cfg.computeRetrievability t s = (cfg.curve hw).level (max 0.1 s) (max 0 t) := rfl

theorem uncappedInterval_eq_time (hw : 0 < cfg.w 20) (s r : ℝ) :
    cfg.uncappedInterval s r = (cfg.curve hw).time (max 0.1 s) r := rfl

theorem computeRetrievability_mem (hw : 0 < cfg.w 20) (t s : ℝ) :
    cfg.computeRetrievability t s ∈ Set.Ioc 0 1 := by
  rw [computeRetrievability_eq_level hw]
  exact ⟨(cfg.curve hw).level_pos (floored_pos s) (le_max_left _ _),
    (cfg.curve hw).level_le_one (floored_pos s) (le_max_left _ _)⟩

theorem computeRetrievability_strictAntiOn (hw : 0 < cfg.w 20) (s : ℝ) :
    StrictAntiOn (fun t => cfg.computeRetrievability t s) (Set.Ici 0) := by
  intro t ht u hu htu
  have hanti := (cfg.curve hw).level_strictAntiOn (floored_pos s) ht hu htu
  simp only [computeRetrievability_eq_level hw]
  rwa [max_eq_right (Set.mem_Ici.mp ht), max_eq_right (Set.mem_Ici.mp hu)]

/-- **Interval and retrievability undo each other.**  After an interval that is not
capped the retrievability is the retention asked for, and on the way there it falls
strictly, from one on and never to zero. -/
theorem retrievability_at_interval (hw : 0 < cfg.w 20) (s : ℝ) :
    (∀ r, 0 < r → r < 1 → cfg.uncappedInterval s r ≤ cfg.maximumInterval →
      cfg.computeRetrievability (cfg.computeInterval s (some r)) s = r) ∧
    StrictAntiOn (fun t => cfg.computeRetrievability t s) (Set.Ici 0) ∧
    ∀ t, cfg.computeRetrievability t s ∈ Set.Ioc 0 1 := by
  refine ⟨fun r hr hr' huncapped => ?_, computeRetrievability_strictAntiOn hw s,
    fun t => computeRetrievability_mem hw t s⟩
  have hpos := (cfg.curve hw).time_pos (floored_pos s) hr hr'
  rw [computeInterval_eq_min, min_eq_left huncapped, uncappedInterval_eq_time hw,
    computeRetrievability_eq_level hw, max_eq_right hpos.le]
  exact (cfg.curve hw).level_time (floored_pos s) hr

/-- A month at the default retention. -/
theorem retrievability_after_month :
    (FsrsConfig.default : FsrsConfig ℝ).computeRetrievability
      ((FsrsConfig.default : FsrsConfig ℝ).computeInterval 30 (some 0.9)) 30 = 0.9 := by
  have hw : 0 < (FsrsConfig.default : FsrsConfig ℝ).w 20 := w20_default_pos
  have hmonth : (FsrsConfig.default : FsrsConfig ℝ).uncappedInterval 30 0.9 = 30 := by
    show max 0.1 30 * computeFactor (FsrsConfig.default.w 20) /
      computeFactor (FsrsConfig.default.w 20) = (30 : ℝ)
    rw [mul_div_assoc, div_self (computeFactor_pos hw).ne', mul_one, max_eq_right (by norm_num)]
  refine (retrievability_at_interval hw 30).1 0.9 (by norm_num) (by norm_num) ?_
  rw [hmonth]
  show (30 : ℝ) ≤ 365
  norm_num

end FsrsConfig

end HamZaboon
