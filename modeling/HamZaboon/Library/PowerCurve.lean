import Mathlib.Analysis.SpecialFunctions.Pow.Real

/-! # Power curves

A level that starts at one and falls off with time, as a negative power of the
elapsed time on a scale of its own.  The time at which it has fallen to a given
level is a formula too (`level_time`).
-/

namespace HamZaboon.Library

/-- The exponent of a curve, and the factor of its time axis. -/
structure PowerCurve where
  decay : ℝ
  factor : ℝ
  decay_pos : 0 < decay
  factor_pos : 0 < factor

namespace PowerCurve
variable (c : PowerCurve) {s t r : ℝ}

/-- The level after a time, on the scale `s`. -/
noncomputable def level (s t : ℝ) : ℝ := (1 + c.factor * t / s) ^ (-c.decay)

/-- The time after which a level is reached, on the scale `s`. -/
noncomputable def time (s r : ℝ) : ℝ := s * (r ^ (-1 / c.decay) - 1) / c.factor

theorem one_le_base (hs : 0 < s) (ht : 0 ≤ t) : 1 ≤ 1 + c.factor * t / s :=
  le_add_of_nonneg_right (div_nonneg (mul_nonneg c.factor_pos.le ht) hs.le)

theorem level_strictAntiOn (hs : 0 < s) : StrictAntiOn (c.level s) (Set.Ici 0) := by
  intro t ht u _ htu
  have hbase : 1 + c.factor * t / s < 1 + c.factor * u / s := by
    have := div_lt_div_of_pos_right (mul_lt_mul_of_pos_left htu c.factor_pos) hs
    linarith
  exact Real.rpow_lt_rpow_of_neg (one_pos.trans_le (c.one_le_base hs ht)) hbase
    (neg_lt_zero.mpr c.decay_pos)

theorem level_pos (hs : 0 < s) (ht : 0 ≤ t) : 0 < c.level s t :=
  Real.rpow_pos_of_pos (one_pos.trans_le (c.one_le_base hs ht)) _

theorem level_le_one (hs : 0 < s) (ht : 0 ≤ t) : c.level s t ≤ 1 :=
  Real.rpow_le_one_of_one_le_of_nonpos (c.one_le_base hs ht) (neg_nonpos.mpr c.decay_pos.le)

theorem time_pos (hs : 0 < s) (hr : 0 < r) (hr' : r < 1) : 0 < c.time s r := by
  have hpow : 1 < r ^ (-1 / c.decay) :=
    Real.one_lt_rpow_of_pos_of_lt_one_of_neg hr hr' (div_neg_of_neg_of_pos (by norm_num) c.decay_pos)
  exact div_pos (mul_pos hs (sub_pos.mpr hpow)) c.factor_pos

theorem level_time (hs : 0 < s) (hr : 0 < r) : c.level s (c.time s r) = r := by
  have hfactor := c.factor_pos.ne'
  have hdecay := c.decay_pos.ne'
  have hbase : 1 + c.factor * c.time s r / s = r ^ (-1 / c.decay) := by
    unfold time
    field_simp
    ring
  have hexp : -1 / c.decay * -c.decay = 1 := by
    field_simp
  rw [level, hbase, ← Real.rpow_mul hr.le, hexp, Real.rpow_one]

end PowerCurve

end HamZaboon.Library
