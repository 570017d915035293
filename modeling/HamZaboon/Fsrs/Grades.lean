import HamZaboon.Fsrs.Curve

/-! # What a grade does to a stability

The two updates of the engine over real numbers, one grade against another.  A
better grade never leaves a smaller stability (`updateStability_mono`,
`shortTermStability_mono`); a success keeps the stability at least, except where
the short-term formula takes a `hard` for a step back; and `again` lowers it, down
to the stability at which the short-term formula stands still
(`leastStability_le_shortTerm`).
-/

namespace HamZaboon.FsrsConfig

structure Graded (cfg : FsrsConfig ℝ) : Prop where
  spacing : 0 ≤ cfg.w 10
  hardPenalty : cfg.w 15 ≤ 1
  easyBonus : 1 ≤ cfg.w 16
  step : 0 ≤ cfg.w 17
  offset : 0 ≤ cfg.w 18
  slowing : 0 < cfg.w 19
  slowing_le : cfg.w 19 ≤ 1

theorem graded_default : Graded .default where
  spacing := by show (0 : ℝ) ≤ 0.796; norm_num
  hardPenalty := by show (0.6014 : ℝ) ≤ 1; norm_num
  easyBonus := by show (1 : ℝ) ≤ 1.8729; norm_num
  step := by show (0 : ℝ) ≤ 0.5425; norm_num
  offset := by show (0 : ℝ) ≤ 0.0912; norm_num
  slowing := by show (0 : ℝ) < 0.0658; norm_num
  slowing_le := by show (0.0658 : ℝ) ≤ 1; norm_num

variable {cfg : FsrsConfig ℝ} {d s r : ℝ} {g g' : Grade}

/-! ## After a day -/

theorem gain_nonneg (h : cfg.Graded) (hd : d ≤ 10) (hs : 0 < s) (hr : r ≤ 1) :
    0 ≤ cfg.gain d s r := by
  have hspacing : 1 ≤ Real.exp (cfg.w 10 * (1 - r)) :=
    Real.one_le_exp (mul_nonneg h.spacing (sub_nonneg.mpr hr))
  have hdifficulty : 0 ≤ 11 - d := by linarith
  exact mul_nonneg (mul_nonneg (mul_nonneg (Real.exp_pos _).le hdifficulty)
    (Real.rpow_pos_of_pos hs _).le) (sub_nonneg.mpr hspacing)

theorem modifier_mono (h : cfg.Graded) (hg : g ≠ .again) (hle : g.value ≤ g'.value) :
    cfg.modifier g ≤ cfg.modifier g' := by
  have heasy := h.easyBonus
  have hhard := h.hardPenalty
  cases g <;> cases g'
  all_goals simp_all [modifier, Grade.value]
  linarith

theorem updateStability_success (hg : g ≠ .again) :
    cfg.updateStability d s r g =
      max 0.1 s * max 1 (1 + cfg.gain d (max 0.1 s) r * cfg.modifier g) := by
  rw [updateStability, if_neg hg, modifier, ← mul_assoc]
  rfl

theorem le_updateStability (hg : g ≠ .again) : max 0.1 s ≤ cfg.updateStability d s r g := by
  rw [updateStability_success hg]
  exact le_mul_of_one_le_right (floored_pos s).le (le_max_left _ _)

theorem updateStability_again_le (h : cfg.Graded) :
    cfg.updateStability d s r .again ≤ max 0.1 s := by
  have hs := floored_pos s
  have hfloor : (0.1 : ℝ) ≤ max 0.1 s := le_max_left _ _
  have hupper : max 0.1 s / Real.exp (cfg.w 17 * cfg.w 18) ≤ max 0.1 s :=
    div_le_self hs.le (Real.one_le_exp (mul_nonneg h.step h.offset))
  rw [updateStability, if_pos rfl]
  dsimp only
  split
  · exact max_le (by linarith) ((min_le_right _ _).trans hupper)
  · exact max_le hfloor (min_le_right _ _)

theorem le_updateStability_floor (cfg : FsrsConfig ℝ) (d s r : ℝ) (g : Grade) :
    0.01 ≤ cfg.updateStability d s r g := by
  have hfloor : (0.1 : ℝ) ≤ max 0.1 s := le_max_left _ _
  by_cases hg : g = .again
  · rw [updateStability, if_pos hg]
    dsimp only
    split
    · exact le_max_left _ _
    · exact le_max_of_le_left (by norm_num)
  · have hle : max 0.1 s ≤ cfg.updateStability d s r g := le_updateStability hg
    linarith

theorem updateStability_mono (h : cfg.Graded) (hd : d ≤ 10) (hr : r ≤ 1)
    (hle : g.value ≤ g'.value) : cfg.updateStability d s r g ≤ cfg.updateStability d s r g' := by
  by_cases hagain : g = .again
  · subst hagain
    by_cases hagain' : g' = .again
    · rw [hagain']
    · exact (updateStability_again_le h).trans (le_updateStability hagain')
  · have hagain' : g' ≠ .again := by
      rintro rfl
      cases g <;> simp_all [Grade.value]
    rw [updateStability_success hagain, updateStability_success hagain']
    have hgain := gain_nonneg h hd (floored_pos s) hr
    gcongr
    exact modifier_mono h hagain hle

/-! ## Within a day -/

theorem shortTermFactor_eq : cfg.shortTermFactor s g =
    Real.exp (cfg.w 17 * ((g.value : ℝ) - 3 + cfg.w 18)) * s ^ (-cfg.w 19) := rfl

theorem shortTermStability_eq :
    cfg.shortTermStability s g =
      s * (if 3 ≤ g.value then max 1 (cfg.shortTermFactor s g) else cfg.shortTermFactor s g) := rfl

theorem shortTermFactor_mono (h : cfg.Graded) (hs : 0 < s) (hle : g.value ≤ g'.value) :
    cfg.shortTermFactor s g ≤ cfg.shortTermFactor s g' := by
  have hvalue : (g.value : ℝ) ≤ g'.value := by exact_mod_cast hle
  refine mul_le_mul_of_nonneg_right (Real.exp_le_exp.mpr ?_) (Real.rpow_pos_of_pos hs _).le
  exact mul_le_mul_of_nonneg_left (by linarith) h.step

theorem shortTermStability_mono (h : cfg.Graded) (hs : 0 < s) (hle : g.value ≤ g'.value) :
    cfg.shortTermStability s g ≤ cfg.shortTermStability s g' := by
  have hfactor := shortTermFactor_mono h hs hle
  rw [shortTermStability_eq, shortTermStability_eq]
  refine mul_le_mul_of_nonneg_left ?_ hs.le
  split
  · rw [if_pos (by omega)]
    exact max_le_max_left 1 hfactor
  · split
    · exact hfactor.trans (le_max_right _ _)
    · exact hfactor

theorem le_shortTermStability (hs : 0 < s) (hg : 3 ≤ g.value) : s ≤ cfg.shortTermStability s g := by
  rw [shortTermStability_eq, if_pos hg]
  exact le_mul_of_one_le_right hs.le (le_max_left _ _)

theorem leastStability_eq :
    cfg.leastStability = Real.exp (cfg.w 17 * (cfg.w 18 - 2) / cfg.w 19) := rfl

theorem leastStability_pos : 0 < cfg.leastStability := Real.exp_pos _

theorem shortTermFactor_again (hs : 0 < s) (h : cfg.Graded) :
    cfg.shortTermFactor s .again = (cfg.leastStability / s) ^ cfg.w 19 := by
  have hexp : cfg.w 17 * (((1 : ℤ) : ℝ) - 3 + cfg.w 18) =
      cfg.w 17 * (cfg.w 18 - 2) / cfg.w 19 * cfg.w 19 := by
    rw [div_mul_cancel₀ _ h.slowing.ne']
    push_cast
    ring
  rw [shortTermFactor_eq, Real.div_rpow leastStability_pos.le hs.le, leastStability_eq, ← Real.exp_mul,
    Real.rpow_neg hs.le, div_eq_mul_inv, ← hexp]
  rfl

theorem shortTermStability_again_le (h : cfg.Graded) (hs : cfg.leastStability ≤ s) :
    cfg.shortTermStability s .again ≤ s := by
  have hpos := leastStability_pos.trans_le hs
  rw [shortTermStability_eq, if_neg (by decide), shortTermFactor_again hpos h]
  refine mul_le_of_le_one_right hpos.le (Real.rpow_le_one ?_ ?_ h.slowing.le)
  · exact div_nonneg leastStability_pos.le hpos.le
  · exact (div_le_one hpos).mpr hs

theorem leastStability_le_shortTerm (h : cfg.Graded) (hs : cfg.leastStability ≤ s) (g : Grade) :
    cfg.leastStability ≤ cfg.shortTermStability s g := by
  have hpos := leastStability_pos.trans_le hs
  have hworst : Grade.value .again ≤ g.value := by cases g <;> decide
  refine le_trans ?_ (shortTermStability_mono h hpos hworst)
  rw [shortTermStability_eq, if_neg (by decide), shortTermFactor_again hpos h]
  -- the factor is no smaller than the ratio itself
  have hratio : cfg.leastStability / s ≤ (cfg.leastStability / s) ^ cfg.w 19 :=
    Real.self_le_rpow_of_le_one (div_nonneg leastStability_pos.le hpos.le)
      ((div_le_one hpos).mpr hs) h.slowing_le
  calc cfg.leastStability = s * (cfg.leastStability / s) := (mul_div_cancel₀ _ hpos.ne').symm
    _ ≤ s * (cfg.leastStability / s) ^ cfg.w 19 := mul_le_mul_of_nonneg_left hratio hpos.le

theorem shortTermStability_hard_lt (hstep : 0 < cfg.w 17) (hoffset : cfg.w 18 < 1)
    (h : cfg.Graded) (hs : 1 ≤ s) : cfg.shortTermStability s .hard < s := by
  have hpos : (0 : ℝ) < s := one_pos.trans_le hs
  have hexp : Real.exp (cfg.w 17 * ((Grade.hard.value : ℝ) - 3 + cfg.w 18)) < 1 := by
    refine Real.exp_lt_one_iff.mpr (mul_neg_of_pos_of_neg hstep ?_)
    have hvalue : (Grade.hard.value : ℝ) = 2 := by norm_num [Grade.value]
    linarith
  have hpow : s ^ (-cfg.w 19) ≤ 1 :=
    Real.rpow_le_one_of_one_le_of_nonpos hs (neg_nonpos.mpr h.slowing.le)
  rw [shortTermStability_eq, if_neg (by decide), shortTermFactor_eq]
  refine mul_lt_of_lt_one_right hpos ?_
  exact (mul_le_of_le_one_right (Real.exp_pos _).le hpow).trans_lt hexp

end HamZaboon.FsrsConfig
