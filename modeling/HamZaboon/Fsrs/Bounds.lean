import HamZaboon.Fsrs.Core
import Mathlib.Tactic.Positivity
import Mathlib.Tactic.Linarith

/-! # Bounds of the engine

Difficulty stays between 1 and 10, stability stays positive, and an interval is
the stability, floored and capped.  Under these bounds the formulas with partial
arithmetic are defined and agree with the others.  `LawfulElementary` is what is
needed of `exp` and `**`.
-/

namespace HamZaboon

/-- The laws of `exp` and `**` on positive bases. -/
class LawfulElementary (K : Type) [Field K] [LinearOrder K] [Elementary K] : Prop where
  exp_pos : ∀ x : K, 0 < Elementary.exp x
  pow_pos : ∀ x y : K, 0 < x → 0 < Elementary.pow x y
  one_lt_pow : ∀ x y : K, 0 < x → x < 1 → y < 0 → 1 < Elementary.pow x y

variable {K : Type} [Field K] [LinearOrder K]

theorem div?_eq {a b : K} (h : b ≠ 0) : div? a b = some (a / b) := if_neg h

theorem floored_pos [IsStrictOrderedRing K] (s : K) : 0 < max 0.1 s :=
  lt_max_of_lt_left (by norm_num)

theorem exponent_neg [IsStrictOrderedRing K] {w20 : K} (h : 0 < w20) : -1 / w20 < 0 :=
  div_neg_of_neg_of_pos (by norm_num) h

theorem FsrsConfig.w20_default_pos [IsStrictOrderedRing K] :
    0 < (FsrsConfig.default : FsrsConfig K).w 20 := by
  show (0 : K) < 0.1542
  norm_num

variable [Elementary K]

theorem pow?_eq {x y : K} (h : 0 < x) : pow? x y = some (Elementary.pow x y) := if_pos h

namespace FsrsConfig
variable (cfg : FsrsConfig K)

/-! ## Bounds without laws -/

theorem one_le_initialDifficulty (g : Grade) : 1 ≤ cfg.initialDifficulty g := le_max_left _ _

theorem one_le_updateDifficulty (d : K) (g : Grade) : 1 ≤ cfg.updateDifficulty d g :=
  le_max_left _ _

theorem shortTermStability?_eq {s : K} (hs : 0 < s) (g : Grade) :
    cfg.shortTermStability? s g = some (cfg.shortTermStability s g) := by
  unfold shortTermStability? shortTermStability
  rw [pow?_eq hs]
  rfl

section Ordered
variable [IsStrictOrderedRing K]

theorem initialDifficulty_le_ten (g : Grade) : cfg.initialDifficulty g ≤ 10 :=
  max_le (by norm_num) (min_le_left _ _)

theorem updateDifficulty_le_ten (d : K) (g : Grade) : cfg.updateDifficulty d g ≤ 10 :=
  max_le (by norm_num) (min_le_left _ _)

theorem updateDifficulty?_eq (d : K) (g : Grade) :
    cfg.updateDifficulty? d g = some (cfg.updateDifficulty d g) := by
  unfold updateDifficulty? updateDifficulty
  dsimp only
  rw [div?_eq (by norm_num)]
  rfl

theorem updateStability_pos (d s r : K) (g : Grade) : 0 < cfg.updateStability d s r g := by
  unfold updateStability
  split
  · dsimp only
    split
    · exact lt_max_of_lt_left (by norm_num)
    · exact lt_max_of_lt_left (by norm_num)
  · exact mul_pos (floored_pos s) (lt_max_of_lt_left one_pos)

theorem computeFactor?_eq {w20 : K} (h : 0 < w20) :
    computeFactor? w20 = some (computeFactor w20) := by
  unfold computeFactor? computeFactor
  rw [div?_eq h.ne', Option.bind_eq_bind, Option.bind_some, pow?_eq (by norm_num)]
  rfl

end Ordered

/-! ## The laws at work -/

variable [IsStrictOrderedRing K] [LawfulElementary K]

theorem shortTermStability_pos {s : K} (hs : 0 < s) (g : Grade) :
    0 < cfg.shortTermStability s g := by
  have hinc : 0 < Elementary.exp (cfg.w 17 * ((g.value : K) - 3 + cfg.w 18)) *
      Elementary.pow s (-cfg.w 19) :=
    mul_pos (LawfulElementary.exp_pos _) (LawfulElementary.pow_pos _ _ hs)
  refine mul_pos hs ?_
  split
  · exact lt_max_of_lt_left one_pos
  · exact hinc

theorem updateStability?_eq {d : K} (hd : 1 ≤ d) (s r : K) (g : Grade) :
    cfg.updateStability? d s r g = some (cfg.updateStability d s r g) := by
  have hs := floored_pos s
  unfold updateStability? updateStability
  by_cases hg : g = .again
  · simp only [if_pos hg]
    unfold lapseStability?
    rw [pow?_eq (one_pos.trans_le hd), pow?_eq (add_pos hs one_pos),
      div?_eq (LawfulElementary.exp_pos _).ne']
    by_cases hshort : cfg.enableShortTerm = true
    · simp [hshort]
    · simp [hshort]
  · simp only [if_neg hg]
    unfold successStability?
    rw [pow?_eq hs]
    rfl

variable {cfg}

theorem computeFactor_pos {w20 : K} (h : 0 < w20) : 0 < computeFactor w20 := by
  have hpow := LawfulElementary.one_lt_pow (0.9 : K) (-1 / w20) (by norm_num) (by norm_num)
    (exponent_neg h)
  exact sub_pos.mpr hpow

theorem computeRetrievability?_eq (hw : 0 < cfg.w 20) (t s : K) :
    cfg.computeRetrievability? t s = some (cfg.computeRetrievability t s) := by
  have hs := floored_pos s
  have hratio : 0 ≤ computeFactor (cfg.w 20) * max 0 t / max 0.1 s :=
    div_nonneg (mul_nonneg (computeFactor_pos hw).le (le_max_left _ _)) hs.le
  unfold computeRetrievability? computeRetrievability
  simp only [computeFactor?_eq hw, Option.bind_eq_bind, Option.bind_some, div?_eq hs.ne']
  exact pow?_eq (add_pos_of_pos_of_nonneg one_pos hratio)

theorem computeInterval?_eq (hw : 0 < cfg.w 20) (s : K) :
    cfg.computeInterval? s none = some (cfg.computeInterval s none) := by
  unfold computeInterval? computeInterval
  simp only [computeFactor?_eq hw, Option.bind_eq_bind, Option.bind_some, div?_eq hw.ne']
  rw [pow?_eq (by norm_num)]
  simp only [Option.bind_some, div?_eq (computeFactor_pos hw).ne']

theorem computeInterval_eq (hw : 0 < cfg.w 20) (s : K) :
    cfg.computeInterval s none = min (max 0.1 s) cfg.maximumInterval := by
  have hfactor := (computeFactor_pos hw).ne'
  show min (max 0.1 s * computeFactor (cfg.w 20) / computeFactor (cfg.w 20)) _ = _
  rw [mul_div_assoc, div_self hfactor, mul_one]

end FsrsConfig

end HamZaboon
