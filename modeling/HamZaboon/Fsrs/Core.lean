import Mathlib.Algebra.Order.Floor.Defs
import Mathlib.Data.Fin.VecNotation
import Mathlib.Tactic.NormNum

/-! # The FSRS-6 engine

`services/fsrs_core.py` over any ordered field with the two elementary functions
it calls.  A configuration carries the twenty-one weights; every function takes
it as its first argument and `FsrsConfig.default` is `DEFAULT_FSRS_CONFIG`.
-/

namespace HamZaboon

/-- `math.exp` and `**` on the numbers the engine computes with. -/
class Elementary (K : Type) where
  exp : K → K
  pow : K → K → K

/-- The two functions to first order around 1: what runs on rational numbers
compute with. -/
@[reducible] def Elementary.firstOrder (K : Type) [Field K] : Elementary K where
  exp x := 1 + x
  pow x y := 1 + y * (x - 1)

inductive Grade
  | again
  | hard
  | good
  | easy
  deriving DecidableEq, Repr

def Grade.value : Grade → Int
  | .again => 1
  | .hard => 2
  | .good => 3
  | .easy => 4

/-- The grade of an integer; `GRADE_POLICIES` and `_validate_grade` know four. -/
def Grade.ofInt : Int → Option Grade
  | 1 => some .again
  | 2 => some .hard
  | 3 => some .good
  | 4 => some .easy
  | _ => none

structure FsrsConfig (K : Type) where
  w : Fin 21 → K
  firstExposureStability : Grade → K
  maximumInterval : K
  enableShortTerm : Bool

variable {K : Type} [Field K] [LinearOrder K] [Elementary K]

/-- `FIRST_EXPOSURE_STABILITY`. -/
def familiarityStability : Grade → K
  | .again => 0.212
  | .hard => 1.5
  | .good => 3
  | .easy => 12

/-- `DEFAULT_FSRS_CONFIG`. -/
def FsrsConfig.default : FsrsConfig K where
  w := ![0.212, 1.2931, 2.3065, 8.2956, 6.4133, 0.8334, 3.0194, 0.001, 1.8722, 0.1666, 0.796,
    1.4835, 0.0614, 0.2629, 1.6483, 0.6014, 1.8729, 0.5425, 0.0912, 0.0658, 0.1542]
  firstExposureStability := familiarityStability
  maximumInterval := 365
  enableShortTerm := true

namespace FsrsConfig
variable (cfg : FsrsConfig K)

def computeFactor (w20 : K) : K := Elementary.pow 0.9 (-1 / w20) - 1

def computeRetrievability (elapsedDays stability : K) : K :=
  let s := max 0.1 stability
  let t := max 0 elapsedDays
  Elementary.pow (1 + computeFactor (cfg.w 20) * t / s) (-cfg.w 20)

def computeInterval (stability : K) (desiredRetention : Option K) : K :=
  let s := max 0.1 stability
  let r := desiredRetention.getD 0.9
  let inv := Elementary.pow r (-1 / cfg.w 20) - 1
  min (s * inv / computeFactor (cfg.w 20)) cfg.maximumInterval

def initialStabilityFirstExposure (grade : Grade) : K := cfg.firstExposureStability grade

def initialDifficulty (grade : Grade) : K :=
  let d0 := cfg.w 4 - Elementary.exp (cfg.w 5 * ((grade.value : K) - 1)) + 1
  max 1 (min 10 d0)

def updateDifficulty (d : K) (grade : Grade) : K :=
  let deltaD := -cfg.w 6 * ((grade.value : K) - 3)
  let dDamped := d + deltaD * (10 - d) / 9
  let dReverted := cfg.w 7 * cfg.initialDifficulty .easy + (1 - cfg.w 7) * dDamped
  max 1 (min 10 dReverted)

def updateStability (d s r : K) (grade : Grade) : K :=
  let s := max 0.1 s
  if grade = .again then
    let sNew := cfg.w 11 * Elementary.pow d (-cfg.w 12) *
      (Elementary.pow (s + 1) (cfg.w 13) - 1) * Elementary.exp (cfg.w 14 * (1 - r))
    if cfg.enableShortTerm then
      max 0.01 (min sNew (s / Elementary.exp (cfg.w 17 * cfg.w 18)))
    else max 0.1 (min sNew s)
  else
    let hardPenalty := if grade = .hard then cfg.w 15 else 1
    let easyBonus := if grade = .easy then cfg.w 16 else 1
    let sInc := 1 + Elementary.exp (cfg.w 8) * (11 - d) * Elementary.pow s (-cfg.w 9) *
      (Elementary.exp (cfg.w 10 * (1 - r)) - 1) * hardPenalty * easyBonus
    s * max 1 sInc

def shortTermStability (s : K) (grade : Grade) : K :=
  let sInc := Elementary.exp (cfg.w 17 * ((grade.value : K) - 3 + cfg.w 18)) *
    Elementary.pow s (-cfg.w 19)
  s * (if 3 ≤ grade.value then max 1 sInc else sInc)

/-! ## Parts of the formulas -/

/-- The exponent of the forgetting curve. -/
def decay : K := cfg.w 20

/-- The interval before `maximum_interval` caps it. -/
def uncappedInterval (stability desiredRetention : K) : K :=
  max 0.1 stability * (Elementary.pow desiredRetention (-1 / cfg.w 20) - 1) /
    computeFactor (cfg.w 20)

/-- What a success adds to the factor 1, before the grade counts. -/
def gain (d s r : K) : K :=
  Elementary.exp (cfg.w 8) * (11 - d) * Elementary.pow s (-cfg.w 9) *
    (Elementary.exp (cfg.w 10 * (1 - r)) - 1)

/-- `hard_penalty * easy_bonus`. -/
def modifier (grade : Grade) : K :=
  (if grade = .hard then cfg.w 15 else 1) * (if grade = .easy then cfg.w 16 else 1)

/-- The factor of the short-term formula, before a success is kept from lowering. -/
def shortTermFactor (s : K) (grade : Grade) : K :=
  Elementary.exp (cfg.w 17 * ((grade.value : K) - 3 + cfg.w 18)) * Elementary.pow s (-cfg.w 19)

/-- The stability at which a short-term `again` changes nothing. -/
def leastStability : K := Elementary.exp (cfg.w 17 * (cfg.w 18 - 2) / cfg.w 19)

end FsrsConfig

/-! ## Partial arithmetic

The formulas once more, with `/` and `**` as Python evaluates them: a zero divisor
raises, and so does a zero base under a negative exponent, while a negative base
leaves the real numbers.  A formula that is defined here evaluates neither.
-/

/-- `a / b`, where it does not raise. -/
def div? (a b : K) : Option K := if b = 0 then none else some (a / b)

/-- `x ** y`, on a positive base. -/
def pow? (x y : K) : Option K := if 0 < x then some (Elementary.pow x y) else none

namespace FsrsConfig
variable (cfg : FsrsConfig K)

def computeFactor? (w20 : K) : Option K := do
  let exponent ← div? (-1) w20
  let power ← pow? 0.9 exponent
  some (power - 1)

def computeRetrievability? (elapsedDays stability : K) : Option K := do
  let s := max 0.1 stability
  let t := max 0 elapsedDays
  let factor ← computeFactor? (cfg.w 20)
  let ratio ← div? (factor * t) s
  pow? (1 + ratio) (-cfg.w 20)

def computeInterval? (stability : K) (desiredRetention : Option K) : Option K := do
  let s := max 0.1 stability
  let r := desiredRetention.getD 0.9
  let factor ← computeFactor? (cfg.w 20)
  let exponent ← div? (-1) (cfg.w 20)
  let power ← pow? r exponent
  let interval ← div? (s * (power - 1)) factor
  some (min interval cfg.maximumInterval)

def updateDifficulty? (d : K) (grade : Grade) : Option K := do
  let deltaD := -cfg.w 6 * ((grade.value : K) - 3)
  let damping ← div? (deltaD * (10 - d)) 9
  let dReverted := cfg.w 7 * cfg.initialDifficulty .easy + (1 - cfg.w 7) * (d + damping)
  some (max 1 (min 10 dReverted))

/-- `update_stability`, after a lapse. -/
def lapseStability? (d s r : K) : Option K := do
  let difficulty ← pow? d (-cfg.w 12)
  let growth ← pow? (s + 1) (cfg.w 13)
  let sNew := cfg.w 11 * difficulty * (growth - 1) * Elementary.exp (cfg.w 14 * (1 - r))
  if cfg.enableShortTerm then do
    let upper ← div? s (Elementary.exp (cfg.w 17 * cfg.w 18))
    some (max 0.01 (min sNew upper))
  else some (max 0.1 (min sNew s))

/-- `update_stability`, after a success. -/
def successStability? (d s r : K) (grade : Grade) : Option K := do
  let hardPenalty := if grade = .hard then cfg.w 15 else 1
  let easyBonus := if grade = .easy then cfg.w 16 else 1
  let decay ← pow? s (-cfg.w 9)
  let sInc := 1 + Elementary.exp (cfg.w 8) * (11 - d) * decay *
    (Elementary.exp (cfg.w 10 * (1 - r)) - 1) * hardPenalty * easyBonus
  some (s * max 1 sInc)

def updateStability? (d s r : K) (grade : Grade) : Option K :=
  let s := max 0.1 s
  if grade = .again then cfg.lapseStability? d s r else cfg.successStability? d s r grade

def shortTermStability? (s : K) (grade : Grade) : Option K := do
  let decay ← pow? s (-cfg.w 19)
  let sInc := Elementary.exp (cfg.w 17 * ((grade.value : K) - 3 + cfg.w 18)) * decay
  some (s * (if 3 ≤ grade.value then max 1 sInc else sInc))

end FsrsConfig

/-- Python's `round`: to the nearest integer, ties to the even one. -/
def roundHalfEven [FloorRing K] (x : K) : Int :=
  let below := ⌊x⌋
  let rest := x - below
  if rest < 1 / 2 then below
  else if 1 / 2 < rest then below + 1
  else if below % 2 = 0 then below else below + 1

end HamZaboon
