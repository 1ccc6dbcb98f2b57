import BoulderFrame.Library.Numerals
import Mathlib.Algebra.Field.Basic
import Mathlib.Algebra.Order.Field.Basic
import Mathlib.Tactic.NormNum

/-!
# The framing vocabulary of the task protocol

## Main definitions

* `AspectRatio`, `AspectRatio.valueFloat`: the output formats and their width over height
* `FramingProfile`: how tightly the athlete is framed
* `AspectRatio.value`, `FramingProfile.value`: their names in the protocol
* `Protocol.TargetSelection`, `Protocol.OutputSettings`: what a job asks for
-/

namespace BoulderFrame

inductive AspectRatio
  | landscape
  | portrait
  deriving DecidableEq, Repr

inductive FramingProfile
  | tight
  | balanced
  | safe
  | fullMovement
  deriving DecidableEq, Repr

def AspectRatio.value : AspectRatio → String
  | .landscape => "16:9"
  | .portrait => "9:16"

def FramingProfile.value : FramingProfile → String
  | .tight => "tight"
  | .balanced => "balanced"
  | .safe => "safe"
  | .fullMovement => "full_movement"

variable {K : Type} [Field K]

/-- Width over height. -/
def AspectRatio.valueFloat : AspectRatio → K
  | .landscape => 16 / 9
  | .portrait => 9 / 16

theorem AspectRatio.valueFloat_pos [LinearOrder K] [IsStrictOrderedRing K] (a : AspectRatio) :
    0 < (a.valueFloat : K) := by
  cases a <;> simp only [valueFloat] <;> positivity

/-- `PROFILE_TARGET_HEIGHT_FRACTIONS`: detected athlete height over crop height. -/
def FramingProfile.targetHeightFraction : FramingProfile → K
  | .tight => 0.60
  | .balanced => 0.50
  | .safe => 0.40
  | .fullMovement => 0.33

theorem FramingProfile.targetHeightFraction_pos [LinearOrder K] [IsStrictOrderedRing K]
    (p : FramingProfile) : 0 < (p.targetHeightFraction : K) := by
  cases p <;> simp only [targetHeightFraction] <;> norm_num

namespace Protocol

/-- A tap on a frame, in fractions of its size. -/
structure TargetSelection (K : Type) where
  frameTimeMs : ℤ
  normalizedX : K
  normalizedY : K

structure OutputSettings where
  aspectRatio : AspectRatio
  profile : FramingProfile

end Protocol

end BoulderFrame
