import BoulderFrame.Arithmetic.Elementary

/-!
# The motion of one component

The controller moves each of its three components (the crop center on two axes, and the logarithm
of the crop height) by phases of constant acceleration. A component without a target brakes to
rest. A component with a target first brakes when it moves away from the target or too fast to
stop there, and then accelerates, cruises and brakes so as to come to rest at the target.

## Main definitions

* `approach`: the accelerate, cruise and brake profile toward a target
* `advanceMotion`: one update of a component
-/

namespace BoulderFrame

variable {K : Type} [Field K] [LinearOrder K] [Elementary K]

/-- The triangular or trapezoidal velocity profile that ends at rest at the target. -/
def approach (position velocity target dt maxSpeed acceleration : K) : K × K :=
  let distance := target - position
  if distance = 0 ∧ velocity = 0 then (target, 0)
  else
    let direction := copysign 1 distance
    let distance := |distance|
    let speed := velocity * direction
    let peak := min maxSpeed (Elementary.sqrt (acceleration * distance + speed * speed / 2))
    let accelerateTime := max 0 ((peak - speed) / acceleration)
    if dt < accelerateTime then
      (position + direction * (speed * dt + acceleration * dt * dt / 2),
        direction * (speed + acceleration * dt))
    else
      let accelerationDistance := (speed + peak) * accelerateTime / 2
      let position := position + direction * accelerationDistance
      let dt := dt - accelerateTime
      let cruiseDistance :=
        max 0 (distance - accelerationDistance - peak * peak / (2 * acceleration))
      let cruiseTime := if peak ≠ 0 then cruiseDistance / peak else 0
      if dt < cruiseTime then (position + direction * peak * dt, direction * peak)
      else
        let position := position + direction * cruiseDistance
        let dt := dt - cruiseTime
        if dt < peak / acceleration then
          (position + direction * (peak * dt - acceleration * dt * dt / 2),
            direction * (peak - acceleration * dt))
        else (target, 0)

/-- Without a target a component that is not braking keeps its position and velocity. -/
def settle (position velocity : K) (target : Option K) (dt maxSpeed acceleration : K) : K × K :=
  match target with
  | none => (position, velocity)
  | some target => approach position velocity target dt maxSpeed acceleration

/-- `_advance_motion`: position and velocity after `dt` seconds. The callers pass positive
`maxSpeed` and `acceleration`, so no division here is by zero and no square root is of a negative
number. -/
def advanceMotion (position velocity : K) (target : Option K) (dt maxSpeed acceleration : K) :
    K × K :=
  let distance := target.elim 0 (· - position)
  if velocity ≠ 0 ∧ (target = none ∨ velocity * distance ≤ 0 ∨
      velocity * velocity / (2 * acceleration) > |distance|) then
    let stopTime := |velocity| / acceleration
    let elapsed := min dt stopTime
    let braking := -copysign acceleration velocity
    let position := position + (velocity * elapsed + braking * elapsed * elapsed / 2)
    if dt < stopTime then (position, velocity + braking * elapsed)
    else settle position 0 target (dt - stopTime) maxSpeed acceleration
  else settle position velocity target dt maxSpeed acceleration

end BoulderFrame
