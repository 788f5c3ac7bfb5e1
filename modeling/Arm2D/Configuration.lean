import Arm2D.Numbers

/-! # The arm's configuration

`class Arm_Configuration` of m_commands.xpp: the angles and the step counts that place
the tip at a point of the plane. Printing is left out, and so are the fields that no
method reads or writes again. -/
namespace Arm2D
open Library

/-- The global parameters that `initialize_all` reads before it builds the arm. -/
structure ArmParameters (R : Type) where
  canisterRadius : R
  arm1Length : R
  arm2Length : R
  canisterStep : ℕ
  elbowStep : ℕ
  deriving DecidableEq, Repr

variable {R : Type} [Field R] [LinearOrder R] [FloorRing R] [Libm R] [PiConstant R]

namespace ArmParameters

/-- Shoulder to elbow. -/
def link1 (g : ArmParameters R) : R := g.arm1Length + g.canisterRadius

/-- Elbow to tip. -/
def link2 (g : ArmParameters R) : R := g.arm2Length

end ArmParameters

/-- The object's fields. Those that only the constructor writes carry their value. -/
structure ArmConfiguration (g : ArmParameters R) where
  targetX : R
  targetY : R
  theta : R
  alpha : R
  baseRadius : R
  maxR : R
  beta : R
  canisterDelta : R
  elbowDelta : R
  epsilon : R
  canisterCurrentSteps : ℤ
  elbowCurrentSteps : ℤ
  canisterPrevSteps : ℤ
  elbowPrevSteps : ℤ
  startAngle : R
  startRadius : R
  canisterOriginSteps : ℤ
  canisterRadialDelta : R
  elbowRadialDelta : R
  maxR_eq : maxR = g.arm1Length + g.arm2Length + g.canisterRadius
  epsilon_eq : epsilon = 0.005
  canisterDelta_eq : canisterDelta = g.canisterStep / twoPi
  elbowDelta_eq : elbowDelta = g.elbowStep / twoPi
  canisterRadialDelta_eq : canisterRadialDelta = 1 / canisterDelta
  elbowRadialDelta_eq : elbowRadialDelta = 1 / elbowDelta

namespace ArmConfiguration
variable {g : ArmParameters R}

/-- The constructor. The arguments are what the memory holds in the fields that it
leaves uninitialised. -/
def construct (g : ArmParameters R) (beta startAngle startRadius : R)
    (canisterOriginSteps : ℤ) : ArmConfiguration g where
  targetX := 0
  targetY := 0
  theta := 0
  alpha := 0
  baseRadius := 0
  maxR := g.arm1Length + g.arm2Length + g.canisterRadius
  beta := beta
  canisterDelta := g.canisterStep / twoPi
  elbowDelta := g.elbowStep / twoPi
  epsilon := 0.005
  canisterCurrentSteps := 0
  elbowCurrentSteps := 0
  canisterPrevSteps := 0
  elbowPrevSteps := 0
  startAngle := startAngle
  startRadius := startRadius
  canisterOriginSteps := canisterOriginSteps
  canisterRadialDelta := 1 / (g.canisterStep / twoPi)
  elbowRadialDelta := 1 / (g.elbowStep / twoPi)
  maxR_eq := rfl
  epsilon_eq := rfl
  canisterDelta_eq := rfl
  elbowDelta_eq := rfl
  canisterRadialDelta_eq := rfl
  elbowRadialDelta_eq := rfl

def elbowAngle (c : ArmConfiguration g) : R := c.beta

def baseAngle (c : ArmConfiguration g) : R := c.alpha + c.theta

def rotationToCartesian (c : ArmConfiguration g) (rad1 rad2 : R) : R × R :=
  let theta1 := rad1 * c.canisterRadialDelta
  let theta2 := rad2 * c.elbowRadialDelta
  let gama := PI - theta1 - theta2
  let l1 := g.canisterRadius + g.arm1Length
  let x1 := l1 * Libm.cos theta1
  let x2 := l1 * Libm.sin theta1
  let y1 := g.arm2Length * Libm.cos gama
  let y2 := g.arm2Length * Libm.sin gama
  (y1 + x1, y2 + x2)

def toCircular (c : ArmConfiguration g) : Logged (MathCall R) (ArmConfiguration g) := do
  let c := { c with baseRadius := Libm.sqrt (c.targetX * c.targetX + c.targetY * c.targetY) }
  if c.baseRadius = 0 then
    return { c with theta := 0 }
  else
    let cosTheta ← quotient c.targetX c.baseRadius
    let theta ← acosOf cosTheta
    if c.targetY < 0 then
      return { c with theta := twoPi - theta }
    else
      return { c with theta := theta }

/-- The three reference parameters of `sides_to_angles`. -/
structure Angles (R : Type) where
  angleAC : R
  angleBC : R
  angleAB : R

def sidesToAngles (A B base : R) : Logged (MathCall R) (Angles R) := do
  let C := base
  let x ← quotient (A * A - B * B + C * C) (2 * C)
  let cosAC ← quotient x A
  let angleAC ← acosOf cosAC
  let cosBC ← quotient (C - x) B
  let angleBC ← acosOf cosBC
  return ⟨angleAC, angleBC, PI - angleAC - angleBC⟩

/-- `canister_steps`; nobody uses its result. -/
def canisterSteps (c : ArmConfiguration g) : ArmConfiguration g :=
  let rotation := c.alpha + c.theta
  let fsteps := rotation * c.canisterDelta
  { c with
    canisterPrevSteps := c.canisterCurrentSteps
    canisterCurrentSteps := -⌊fsteps⌋ }

/-- `elbow_steps`; nobody uses its result. -/
def elbowSteps (c : ArmConfiguration g) : ArmConfiguration g :=
  let rotation := c.beta
  let fsteps := rotation * c.elbowDelta
  { c with
    elbowPrevSteps := c.elbowCurrentSteps
    elbowCurrentSteps := -⌊fsteps⌋ }

def handlePointOutOfRange (c : ArmConfiguration g) : ArmConfiguration g :=
  { c with canisterCurrentSteps := 0, elbowCurrentSteps := 0 }

/-- The three triangle cases of `set_target`, for a radius that is in range. -/
def solveTriangle (c : ArmConfiguration g) : Logged (MathCall R) (ArmConfiguration g) :=
  if g.arm1Length + g.canisterRadius ≤ c.baseRadius then do
    -- CASE A: the vector to the target is the long side.
    let angles ← sidesToAngles (g.arm1Length + g.canisterRadius) g.arm2Length c.baseRadius
    return { c with alpha := angles.angleAC, beta := angles.angleAB }
  else if g.arm2Length < c.baseRadius then do
    -- CASE B: the upper arm is the long side; whether the links reach is not asked.
    let angles ← sidesToAngles g.arm2Length c.baseRadius (g.arm1Length + g.canisterRadius)
    return { c with alpha := angles.angleBC, beta := angles.angleAC }
  else if g.arm2Length + c.baseRadius ≤ g.arm1Length + g.canisterRadius then
    -- CASE C, the target inside the inner disc: the arm is folded.
    return { c with alpha := 0, beta := 0 }
  else do
    let angles ← sidesToAngles g.arm2Length c.baseRadius (g.arm1Length + g.canisterRadius)
    return { c with alpha := angles.angleBC, beta := angles.angleAC }

/-- `set_target`, with the arc-cosines and divisions that it evaluates. -/
def setTargetLogged (c : ArmConfiguration g) (x y : R) :
    Logged (MathCall R) (ArmConfiguration g) := do
  let c ← toCircular { c with targetX := x, targetY := y }
  let c := if c.startRadius > c.baseRadius then { c with baseRadius := c.startRadius } else c
  if c.maxR - c.epsilon < c.baseRadius then
    return c.handlePointOutOfRange
  else
    let c ← c.solveTriangle
    return c.canisterSteps.elbowSteps

def setTarget (c : ArmConfiguration g) (x y : R) : ArmConfiguration g :=
  (c.setTargetLogged x y).val

/-- The second assignment of the source is to `_canister_origin_steps` again. -/
def setMininumRadiusLogged (c : ArmConfiguration g) (radius : R) :
    Logged (MathCall R) (ArmConfiguration g) := do
  let c := { c with startRadius := radius, startAngle := 0 }
  let c ← c.setTargetLogged c.startRadius 0
  let c := { c with canisterOriginSteps := c.canisterCurrentSteps }
  return { c with canisterOriginSteps := c.elbowCurrentSteps }

def setMininumRadius (c : ArmConfiguration g) (radius : R) : ArmConfiguration g :=
  (c.setMininumRadiusLogged radius).val

def canisterRelativeSteps (c : ArmConfiguration g) : ℤ :=
  c.canisterCurrentSteps - c.canisterPrevSteps

def elbowRelativeSteps (c : ArmConfiguration g) : ℤ :=
  c.elbowCurrentSteps - c.elbowPrevSteps

end ArmConfiguration
end Arm2D
