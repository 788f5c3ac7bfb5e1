import Arm2D.Commands
import Arm2D.InverseKinematics
import Arm2D.Startup

/-! # The last motions on the wire

Only `move_by_command` keeps the record of the arm. Where a session moves the arm by it alone,
the last motions on the wire are those to the recorded steps. -/
namespace Arm2D
open Library Relation

section motions
variable {R : Type} [Field R] [LinearOrder R] [FloorRing R] [Libm R] [PiConstant R]
variable {g : ArmParameters R}

theorem Operations.mono {S S' : ℕ → ℤ → Prop} (hS : ∀ i n, S i n → S' i n) {s s' : System g}
    (h : Operations S s s') : Operations S' s s' := by
  induction h with
  | refl => exact .refl
  | tail _ hstep ih =>
    cases hstep with
    | drive hcalls =>
      refine ih.trans (Operations.of_calls (hcalls.mono fun i c hc => ?_))
      cases c with
      | runAction actionKey => exact hc
      | stepNMotion nSteps => exact ⟨hc.1, hS i nSteps hc.2⟩
      | checkStatus checkNoisy => exact hc
      | currentRotation => exact hc
    | move hmove => exact ih.trans (Operations.of_move hmove)

/-- What was recorded last is what was sent last, and nothing was sent anywhere since. -/
structure SentLast (s s' : System g) (before after : SerialPort) : Prop where
  recorded : ∃ c : ArmConfiguration g, c.startRadius = s.armConstruct.startRadius ∧
    s'.armConstruct = c.setTarget s'.currentX s'.currentY
  front : MotorDriver.Writes (s.drives.Line (operatorCall anySteps)) s.drives.useSimulations
    s.drives.serialPort before
  motions : MotorDriver.Sends
    (s.drives.motionLines 0 s'.armConstruct.canisterCurrentSteps ++
      s.drives.motionLines 1 s'.armConstruct.elbowCurrentSteps)
    s.drives.useSimulations before after
  rest : MotorDriver.Writes (s.drives.Line (operatorCall noSteps)) s.drives.useSimulations after
    s'.drives.serialPort

/-- Either nothing was moved, or the record is what was sent last. -/
theorem Operations.sentLast {s s' : System g} (hidle : s.drives.Idle)
    (h : Operations noSteps s s') :
    (s'.armConstruct, s'.currentX, s'.currentY) = (s.armConstruct, s.currentX, s.currentY) ∧
        MotorDriver.Writes (s.drives.Line (operatorCall noSteps)) s.drives.useSimulations
          s.drives.serialPort s'.drives.serialPort ∨
      ∃ before after, SentLast s s' before after := by
  induction h with
  | refl => exact Or.inl ⟨rfl, .refl _ _ _⟩
  | @tail t t' hbefore hstep ih =>
    have hany : Operations anySteps s t := Operations.mono (fun _ _ _ => trivial) hbefore
    have hcalls := hany.calls (movesWithin_anySteps g _)
    obtain ⟨hconfigs, hsimulations⟩ := hcalls.configs
    cases hstep with
    | drive hquiet =>
      have hwrites := hquiet.writes (hcalls.idle hidle)
      rw [hsimulations] at hwrites
      have hrest := hwrites.mono fun _ => Drives.Line.of_configs hconfigs
      rcases ih with ⟨hsame, hquiet'⟩ | ⟨before, after, hsent⟩
      · exact Or.inl ⟨hsame, hquiet'.trans hrest⟩
      · exact Or.inr ⟨before, after, { hsent with rest := hsent.rest.trans hrest }⟩
    | move hmove =>
      obtain ⟨port, hsends, hwrites⟩ := System.moveByCommand_sends (hcalls.idle hidle) hmove
      obtain ⟨harm, hx, hy⟩ := System.moveByCommand_spec hmove
      rw [hsimulations, Drives.motionLines_of_configs hconfigs] at hsends
      rw [hsimulations] at hwrites
      refine Or.inr ⟨t.drives.serialPort, port, ⟨t.armConstruct, hany.startRadius, ?_⟩,
        hcalls.writes hidle, hsends, hwrites.mono fun _ => Drives.Line.of_configs hconfigs⟩
      rw [harm, hx, hy]

end motions

/-- The commands that send the drives to points only. -/
def movesToPoints (command : Str) : Prop :=
  command ≠ "SPD".toList ∧ command ≠ "SPR".toList ∧ command ≠ "HOME".toList

end Arm2D
