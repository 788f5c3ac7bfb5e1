import Arm2D.ComposedTransforms
import Arm2D.Definedness
import Arm2D.DescriptorMap
import Arm2D.ElbowSweep
import Arm2D.GearRoundTrip
import Arm2D.LastMotion
import Arm2D.Program
import Arm2D.QuasiUrlRoundTrip
import Arm2D.RecordedPosition
import Arm2D.RelativeSteps
import Arm2D.Sightings
import Arm2D.Status
import Arm2D.SweepTermination
