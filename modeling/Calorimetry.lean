import Calorimetry.Main
import Calorimetry.Proofs.Tracking.Fit
import Calorimetry.Proofs.Tracking.Detection
import Calorimetry.Proofs.Calibration.Commands
import Calorimetry.Proofs.Calibration.Legs
import Calorimetry.Proofs.Scalar.Order
import Calorimetry.Proofs.Table
import Calorimetry.Proofs.Calibration.Accounting
import Calorimetry.Proofs.Calibration.Cancellation
import Calorimetry.Proofs.Calibration.Backing
import Calorimetry.Proofs.LineFit
import Calorimetry.Proofs.Tracking.Phases
import Calorimetry.Proofs.Calibration.Rig
import Calorimetry.Proofs.Calibration.LinearPlant
import Calorimetry.Proofs.Window.History
import Calorimetry.Proofs.Session.Moments
import Calorimetry.Proofs.Tracking.Positions
import Calorimetry.Proofs.Session.Endings
import Calorimetry.Proofs.Session.Delivery
import Calorimetry.Proofs.Session.Rounds
import Calorimetry.Proofs.Acquisition
import Calorimetry.Proofs.Tracking.Fates
import Calorimetry.Proofs.Tracking.Openings
import Calorimetry.Proofs.Session.Omission
import Calorimetry.Proofs.Tracking.Annotation
import Calorimetry.Proofs.Session.Refusals
import Calorimetry.Proofs.Tracking.Rendition
import Calorimetry.Proofs.Tracking.Translation
import Calorimetry.Proofs.LineFit.Amplification
import Calorimetry.Proofs.Tracking.Amplification
import Calorimetry.Proofs.Tracking.Strict
import Calorimetry.Proofs.Session.Clearing
import Calorimetry.Proofs.Duration
import Calorimetry.Proofs.Config
import Calorimetry.Proofs.Command.SelfCheck
import Calorimetry.Proofs.Files
import Calorimetry.Proofs.Files.Interruption
import Calorimetry.Proofs.LineFit.LeastSquares
import Calorimetry.Proofs.Simulator.Pacing
import Calorimetry.Proofs.TableFile.Saving
import Calorimetry.Proofs.Files.Path
import Calorimetry.Proofs.Decimal.Text
import Calorimetry.Proofs.Csv
import Calorimetry.Proofs.Text.Utf8
import Calorimetry.Proofs.TableFile.RoundTrip
import Calorimetry.Proofs.Tracking.LatestSlope
import Calorimetry.Proofs.LineFit.Rejection
import Calorimetry.Proofs.Tracking.Rejection
import Calorimetry.Proofs.Table.Interpolation
import Calorimetry.Proofs.Tracking.Minimum
import Calorimetry.Proofs.Tracking.Rise
import Calorimetry.Proofs.Scalar.Size
import Calorimetry.Proofs.Tracking.Showing
import Calorimetry.Proofs.Source.Averaged
import Calorimetry.Proofs.Calibration.Timing
import Calorimetry.Proofs.Scalar.Pattern
import Calorimetry.Proofs.Table.Faults
import Calorimetry.Proofs.Table.Sorting
import Calorimetry.Proofs.Calibration.Assembly
import Calorimetry.Proofs.Config.Points
import Calorimetry.Proofs.Simulator.Lag
import Calorimetry.Proofs.Simulator.Heaters
import Calorimetry.Proofs.Tracking.FiniteSlopes
