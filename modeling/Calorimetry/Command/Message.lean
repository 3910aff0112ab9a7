import Calorimetry.Command.Measure
import Calorimetry.Command.SelfCheck

/-! What the tasks print, as text and as JSON. -/

namespace Calorimetry.Command
open Text

inductive Message where
  | checked (result : SelfCheck)
  | pulse (p : LocatedPulse Float)
  | summary (m : Measured)
  | table (points : List (Point Float))
  | saved (path : String)

def column (width places : Nat) (x : Float) : String :=
  String.ofList (Decimal.alignRight width (Decimal.fixed places x))

private def heading (width : Nat) (s : String) : String :=
  String.ofList (Decimal.alignRight width s.toList)

def pulseText (p : Pulse Float) : String :=
  let start := column 8 3 p.start.seconds
  let length := column 0 3 p.length.seconds
  let slope := column 0 6 p.slope
  let power := match p.power with
    | some mw => column 0 2 mw ++ " mW"
    | none => "n/a (no calibration)"
  s!"pulse at {start} s  duration {length} s  slope {slope} V/s  power {power}"

def tableText (points : List (Point Float)) : String :=
  let row (p : Point Float) : String := column 14 6 p.slope ++ "  " ++ column 12 3 p.power
  "\n".intercalate ((heading 14 "slope (V/s)" ++ "  " ++ heading 12 "power (mW)") :: points.map row)

def Message.text : Message → String
  | checked r => s!"self-check ok: {r.points} calibration point(s), {r.samples} sample(s) read"
  | pulse p => pulseText p.pulse
  | summary m =>
    let elapsed := column 0 1 m.elapsed.seconds
    s!"measured {m.samples} samples in {elapsed} s: {m.pulses.length} pulse(s), " ++
      s!"{m.anomalies} skipped sample(s)"
  | table points => tableText points
  | saved path => s!"saved to {path}"

def pulseJson (p : Pulse Float) : String :=
  Json.object [
    ("event", Json.text "pulse"),
    ("start_s", Json.number p.start.seconds),
    ("duration_s", Json.number p.length.seconds),
    ("slope", Json.number p.slope),
    ("power_mw", (p.power.map Json.number).getD Json.null),
    ("integrated", Json.number p.rise),
    ("degenerate", Json.boolean p.degenerate)]

/-- The line of a message for a program, to which it is not said that a table was saved. -/
def Message.json? : Message → Option String
  | checked r => some (Json.object [
    ("event", Json.text "self_check"),
    ("ok", Json.boolean true),
    ("calibration_points", Json.natural r.points),
    ("samples_read", Json.natural r.samples)])
  | pulse p => some (pulseJson p.pulse)
  | summary m => some (Json.object [
    ("event", Json.text "summary"),
    ("samples", Json.natural m.samples),
    ("pulses", Json.natural m.pulses.length),
    ("anomalies", Json.natural m.anomalies),
    ("elapsed_ms", Json.natural (m.elapsed / Duration.ofMillis 1))])
  | table points => some (Json.object [
    ("event", Json.text "calibration"),
    ("points", Json.array (points.map Problem.pointJson))])
  | saved _ => none

end Calorimetry.Command
