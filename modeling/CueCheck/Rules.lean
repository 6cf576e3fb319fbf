import CueCheck.Binary64

/-!
The thresholds of the checks and of the timing fix.
-/

namespace CueCheck

/-- Thresholds; durations and the gap are in milliseconds, speed in characters per second. -/
structure Rules where
  minDuration : Int := 1000
  maxDuration : Int := 7000
  maxLineLength : Int := 42
  maxSpeed : Binary64 := .ofInt 21
  maxLines : Int := 2
  overlapGap : Int := 50
deriving DecidableEq, Repr

end CueCheck
