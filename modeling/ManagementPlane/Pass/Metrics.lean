/-!
# Counting passes

`PassMetrics` counts the passes that went through and those that were ended, with the time each took,
and keeps the messages of the last pass that reported any.
-/

namespace ManagementPlane

/-- The counts and times of passes, in milliseconds, and the last report. -/
structure PassMetrics where
  successTimes : List Nat := []
  failureTimes : List Nat := []
  lastTime : Option Nat := none
  reports : Nat := 0
  lastReport : Option (List String) := none
  deriving DecidableEq, Repr, Inhabited

namespace PassMetrics

def successes (m : PassMetrics) : Nat := m.successTimes.length

def failures (m : PassMetrics) : Nat := m.failureTimes.length

def noteSuccess (m : PassMetrics) (time : Nat) : PassMetrics :=
  { m with successTimes := m.successTimes ++ [time], lastTime := some time }

def noteFailure (m : PassMetrics) (time : Nat) : PassMetrics :=
  { m with failureTimes := m.failureTimes ++ [time], lastTime := some time }

def noteReport (m : PassMetrics) (messages : List String) : PassMetrics :=
  { m with reports := m.reports + 1, lastReport := some messages }

def messages (m : PassMetrics) : List String := m.lastReport.getD []

end PassMetrics

end ManagementPlane
