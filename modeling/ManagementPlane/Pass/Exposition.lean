import ManagementPlane.Decimal.Shortest
import ManagementPlane.Pass.Metrics

/-!
# Metrics as text

`PassMetrics.exposition` writes the counts of passes in the text format that collectors of metrics read:
families in the order of their names, each with its help, its type and its samples. Times are in
seconds and go into buckets that double in width; a histogram without a sample is left out.
-/

namespace ManagementPlane.PassMetrics

/-- Numbers are written in full, and without a fraction where there is none. -/
def numberFormat : Decimal.NumberFormat := ⟨-400, 400, "+", ""⟩

def numberText (x : Float) : String := Decimal.Binary64.text numberFormat x.toBits

def seconds (milliseconds : Nat) : Float :=
  Float.ofNat (milliseconds / 1000) + Float.ofNat (milliseconds % 1000 * 1000000) / 1e9

/-- The first bounds of buckets, each twice the one before. -/
def doublings : Nat → Float → List Float
  | 0, _ => []
  | n + 1, x => x :: doublings n (x * 2)

def bounds : List Float := doublings 16 0.001

def familyHead (name help kind : String) : List String :=
  ["# HELP " ++ name ++ " " ++ help, "# TYPE " ++ name ++ " " ++ kind]

def single (name help kind : String) (value : Nat) : List String :=
  familyHead name help kind ++ [name ++ " " ++ toString value]

def durationName : String := "trellis_rebind_duration_seconds"

def durationSample (part outcome more value : String) : String :=
  durationName ++ part ++ "\x7boutcome=\"" ++ outcome ++ "\"" ++ more ++ "\x7d " ++ value

def durationSamples (outcome : String) (times : List Nat) : List String :=
  if times.isEmpty then []
  else
    let times := times.map seconds
    let bucket (bound value : String) := durationSample "_bucket" outcome (",le=\"" ++ bound ++ "\"") value
    bounds.map (fun b => bucket (numberText b) (toString (times.countP (· ≤ b)))) ++
      [bucket "+Inf" (toString times.length),
        durationSample "_sum" outcome "" (numberText (times.foldl (· + ·) 0)),
        durationSample "_count" outcome "" (toString times.length)]

def durations (m : PassMetrics) : List String :=
  match durationSamples "failure" m.failureTimes ++ durationSamples "success" m.successTimes with
  | [] => []
  | samples =>
    familyHead durationName "Time spent in a rebind pass, by outcome" "histogram" ++ samples

def exposition (m : PassMetrics) : List String :=
  m.durations
    ++ single "trellis_rebind_error_reports_total"
      "Total number of rebind passes that reported errors or warnings" "counter" m.reports
    ++ single "trellis_rebind_failure_total" "Total number of rebind passes that aborted" "counter"
      m.failures
    ++ single "trellis_rebind_last_error_messages"
      "Number of messages in the most recent rebind error report" "gauge" m.messages.length
    ++ single "trellis_rebind_success_total" "Total number of rebind passes that completed" "counter"
      m.successes

end ManagementPlane.PassMetrics
