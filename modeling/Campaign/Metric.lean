import Campaign.Text.Folded

/-!
# Metrics

What is measured in every attempt of a trial.
-/

namespace Campaign

/-- One column of a sample matrix. -/
inductive Metric where
  | packets
  | retransmissions
  | lossPercent
  | fragments
  | frames
  | bytes
  | time
  | secondaryTime
deriving DecidableEq, Repr

namespace Metric

/-- All metrics, in column order. -/
def all : List Metric :=
  [packets, retransmissions, lossPercent, fragments, frames, bytes, time, secondaryTime]

/-- The column of a metric, counted from 0. -/
def column : Metric → Nat
  | packets => 0
  | retransmissions => 1
  | lossPercent => 2
  | fragments => 3
  | frames => 4
  | bytes => 5
  | time => 6
  | secondaryTime => 7

/-- The name by which a metric is shown. -/
def name : Metric → String
  | packets => "packets"
  | retransmissions => "retrans"
  | lossPercent => "loss"
  | fragments => "fragments"
  | frames => "frames"
  | bytes => "bytes"
  | time => "time"
  | secondaryTime => "dtime"

/-- The name of a metric in exported data. -/
def exportName : Metric → String
  | packets => "packets"
  | retransmissions => "retransmissions"
  | lossPercent => "loss_percent"
  | fragments => "fragments"
  | frames => "frames"
  | bytes => "bytes"
  | time => "time"
  | secondaryTime => "secondary_time"

/-- The metric of a name, whatever its case. Some metrics go by two names. -/
def ofName? (s : String) : Option Metric :=
  match Text.folded s with
  | "packets" => some packets
  | "retrans" | "retransmissions" => some retransmissions
  | "loss" => some lossPercent
  | "fragments" | "fragmts" => some fragments
  | "frames" => some frames
  | "bytes" => some bytes
  | "time" => some time
  | "dtime" | "secondary-time" => some secondaryTime
  | _ => none

/-- The answer to a name that is no metric. -/
def unknownMessage (name : String) : String :=
  "invalid metric: " ++ name

end Metric
end Campaign
