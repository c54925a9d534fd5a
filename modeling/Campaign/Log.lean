import Campaign.Log.Heading
import Campaign.Log.Statistics
import Campaign.Text.Line

/-!
# Trial logs

A log tells of the attempts of one trial. An attempt that failed is one line. An attempt that
succeeded is a line too, but then, after any lines that do not open statistics, one that does and
the three statistics lines follow. Lines between attempts are noise.
-/

namespace Campaign.Log

/-- What a reader of a log is looking for. -/
inductive Phase where
  /-- The outcome of the next attempt. -/
  | outcome
  /-- The line that opens the statistics of a successful attempt. -/
  | opening
deriving DecidableEq, Repr

/-- The samples of the attempts in the lines that follow the first `done` lines of a log. -/
def samplesFrom (marker : List Char) :
    Phase → (done : Nat) → List (List Char) → Except LogFault (List Sample)
  | .outcome, _, [] => .ok []
  | .opening, done, [] => .error (.malformed (done + 1) .noStatistics)
  | .outcome, done, line :: rest =>
    match Heading.ofLine marker line with
    | .noise => samplesFrom marker .outcome (done + 1) rest
    | .failed => (samplesFrom marker .outcome (done + 1) rest).map (Sample.failed :: ·)
    | .succeeded => samplesFrom marker .opening (done + 1) rest
    | .unknown word =>
      .error (.malformed (done + 1) (.unknownOutcome (String.ofList word)))
  | .opening, done, line :: rest =>
    if opensStatistics line then
      match rest with
      | first :: second :: third :: rest =>
        match statistics (done + 2) first second third with
        | .error fault => .error fault
        | .ok sample => (samplesFrom marker .outcome (done + 4) rest).map (sample :: ·)
      | _ => .error (.malformed (done + 2) .cutShort)
    else samplesFrom marker .opening (done + 1) rest

/-- The samples of the attempts in a text, in order. -/
def samples (marker : String) (text : List Char) : Except LogFault (List Sample) :=
  samplesFrom marker.toList .outcome 0 (Text.lines text)

/-- The matrix of the attempts in a text; none if it tells of no attempt. -/
def read (marker : String) (text : List Char) : Except LogFault (Option Matrix) :=
  (samples marker text).map Matrix.ofRows?

end Campaign.Log
