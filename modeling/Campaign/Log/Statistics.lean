import Campaign.Fault
import Campaign.Sample
import Campaign.Text.Blank
import Campaign.Value.Numeral

/-!
# Statistics lines

The sample of a successful attempt stands on three lines, such as

    packets 100 retrans 5 loss 2%
    frags 3 frames 10 bytes 1500
    time 120 (30)

On the first two, labels and values alternate. A sample has eight columns: the volume line starts at
the fourth, so it has room for five numbers. Those for the last two columns give way to the times.
-/

namespace Campaign.Log

/-- The number that a word on the given line writes. -/
def number (line : Nat) (word : List Char) : Except LogFault Value :=
  match Value.ofNumeral? word with
  | some v => .ok v
  | none => .error (.malformed line (.notANumber (String.ofList word)))

/-- The second, fourth, sixth word and so on. -/
def everySecond : List (List Char) → List (List Char)
  | _ :: value :: rest => value :: everySecond rest
  | _ => []

/-- The values of a line of labels and values, at least `count` of them. -/
def valuesOf (line count : Nat) (s : List Char) : Except LogFault (List (List Char)) :=
  let values := everySecond (Text.words s)
  if values.length < count then .error (.malformed line (.tooFewValues count values.length))
  else .ok values

/-- The numbers of the volume line, in order. One for which there is no `room` is an overrun. -/
def volumeNumbers (line : Nat) : (room : Nat) → List (List Char) → Except LogFault (List Value)
  | _, [] => .ok []
  | room, word :: words =>
    match number line word, room with
    | .error fault, _ => .error fault
    | .ok _, 0 => .error .overrun
    | .ok v, room + 1 => (volumeNumbers line room words).map (v :: ·)

/-- The first three values of the counts line; the third may end in percent signs. -/
def counts (line : Nat) (s : List Char) : Except LogFault (Value × Value × Value) := do
  match ← valuesOf line 3 s with
  | packets :: retransmissions :: loss :: _ =>
    let packets ← number line packets
    let retransmissions ← number line retransmissions
    let loss ← number line (Text.dropEndWhile (· == '%') loss)
    return (packets, retransmissions, loss)
  | values => throw (.malformed line (.tooFewValues 3 values.length))

/-- The first three values of the volume line. -/
def volume (line : Nat) (s : List Char) : Except LogFault (Value × Value × Value) := do
  let words ← valuesOf line 3 s
  match ← volumeNumbers line 5 words with
  | fragments :: frames :: bytes :: _ => return (fragments, frames, bytes)
  | numbers => throw (.malformed line (.tooFewValues 3 numbers.length))

/-- The second and the third word of the times line; the third may stand in parentheses. -/
def times (line : Nat) (s : List Char) : Except LogFault (Value × Value) := do
  match Text.words s with
  | _ :: first :: second :: _ =>
    let time ← number line first
    let secondaryTime ← number line (Text.dropAround (fun c => c == '(' || c == ')') second)
    return (time, secondaryTime)
  | _ => throw (.malformed line .tooFewTimes)

/-- The sample on three statistics lines, the first of which is the log's line number `line`. -/
def statistics (line : Nat) (first second third : List Char) : Except LogFault Sample := do
  let (packets, retransmissions, lossPercent) ← counts line first
  let (fragments, frames, bytes) ← volume (line + 1) second
  let (time, secondaryTime) ← times (line + 2) third
  return { packets, retransmissions, lossPercent, fragments, frames, bytes, time, secondaryTime }

end Campaign.Log
