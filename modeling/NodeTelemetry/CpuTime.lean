import NodeTelemetry.Text.Blank
import NodeTelemetry.Decimal.Numeral

/-!
# Processor time

The kernel reports the time its processors have spent, as a text whose line `cpu` lists the ticks
in user mode, at low priority, in system mode, idle, waiting for input and output, and in hard and
soft interrupts.  The utilization of a node is the share of busy ticks among those that went by
since the last successful reading.
-/

namespace NodeTelemetry

/-- Ticks spent busy, and all ticks. -/
structure CpuTimes where
  busy : UInt64
  total : UInt64
  deriving DecidableEq, Repr

namespace CpuTimes

/-! ## Reading the text of the kernel -/

/-- The sum of two counts, unless it leaves the 64-bit range. -/
def checkedAdd (a b : UInt64) : Option UInt64 :=
  if a.toNat + b.toNat < UInt64.size then some (a + b) else none

/-- The seven times of a line, by position: their checked sum is the total, of which all is busy
that is neither idle nor waiting. -/
def ofTicks? : List UInt64 → Option CpuTimes
  | [user, nice, system, idle, iowait, irq, softirq] =>
    ([user, nice, system, idle, iowait, irq, softirq].foldlM checkedAdd 0).map fun total =>
      ⟨total - idle - iowait, total⟩
  | _ => none

/-- The times in the words of a line after its name: the first seven are numbers, and the others do
not matter. -/
def ofWords? (fields : List (List Char)) : Option CpuTimes :=
  ((fields.take 7).mapM (Decimal.bounded? UInt64.size)).bind fun ticks =>
    ofTicks? (ticks.map UInt64.ofNat)

/-- The times in the first line whose first word is `cpu`. -/
def ofText? (text : List Char) : Option CpuTimes :=
  ((Text.lines text).map Text.words).findSome? (fun
    | name :: fields => if name = "cpu".toList then some fields else none
    | [] => none) |>.bind ofWords?

end CpuTimes

/-! ## Utilization -/

/-- A percentage held between 0 and 100; what is not a number stays so. -/
def clampPercent (x : Float) : Float :=
  if x < (0 : UInt64).toFloat then (0 : UInt64).toFloat
  else if (100 : UInt64).toFloat < x then (100 : UInt64).toFloat
  else x

/-- The share of busy ticks between two readings, in percent.  Each count that went back counts as
unchanged. -/
def CpuTimes.utilizationSince (current previous : CpuTimes) : Float :=
  let total := if previous.total < current.total then current.total - previous.total else 0
  let busy := if previous.busy < current.busy then current.busy - previous.busy else 0
  if total = 0 then (0 : UInt64).toFloat
  else clampPercent (busy.toFloat / total.toFloat * (100 : UInt64).toFloat)

/-- Where the utilization of a node comes from. -/
inductive CpuSource where
  /-- A fixed percentage. -/
  | fixed (percent : Float)
  /-- The text of the kernel, with the last successful reading. -/
  | kernelText (previous : Option CpuTimes)
  deriving DecidableEq

namespace CpuSource

/-- The source that nothing was read from yet. -/
def unread : CpuSource := .kernelText none

/-- The utilization since the last successful reading, given the text as it stands now, if it can
be read.  A failure answers zero and is forgotten. -/
def sample (source : CpuSource) (text : Option (List Char)) : Float × CpuSource :=
  match source with
  | .fixed percent => (percent, source)
  | .kernelText previous =>
    match text.bind CpuTimes.ofText? with
    | none => ((0 : UInt64).toFloat, source)
    | some current =>
      (match previous with
        | none => (0 : UInt64).toFloat
        | some previous => current.utilizationSince previous,
        .kernelText (some current))

/-- A reading that fails changes nothing. -/
theorem sample_of_unreadable {previous : Option CpuTimes} {text : Option (List Char)}
    (h : text.bind CpuTimes.ofText? = none) :
    (kernelText previous).sample text = ((0 : UInt64).toFloat, kernelText previous) := by
  simp [sample, h]

end CpuSource

end NodeTelemetry
