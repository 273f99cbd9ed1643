import LoadShape.Number.Word
import LoadShape.Schedule.Layout
import LoadShape.Schedule.Profile
import LoadShape.Time.SpanText
import LoadShape.Toml.Printer

/-!
# Profiles as documents

Each schedule is a table: the tag, then the fields of its shape in their order.  A
span that is not there is left out.  Whole numbers of a document are signed, so
greater counters cannot be written.
-/

namespace LoadShape.Schedule

open LoadShape.Time LoadShape.Toml

/-- A counter as a whole number of a document. -/
def printableWord? (w : UInt64) : Option Printable :=
  if w.toNat ≤ Number.signedMax then some (.integer w.toNat) else none

/-- An entry with the given key. -/
def entryOf (key : String) (p : Printable) : List Char × Printable := (key.toList, p)

/-- The entry of a span, if it is there. -/
def spanEntry (key : String) : Option Span → List (List Char × Printable)
  | some s => [entryOf key (.string s.write)]
  | none => []

/-- The entry of the tag. -/
def tagEntry (shape : Shape) : List Char × Printable :=
  entryOf tagKey (.string shape.tag.toList)

/-- The table of a load schedule. -/
def LoadSchedule.entries? : LoadSchedule → Option (List (List Char × Printable))
  | .constant rate cap => do
    return [tagEntry .constant, entryOf "rate" (← printableWord? rate),
      entryOf "max" (← printableWord? cap)]
  | .step start change period target duration? cap => do
    return [tagEntry .step, entryOf "start" (← printableWord? start),
      entryOf "step" (.integer change.toInt), entryOf "step_duration" (.string period.write),
      entryOf "end" (← printableWord? target)] ++ spanEntry "duration" duration? ++
      [entryOf "max" (← printableWord? cap)]
  | .line start slope target duration? cap => do
    return [tagEntry .line, entryOf "start" (← printableWord? start),
      entryOf "slope" (.integer slope.toInt), entryOf "end" (← printableWord? target)] ++
      spanEntry "duration" duration? ++ [entryOf "max" (← printableWord? cap)]

/-- The table of a concurrency schedule. -/
def ConcurrencySchedule.entries : ConcurrencySchedule → List (List Char × Printable)
  | .constant workers => [tagEntry .constant, entryOf "workers" (.integer workers.toNat)]
  | .step start change period target duration? =>
    [tagEntry .step, entryOf "start" (.integer start.toNat),
      entryOf "step" (.integer change.toInt), entryOf "step_duration" (.string period.write),
      entryOf "end" (.integer target.toNat)] ++ spanEntry "duration" duration?
  | .line start slope target duration? =>
    [tagEntry .line, entryOf "start" (.integer start.toNat),
      entryOf "slope" (.integer slope.toInt), entryOf "end" (.integer target.toNat)] ++
      spanEntry "duration" duration?

/-- The tables of a profile. -/
def Profile.tables? (p : Profile) : Option (List PrintedTable) := do
  let load ← p.load.entries?
  return [⟨Subject.load.word.toList, load⟩,
    ⟨Subject.concurrency.word.toList, p.concurrency.entries⟩]

/-- The text of a profile, unless a counter is too great. -/
def Profile.print? (p : Profile) : Option (List Char) := p.tables?.map print

end LoadShape.Schedule
