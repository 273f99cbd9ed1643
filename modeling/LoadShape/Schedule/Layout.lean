import LoadShape.Fault

/-!
# The layout of schedules in a document

A schedule is a table with a tag, which names its shape, and the fields of that
shape in a fixed order.  The required fields come first.
-/

namespace LoadShape.Schedule

/-- The shapes of schedules. -/
inductive Shape where
  | constant
  | step
  | line
  deriving DecidableEq, Repr

namespace Shape

/-- The tag of a shape. -/
def tag : Shape → String
  | .constant => "const"
  | .step => "step"
  | .line => "line"

/-- The shape with the given tag. -/
def ofTag? (tag : String) : Option Shape :=
  [constant, step, line].find? (·.tag = tag)

/-- The name of a shape in messages. -/
def title : Shape → String
  | .constant => "Const"
  | .step => "Step"
  | .line => "Line"

theorem ofTag?_tag (shape : Shape) : ofTag? shape.tag = some shape := by
  cases shape <;> decide

end Shape

/-- The name of the schedule of a subject in messages. -/
def scheduleTitle : Subject → String
  | .load => "LoadSchedule"
  | .concurrency => "ConcurrencySchedule"

/-- The key of the tag. -/
def tagKey : String := "schedule"

/-- What a field holds. -/
inductive FieldType where
  /-- A 64-bit counter. -/
  | word64
  /-- A 32-bit counter. -/
  | word32
  /-- A signed 64-bit number. -/
  | signed64
  /-- A span of time, as text. -/
  | span
  deriving DecidableEq, Repr

/-- What a field expects, in messages. -/
def FieldType.expected : FieldType → String
  | .word64 => "u64"
  | .word32 => "u32"
  | .signed64 => "i64"
  | .span => "a duration"

/-- A field of a shape. -/
structure Field where
  key : String
  type : FieldType
  required : Bool
  deriving DecidableEq, Repr

/-- The fields of a shape in their order. -/
def fields (subject : Subject) (shape : Shape) : List Field :=
  let count : FieldType :=
    match subject with
    | .load => .word64
    | .concurrency => .word32
  let cap : List Field :=
    match subject with
    | .load => [⟨"max", .word64, false⟩]
    | .concurrency => []
  match shape with
  | .constant =>
    match subject with
    | .load => ⟨"rate", count, false⟩ :: cap
    | .concurrency => [⟨"workers", count, false⟩]
  | .step =>
    [⟨"start", count, true⟩, ⟨"step", .signed64, true⟩, ⟨"step_duration", .span, true⟩,
     ⟨"end", count, false⟩, ⟨"duration", .span, false⟩] ++ cap
  | .line =>
    [⟨"start", count, true⟩, ⟨"slope", .signed64, true⟩, ⟨"end", count, false⟩,
     ⟨"duration", .span, false⟩] ++ cap

end LoadShape.Schedule
