import LoadShape.Number.Shortest
import LoadShape.Number.Word
import LoadShape.Schedule.Layout
import LoadShape.Schedule.Profile
import LoadShape.Text.Numeral
import LoadShape.Text.Quoted
import LoadShape.Toml.Value

/-!
# Profiles from tables

The schedules that the tables of a document describe.  A schedule is a table with a
tag or a list that begins with it; fields that its shape does not have are ignored,
and fields with a usual value may be left out.

Of several mistakes the first one counts: the schedules in the order of the
document; within a schedule its tag, then the fields in the order of the document,
then the missing ones in the order of the layout.
-/

namespace LoadShape.Schedule

open LoadShape.Number LoadShape.Time LoadShape.Toml

/-! ## Mistakes -/

/-- What was found in place of something else. -/
inductive Found where
  | boolean (b : Bool)
  | integer (n : Int)
  | float (x : Binary64)
  | string (s : String)
  | map
  | sequence
  deriving DecidableEq, Repr

/-- The description of what was found. -/
def Found.text : Found → String
  | .boolean b => "boolean `" ++ (if b then "true" else "false") ++ "`"
  | .integer n => "integer `" ++ Text.decimal n ++ "`"
  | .float x => "floating point `" ++ String.ofList x.text ++ "`"
  | .string s => "string " ++ Text.quoted s
  | .map => "map"
  | .sequence => "sequence"

/-- A value as something that was found; a date is a map. -/
def found : Value → Found
  | .string s => .string s
  | .integer n => .integer n
  | .float x => .float x
  | .boolean b => .boolean b
  | .datetime _ => .map
  | .array _ => .sequence
  | .table _ => .map

/-- Why a document describes no profile. -/
inductive DecodeFault where
  | missingField (key : String)
  | unknownShape (tag : String)
  | invalidType (found : Found) (expected : String)
  | invalidValue (found : Found) (expected : String)
  | invalidLength (length : Nat) (expected : String)
  deriving DecidableEq, Repr

/-- The wording of a fault. -/
def DecodeFault.text : DecodeFault → String
  | .missingField key => "missing field `" ++ key ++ "`"
  | .unknownShape tag =>
    "unknown variant `" ++ tag ++ "`, expected one of `const`, `step`, `line`"
  | .invalidType found expected => "invalid type: " ++ found.text ++ ", expected " ++ expected
  | .invalidValue found expected => "invalid value: " ++ found.text ++ ", expected " ++ expected
  | .invalidLength length expected =>
    "invalid length " ++ Text.decimal length ++ ", expected " ++ expected

/-- So many elements, in words. -/
def elementCount (n : Nat) : String :=
  Text.decimal n ++ (if n = 1 then " element" else " elements")

/-! ## Fields -/

/-- The span that a value holds. -/
def spanOf? : Value → Option Span
  | .string s => Span.read? s.toList
  | _ => none

/-- Whether the value is one of the field's type. -/
def FieldType.check (type : FieldType) (value : Value) : Except DecodeFault Unit :=
  match type, value with
  | .word64, .integer n =>
    if 0 ≤ n ∧ n < UInt64.size then .ok () else .error (.invalidValue (.integer n) type.expected)
  | .word32, .integer n =>
    if 0 ≤ n ∧ n < UInt32.size then .ok () else .error (.invalidValue (.integer n) type.expected)
  | .signed64, .integer n =>
    if signedMin ≤ n ∧ n ≤ signedMax then .ok ()
    else .error (.invalidValue (.integer n) type.expected)
  | .span, .string s =>
    if (Span.read? s.toList).isSome then .ok ()
    else .error (.invalidValue (.string s) type.expected)
  | type, value => .error (.invalidType (found value) type.expected)

/-- The first mistake in the given entries. -/
def checkEntries (declared : List Field) : Entries → Except DecodeFault Unit
  | [] => .ok ()
  | (key, value) :: rest =>
    match declared.find? (·.key = key) with
    | none => checkEntries declared rest
    | some field =>
      match field.type.check value with
      | .error fault => .error fault
      | .ok () => checkEntries declared rest

/-- The first required field that is not there. -/
def firstMissing? (declared : List Field) (entries : Entries) : Option Field :=
  declared.find? fun field => field.required && (entries.lookup field.key).isNone

/-- The counter under a key, or the given one. -/
def word64D (entries : Entries) (key : String) (default : UInt64) : UInt64 :=
  match entries.lookup key with
  | some (.integer n) => .ofNat n.toNat
  | _ => default

/-- The counter under a key, or the given one. -/
def word32D (entries : Entries) (key : String) (default : UInt32) : UInt32 :=
  match entries.lookup key with
  | some (.integer n) => .ofNat n.toNat
  | _ => default

/-- The signed number under a key, or zero. -/
def signed64D (entries : Entries) (key : String) : Int64 :=
  match entries.lookup key with
  | some (.integer n) => .ofInt n
  | _ => 0

/-- The span under a key, if there is one. -/
def spanAt? (entries : Entries) (key : String) : Option Span :=
  (entries.lookup key).bind spanOf?

/-! ## Schedules -/

/-- The shape that a tag names. -/
def shapeOf : Value → Except DecodeFault Shape
  | .string tag =>
    match Shape.ofTag? tag with
    | some shape => .ok shape
    | none => .error (.unknownShape tag)
  | value => .error (.invalidType (found value) "variant identifier")

/-- The fields of a table, once they are checked. -/
def namedFields (declared : List Field) (entries : Entries) : Except DecodeFault Entries := do
  checkEntries declared entries
  match firstMissing? declared entries with
  | some field => throw (.missingField field.key)
  | none => return entries

/-- The fields of a list, once they are checked. -/
def listedFields (subject : Subject) (shape : Shape) (values : List Value) :
    Except DecodeFault Entries := do
  let declared := fields subject shape
  let entries := (declared.map (·.key)).zip values
  checkEntries declared entries
  match firstMissing? declared entries with
  | some _ =>
    throw (.invalidLength values.length
      ("struct variant " ++ scheduleTitle subject ++ "::" ++ shape.title ++ " with " ++
        elementCount declared.length))
  | none =>
    if declared.length < values.length then
      throw (.invalidLength values.length (elementCount declared.length ++ " in sequence"))
    else return entries

/-- The shape and the fields of a schedule. -/
def scheduleParts (subject : Subject) : Value → Except DecodeFault (Shape × Entries)
  | .table entries =>
    match entries.lookup tagKey with
    | none => .error (.missingField tagKey)
    | some tag => do
      let shape ← shapeOf tag
      return (shape, ← namedFields (fields subject shape) entries)
  | .array [] => .error (.missingField tagKey)
  | .array (tag :: values) => do
    let shape ← shapeOf tag
    return (shape, ← listedFields subject shape values)
  | .datetime _ => .error (.missingField tagKey)
  | value =>
    .error (.invalidType (found value) ("internally tagged enum " ++ scheduleTitle subject))

/-- The load schedule with the given fields. -/
def LoadSchedule.ofFields (shape : Shape) (entries : Entries) : LoadSchedule :=
  let word (key : String) : UInt64 := word64D entries key 0
  let period := (spanAt? entries "step_duration").getD .zero
  let duration? := spanAt? entries "duration"
  match shape with
  | .constant => .constant (word "rate") (word "max")
  | .step =>
    .step (word "start") (signed64D entries "step") period (word "end") duration? (word "max")
  | .line =>
    .line (word "start") (signed64D entries "slope") (word "end") duration? (word "max")

/-- The concurrency schedule with the given fields. -/
def ConcurrencySchedule.ofFields (shape : Shape) (entries : Entries) : ConcurrencySchedule :=
  let word (key : String) : UInt32 := word32D entries key 0
  let period := (spanAt? entries "step_duration").getD .zero
  let duration? := spanAt? entries "duration"
  match shape with
  | .constant => .constant (word32D entries "workers" usualWorkers)
  | .step => .step (word "start") (signed64D entries "step") period (word "end") duration?
  | .line => .line (word "start") (signed64D entries "slope") (word "end") duration?

/-- The load schedule that a value describes. -/
def LoadSchedule.decode (value : Value) : Except DecodeFault LoadSchedule := do
  let (shape, entries) ← scheduleParts .load value
  return LoadSchedule.ofFields shape entries

/-- The concurrency schedule that a value describes. -/
def ConcurrencySchedule.decode (value : Value) : Except DecodeFault ConcurrencySchedule := do
  let (shape, entries) ← scheduleParts .concurrency value
  return ConcurrencySchedule.ofFields shape entries

/-! ## Profiles -/

/-- The profile with one more entry of the document. -/
def Profile.addEntry (p : Profile) (entry : String × Value) : Except DecodeFault Profile :=
  if entry.1 = Subject.load.word then do
    return { p with load := ← LoadSchedule.decode entry.2 }
  else if entry.1 = Subject.concurrency.word then do
    return { p with concurrency := ← ConcurrencySchedule.decode entry.2 }
  else .ok p

/-- The profile that a document describes. -/
def Profile.decode (document : Entries) : Except DecodeFault Profile :=
  document.foldlM Profile.addEntry {}

end LoadShape.Schedule
