import LoadShape.Schedule.Decode
import LoadShape.Schedule.Encode
import LoadShape.Storage
import LoadShape.Toml.Document

/-!
# Profiles from texts and files

A profile is read from a text, or from a file that holds one: the text must be
well-formed and describe a profile, and the schedules must keep the rules.
-/

namespace LoadShape.Schedule

/-- Why there is no profile. -/
inductive ProfileFault where
  | unreadable (path : String) (fault : ReadFault)
  /-- The text is not well-formed. -/
  | malformed
  /-- The text describes no profile. -/
  | undecodable (fault : DecodeFault)
  /-- The schedules do not keep the rules. -/
  | rejected (rejection : Rejection)
  deriving DecidableEq

namespace ProfileFault

/-- The report of a fault. -/
def report : ProfileFault → Report
  | .unreadable path fault =>
    .ofChain fault.text ["Failed to read schedule profile: " ++ path]
  | .malformed | .undecodable _ => ⟨.other, "Failed to parse schedule profile"⟩
  | .rejected rejection => rejection.report

/-- What is wrong with the text, if that is the fault. -/
def detail? : ProfileFault → Option String
  | .malformed => some "syntax"
  | .undecodable fault => some fault.text
  | .unreadable _ _ | .rejected _ => none

end ProfileFault

namespace Profile

/-- The profile that a text holds, before its schedules are looked at. -/
def parse (text : List Char) : Except ProfileFault Profile :=
  match Toml.read? text with
  | none => .error .malformed
  | some document =>
    match Profile.decode document with
    | .error fault => .error (.undecodable fault)
    | .ok profile => .ok profile

/-- The profile that a text holds. -/
def ofText (text : List Char) : Except ProfileFault Profile :=
  match parse text with
  | .error fault => .error fault
  | .ok profile =>
    match profile.validate with
    | .error rejection => .error (.rejected rejection)
    | .ok () => .ok profile

/-- The profile that the contents of a file hold. -/
def ofContents (path : String) (contents : Except ReadFault ByteArray) :
    Except ProfileFault Profile :=
  match contents with
  | .error fault => .error (.unreadable path fault)
  | .ok bytes =>
    match String.fromUTF8? bytes with
    | none => .error (.unreadable path .notText)
    | some text => ofText text.toList

/-- The profile that a file holds. -/
def ofFile (storage : Storage) (path : String) : Except ProfileFault Profile :=
  ofContents path (storage.read path)

end Profile

end LoadShape.Schedule
