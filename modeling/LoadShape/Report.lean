/-!
# Reports

What a caller is told when something cannot be done: a category and a text.  The
displayed report puts the heading of its category in front.
-/

namespace LoadShape

/-- The categories of reports. -/
inductive Category where
  | configuration
  | ticker
  | inputOutput
  | other
  deriving DecidableEq, Repr

/-- The heading of a category. -/
def Category.heading : Category → String
  | .configuration => "Configuration error"
  | .ticker => "Worker ticker error"
  | .inputOutput => "I/O error"
  | .other => "Error"

/-- A report of one failure. -/
structure Report where
  category : Category
  text : String
  deriving DecidableEq, Repr

namespace Report

/-- The report as it is shown. -/
def display (r : Report) : String := r.category.heading ++ ": " ++ r.text

/-- The failure behind the report: only the system's own failures are kept as
such. -/
def source? (r : Report) : Option String :=
  match r.category with
  | .inputOutput => some r.text
  | _ => none

/-- A failure with the contexts it passed through on its way, the last one first
in the text. -/
def ofChain (text : String) (contexts : List String) : Report where
  category := .other
  text := contexts.foldl (fun inner context => context ++ ": " ++ inner) text

end Report

end LoadShape
