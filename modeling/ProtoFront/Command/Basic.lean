import ProtoFront.Log

/-!
# Commands

There are three commands: one checks files, one shows the tree of a file, one resolves the names in
a file and in what it imports. A command that has run leaves an `Outcome`: what it wrote, in order,
and whether it failed.
-/

namespace ProtoFront

/-- How a tree is shown. -/
inductive TreeFormat where
  | text
  | json
  deriving DecidableEq, Repr, Inhabited

/-- A command with what it is about. -/
inductive Command where
  /-- checks files, and the files in directories -/
  | check (inputs : List Path) (plain : Bool)
  /-- shows the tree of a file -/
  | tree (file : Path) (format : TreeFormat)
  /-- loads a file with its imports and resolves the names in them -/
  | resolve (entry : Path) (includeDirs : List Path) (showReferences : Bool)
  deriving DecidableEq, Repr, Inhabited

/-- A piece of what a command writes. -/
inductive Emission where
  /-- a part of the result -/
  | result (text : String)
  /-- a part of the report on what is wrong -/
  | report (text : String)
  /-- an event for the log, which goes with the report -/
  | event (event : LogEvent)
  deriving DecidableEq, Repr, Inhabited

namespace Emission

/-- What an emission adds to the result. -/
def resultText : Emission → String
  | result text => text
  | report _ | event _ => ""

/-- What an emission adds to the report, with a log of a level or without a log. -/
def reportText (level? : Option LogLevel) : Emission → String
  | result _ => ""
  | report text => text
  | event what => if level?.any (·.shows what.level) then what.line else ""

end Emission

/-- What a command wrote, and whether it failed. -/
structure Outcome where
  emissions : List Emission
  failed : Bool
  deriving DecidableEq, Repr, Inhabited

namespace Outcome

/-- The result in full. -/
def resultText (outcome : Outcome) : String :=
  String.join (outcome.emissions.map Emission.resultText)

/-- The report in full, with a log of a level or without a log. -/
def reportText (outcome : Outcome) (level? : Option LogLevel) : String :=
  String.join (outcome.emissions.map (Emission.reportText level?))

/-- The exit code. -/
def exitCode (outcome : Outcome) : Nat := if outcome.failed then 1 else 0

/-- The outcome of a command that could not do its work, for a reason. -/
def refusal (reason : String) : Outcome := ⟨[.report ("\nError: " ++ reason ++ "\n\n")], true⟩

end Outcome

end ProtoFront
