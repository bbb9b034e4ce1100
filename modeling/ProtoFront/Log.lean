import ProtoFront.Bundle.Problem
import ProtoFront.Parse.Run

/-!
# The log

Parsing, loading and the commands tell about their course by events. An event has a level, names
the part of the program that it comes from, and has a text. `LogEvent.line` is how it is written,
and `LogLevel.shows` says which events are written at all.
-/

namespace ProtoFront

/-- How much an event matters, most important first. -/
inductive LogLevel where
  | error
  | warn
  | info
  | debug
  | trace
  deriving DecidableEq, Repr, Inhabited

namespace LogLevel

/-- The rank of a level. -/
def rank : LogLevel → Nat
  | error => 0
  | warn => 1
  | info => 2
  | debug => 3
  | trace => 4

/-- A level shows itself and everything that matters more. -/
def shows (level event : LogLevel) : Bool := event.rank ≤ level.rank

/-- The level as it stands in a line. -/
def label : LogLevel → String
  | error => "ERROR"
  | warn => " WARN"
  | info => " INFO"
  | debug => "DEBUG"
  | trace => "TRACE"

/-- The name of a level. -/
def name (level : LogLevel) : String := (level.label.trimAscii.toString).toLower

/-- All of the levels. -/
def all : List LogLevel := [error, warn, info, debug, trace]

end LogLevel

/-- Something that happened. -/
inductive LogEvent where
  | parseStarted (tokens : Nat) (fragment : Fragment)
  | parse (event : ParseEvent)
  | parseFinished (nodes diagnostics : Nat)
  | tryingCandidate (path : Path)
  | importUnreadable (error : ReadError)
  | fileLoaded (path : Path) (imports diagnostics : Nat)
  | bundleLoaded (files errors : Nat)
  | bundleResolved (symbols references errors : Nat)
  | checkStarted (files : Nat)
  | fileSkipped (path : Path)
  deriving DecidableEq, Repr, Inhabited

namespace LogEvent

/-- How much an event matters. -/
def level : LogEvent → LogLevel
  | parseStarted _ _ | parseFinished _ _ | fileLoaded _ _ _ | bundleLoaded _ _
  | bundleResolved _ _ _ | checkStarted _ => .debug
  | parse (.resynced .gaveUp _ _) | importUnreadable _ | fileSkipped _ => .warn
  | parse _ | tryingCandidate _ => .trace

/-- The part of the program that an event comes from. -/
def source : LogEvent → String
  | parseStarted _ _ | parseFinished _ _ | parse (.reported _) => "protean_parser::parser"
  | parse (.resynced _ _ _) => "protean_parser::parser::recovery"
  | tryingCandidate _ => "protean_bundle::resolver"
  | importUnreadable _ | fileLoaded _ _ _ | bundleLoaded _ _ | bundleResolved _ _ _ =>
    "protean_bundle::bundle"
  | checkStarted _ | fileSkipped _ => "protean::commands::check"

/-- A named part of an event. -/
def entry (key value : String) : String := " " ++ key ++ "=" ++ value

/-- A named number of an event. -/
def count (key : String) (value : Nat) : String := entry key (toString value)

/-- What happened. -/
def text : LogEvent → String
  | parseStarted tokens fragment =>
    "parsing" ++ count "tokens" tokens ++ entry "fragment" fragment.name
  | parseFinished nodes diagnostics =>
    "parse finished" ++ count "nodes" nodes ++ count "diagnostics" diagnostics
  | parse (.reported diagnostic) =>
    "diagnostic" ++ count "token" diagnostic.token ++ entry "diagnostic" diagnostic.message
  | parse (.resynced .advanced token _) => "synchronized" ++ count "token" token
  | parse (.resynced .repeated token attempts) =>
    "resynchronized again" ++ count "token" token ++ count "attempts" attempts
  | parse (.resynced .gaveUp token attempts) =>
    "recovery is not making progress, giving up at this token" ++ count "token" token
      ++ count "attempts" attempts
  | tryingCandidate path => "trying import candidate" ++ entry "candidate" path.text
  | importUnreadable error =>
    "failed to read import" ++ entry "path" error.path.text ++ entry "error" error.message
  | fileLoaded path imports diagnostics =>
    "loaded file" ++ entry "path" path.text ++ count "imports" imports
      ++ count "diagnostics" diagnostics
  | bundleLoaded files errors => "bundle loaded" ++ count "files" files ++ count "errors" errors
  | bundleResolved symbols references errors =>
    "resolved bundle" ++ count "symbols" symbols ++ count "references" references
      ++ count "errors" errors
  | checkStarted files => "checking" ++ count "files" files
  | fileSkipped path => "skipping unreadable file" ++ entry "path" path.text

/-- An event as a line of the log. -/
def line (event : LogEvent) : String :=
  event.level.label ++ " " ++ event.source ++ ": " ++ event.text ++ "\n"

end LogEvent

/-- What a parse of a buffer writes to the log. -/
def ParsedFile.log (parsed : ParsedFile) (buffer : TokenBuffer) (fragment : Fragment) :
    List LogEvent :=
  .parseStarted buffer.size fragment :: parsed.events.map LogEvent.parse
    ++ [.parseFinished parsed.tree.size parsed.diagnostics.length]

end ProtoFront
