import ProtoFront.Json.Event
import ProtoFront.Json.Value
import ProtoFront.Parse.Run
import ProtoFront.Path.Basic

/-!
# Settings

The settings of the program stand in a file with one JSON object. `Config.read` reads them. Members
that it does not know are passed over, and those that are missing have default values.

Directories and the comment switch are checked where they stand. The sync limit is kept until the
object ends and checked then, so what is wrong with it is seen after anything else in the object.
-/

namespace ProtoFront

/-- The settings of the program. -/
structure Config where
  /-- where imports are looked for -/
  includeDirs : List Path
  /-- how often a parse may recover at one token -/
  syncLimit : Nat
  /-- whether comments are kept among the tokens -/
  keepComments : Bool
  deriving DecidableEq, Repr, Inhabited

namespace Config

/-- The settings if nothing is set. -/
def default : Config := ⟨[], defaultSyncLimit, false⟩

/-- The name of the file that holds the settings. -/
def fileName : Path := ⟨"protean.config.json"⟩

/-- The directories where imports are looked for, as seen from a directory. -/
def includeDirsFrom (config : Config) (base : Path) : List Path :=
  config.includeDirs.map base.join

/-- The settings as JSON. -/
def toJson (config : Config) : JsonValue :=
  .object [("includeDirs", .array (config.includeDirs.map fun dir => .string dir.text)),
    ("syncLimit", .number config.syncLimit), ("keepComments", .bool config.keepComments)]

/-! ## Reading -/

/-- What has been read of the settings. -/
structure Draft where
  includeDirs? : Option (List Path)
  keepComments? : Option Bool
  /-- the values that were given as sync limit, so far as they are natural numbers -/
  syncLimits : List (Option Nat)
  deriving DecidableEq, Repr, Inhabited

/-- Nothing has been read. -/
def Draft.empty : Draft := ⟨none, none, []⟩

/-- The first number that is too large for a sync limit. -/
def syncLimitBound : Nat := UInt32.size

/-- The sync limit, which must be given at most once. -/
def Draft.syncLimit (draft : Draft) : Except JsonFault Nat :=
  match draft.syncLimits with
  | [] => .ok defaultSyncLimit
  | [some limit] => if limit < syncLimitBound then .ok limit else .error .wrongShape
  | _ => .error .wrongShape

/-- The settings, when everything has been read. -/
def Draft.finish (draft : Draft) : Except JsonFault Config :=
  draft.syncLimit.map fun syncLimit =>
    ⟨draft.includeDirs?.getD [], syncLimit, draft.keepComments?.getD false⟩

/-- A place in the settings. -/
inductive Place where
  /-- before the object -/
  | start
  /-- inside the object, between members -/
  | members (draft : Draft)
  /-- before the list of directories -/
  | includeDirs (draft : Draft)
  /-- in the list of directories, of which some have been read -/
  | directories (draft : Draft) (read : List Path)
  /-- before the comment switch -/
  | keepComments (draft : Draft)
  /-- before the sync limit -/
  | syncLimit (draft : Draft)
  /-- in a value that is passed over, inside so many containers of it -/
  | passedOver (draft : Draft) (depth : Nat)
  /-- behind the object -/
  | finished (config : Config)
  deriving DecidableEq, Repr, Inhabited

/-- The place behind the name of a member. -/
def memberPlace (draft : Draft) (name : String) : Except JsonFault Place :=
  if name = "includeDirs" then
    if draft.includeDirs?.isSome then .error .wrongShape else .ok (.includeDirs draft)
  else if name = "keepComments" then
    if draft.keepComments?.isSome then .error .wrongShape else .ok (.keepComments draft)
  else if name = "syncLimit" then .ok (.syncLimit draft)
  else .ok (.passedOver draft 0)

/-- The place behind an event of a value that is passed over. -/
def passOver (draft : Draft) (depth : Nat) (event : JsonEvent) : Place :=
  match event with
  | .openArray | .openObject => .passedOver draft (depth + 1)
  | .closeArray | .closeObject =>
    if depth ≤ 1 then .members draft else .passedOver draft (depth - 1)
  | .key _ => .passedOver draft depth
  | _ => if depth = 0 then .members draft else .passedOver draft depth

/-- Notes what is given as sync limit. -/
def Draft.noteSyncLimit (draft : Draft) (limit? : Option Nat) : Draft :=
  { draft with syncLimits := draft.syncLimits ++ [limit?] }

/-- Takes in an event. -/
def step (place : Place) (event : JsonEvent) : Except JsonFault Place :=
  match place, event with
  | .start, .openObject => .ok (.members .empty)
  | .members draft, .key name => memberPlace draft name
  | .members draft, .closeObject => draft.finish.map .finished
  | .includeDirs draft, .openArray => .ok (.directories draft [])
  | .directories draft read, .string text => .ok (.directories draft (read ++ [⟨text⟩]))
  | .directories draft read, .closeArray =>
    .ok (.members { draft with includeDirs? := some read })
  | .keepComments draft, .bool value => .ok (.members { draft with keepComments? := some value })
  | .syncLimit draft, .number limit? => .ok (passOver (draft.noteSyncLimit limit?) 0 event)
  | .syncLimit draft, event => .ok (passOver (draft.noteSyncLimit none) 0 event)
  | .passedOver draft depth, event => .ok (passOver draft depth event)
  | _, _ => .error .wrongShape

/-- Reads the settings from the text of their file. -/
def read (text : String) : Except JsonFault Config :=
  let (events, fault?) := JsonEvent.events text
  match events.foldlM step .start with
  | .error fault => .error fault
  | .ok place =>
    match fault?, place with
    | some fault, _ => .error fault
    | none, .finished config => .ok config
    | none, _ => .error .wrongShape

end Config

end ProtoFront
