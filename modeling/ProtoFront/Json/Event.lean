import ProtoFront.Json.Token

/-!
# JSON as a course of events

A text of JSON is read from front to back, and what it holds is told as it comes: that an array
begins, that a member has a certain name, a value, and so on. Where the text is not JSON the events
end, and a fault says why. So a reader of events that wants a certain shape sees what is wrong
first, be it the shape or the text.
-/

namespace ProtoFront

/-- What is met in a text of JSON. -/
inductive JsonEvent where
  | openArray
  | closeArray
  | openObject
  | closeObject
  /-- the name of a member, whose value follows -/
  | key (name : String)
  | null
  | bool (value : Bool)
  /-- a number, with its value if it is a natural number -/
  | number (natural? : Option Nat)
  | string (value : String)
  deriving DecidableEq, Repr, Inhabited

namespace JsonEvent

/-- A container that has been opened. -/
inductive Container where
  | array
  | object
  deriving DecidableEq, Repr, Inhabited

/-- What must come next. -/
inductive Next where
  | value
  /-- a value, or the end of the array that has just been opened -/
  | firstItem
  /-- a member, or the end of the object that has just been opened -/
  | firstMember
  | member
  | colon
  /-- what comes behind a value -/
  | separator
  deriving DecidableEq, Repr, Inhabited

/-- A place in a text: the containers that it is in, innermost first, and what must come next. -/
structure Place where
  containers : List Container
  next : Next
  deriving DecidableEq, Repr, Inhabited

/-- The place before a text. -/
def Place.start : Place := ⟨[], .value⟩

/-- Containers must not be nested as deep as this. -/
def depthLimit : Nat := 128

/-- Goes into a container. -/
def enter (containers : List Container) (container : Container) (next : Next) (event : JsonEvent) :
    Except JsonFault (Option JsonEvent × Place) :=
  if containers.length + 1 < depthLimit then .ok (some event, ⟨container :: containers, next⟩)
  else .error .malformed

/-- Takes in a token where a value must come. -/
def valueStep (containers : List Container) (token : JsonToken) :
    Except JsonFault (Option JsonEvent × Place) :=
  let after : Place := ⟨containers, .separator⟩
  match token with
  | .openArray => enter containers .array .firstItem openArray
  | .openObject => enter containers .object .firstMember openObject
  | .null => .ok (some null, after)
  | .bool value => .ok (some (bool value), after)
  | .number natural? => .ok (some (number natural?), after)
  | .string value => .ok (some (string value), after)
  | .broken fault | .brokenString fault => .error fault
  | .closeArray | .closeObject | .colon | .comma => .error .malformed

/-- Takes in a token where a member must come. -/
def memberStep (containers : List Container) (token : JsonToken) :
    Except JsonFault (Option JsonEvent × Place) :=
  match token with
  | .string name => .ok (some (key name), ⟨containers, .colon⟩)
  | .brokenString fault => .error fault
  | _ => .error .malformed

/-- Takes in a token: what it tells, if anything, and the place behind it. -/
def step (place : Place) (token : JsonToken) : Except JsonFault (Option JsonEvent × Place) :=
  match place.next, place.containers, token with
  | .firstItem, _ :: outer, .closeArray => .ok (some closeArray, ⟨outer, .separator⟩)
  | .value, containers, token | .firstItem, containers, token => valueStep containers token
  | .firstMember, _ :: outer, .closeObject => .ok (some closeObject, ⟨outer, .separator⟩)
  | .member, containers, token | .firstMember, containers, token => memberStep containers token
  | .colon, containers, .colon => .ok (none, ⟨containers, .value⟩)
  | .separator, .array :: outer, .comma => .ok (none, ⟨.array :: outer, .value⟩)
  | .separator, .array :: outer, .closeArray => .ok (some closeArray, ⟨outer, .separator⟩)
  | .separator, .object :: outer, .comma => .ok (none, ⟨.object :: outer, .member⟩)
  | .separator, .object :: outer, .closeObject => .ok (some closeObject, ⟨outer, .separator⟩)
  | .colon, _, _ | .separator, _, _ => .error .malformed

/-- What is wrong if the text ends at a place. -/
def Place.faultAtEnd? (place : Place) : Option JsonFault :=
  if place = ⟨[], .separator⟩ then none else some .endsEarly

/-- The events of tokens from a place on, and what is wrong where they end, if anything is. -/
def eventsFrom (place : Place) : List JsonToken → List JsonEvent × Option JsonFault
  | [] => ([], place.faultAtEnd?)
  | token :: rest =>
    match step place token with
    | .error fault => ([], some fault)
    | .ok (event?, place) =>
      let (events, fault?) := eventsFrom place rest
      (event?.toList ++ events, fault?)

/-- The events of a text, and what is wrong where they end, if anything is. -/
def events (text : String) : List JsonEvent × Option JsonFault :=
  eventsFrom .start (JsonToken.tokens text.toList)

end JsonEvent

end ProtoFront
