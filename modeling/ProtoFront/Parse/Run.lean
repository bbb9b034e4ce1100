import ProtoFront.Parse.Declarations
import ProtoFront.Parse.Fields
import ProtoFront.Parse.Files
import ProtoFront.Parse.Names
import ProtoFront.Parse.Options
import ProtoFront.Parse.Values
import ProtoFront.Token.Lexer

/-!
# Parsing

`ParseState.step` takes the goal on top of the stack and pursues it. `ParseState.run` repeats that
until no goal is left. A step that reads no token leaves a goal that does, or fewer goals, so the
number of steps is at most a fixed multiple of the number of tokens (`ParseState.stepBound`).

`TokenBuffer.parse` is the parser: it turns every buffer that holds a token at all into a tree and
a list of diagnostics.
-/

namespace ProtoFront

namespace ParseState

/-- Pursues one goal. -/
def pursue (entry : Pending) (s : ParseState) : ParseState :=
  match entry.goal with
  | .file => s.file entry
  | .fragmentBody kind => s.fragmentBody kind entry
  | .body kind => s.body kind entry
  | .syntaxLevel => s.syntaxLevel entry
  | .importing => s.importing entry
  | .package => s.package entry
  | .packageEnd => s.statementEnd .package entry
  | .option => s.optionStatement entry
  | .optionAfterName => s.optionAfterName entry
  | .optionEnd => s.statementEnd .option entry
  | .optionName => s.optionName entry
  | .optionNamePart => s.optionNamePart
  | .optionNameExtensionEnd => s.optionNameExtensionEnd entry
  | .optionNameEnd => s.close entry (some .optionName)
  | .optionList => s.optionList entry
  | .listOption => s.listOption entry
  | .listOptionAfterName => s.listOptionAfterName entry
  | .listOptionEnd => s.listOptionEnd entry
  | .textList => s.textList entry
  | .listAfterItem list failed => s.listAfterItem list failed entry
  | .scope kind => s.scope kind entry
  | .extend => s.extend entry
  | .extendAfterName => s.extendAfterName entry
  | .declarationEnd kind => s.close entry (some (.declaration kind))
  | .field => s.field entry
  | .fieldAfterType => s.fieldAfterType entry
  | .mapFieldAfterValue => s.mapFieldAfterValue entry
  | .statementEnd kind => s.statementEnd kind entry
  | .enumValue => s.enumValue entry
  | .ranges kind => s.ranges kind entry
  | .rangesItem kind => s.rangesItem kind entry
  | .rpc => s.rpc entry
  | .rpcAfterInput => s.rpcAfterInput entry
  | .rpcAfterOutput => s.rpcAfterOutput entry
  | .value => s.value
  | .textMessage pair => s.textMessage pair entry
  | .textMessageBody pair => s.textMessageBody pair entry
  | .textField => s.textField entry
  | .textFieldEnd => s.textFieldEnd entry
  | .qualifiedName tag? => s.qualifiedName tag? entry
  | .qualifiedNameRest => s.qualifiedNameRest
  | .qualifiedNameEnd tag? => s.close entry tag?

/-- Pursues the goal on top of the stack, if there is one. -/
def step (s : ParseState) : ParseState :=
  match s.pending with
  | [] => s
  | top :: below => pursue top { s with pending := below }

/-- Steps until no goal is left, `fuel` times at most. -/
def run : Nat → ParseState → ParseState
  | 0, s => s
  | fuel + 1, s => if s.pending.isEmpty then s else run fuel s.step

/-- A number of steps that is enough to read `length` lexemes. -/
def stepBound (length : Nat) : Nat := 16 * (length + 1)

/-- The state in which a parse begins. -/
def initial (cursor : Cursor) (fragment : Fragment) (syncLimit : Nat) : ParseState :=
  pushGoal
    { cursor
      nodes := #[]
      pending := []
      diagnostics := #[]
      guard := ⟨syncLimit, none, 0⟩
      events := #[] }
    fragment.goal

end ParseState

/-- What a parse makes of a buffer. -/
structure ParsedFile where
  tree : ParseTree
  diagnostics : List Diagnostic
  /-- the reports and recoveries in the order in which they happened -/
  events : List ParseEvent
  deriving DecidableEq, Repr, Inhabited

/-- Whether anything was reported. -/
def ParsedFile.hasErrors (parsed : ParsedFile) : Bool := !parsed.diagnostics.isEmpty

/-- The attempts at one token that a recovery has, unless another number is asked for. -/
def defaultSyncLimit : Nat := 10

namespace TokenBuffer

/-- Parses the significant tokens of a buffer. -/
def parseTokens (buffer : TokenBuffer) (fragment : Fragment) (syncLimit : Nat) : ParsedFile :=
  let start := ParseState.initial buffer.cursor fragment syncLimit
  let final := start.run (ParseState.stepBound buffer.cursor.rest.length)
  ⟨⟨final.nodes⟩, final.diagnostics.toList, final.events.toList⟩

/-- Why a buffer cannot be parsed. -/
inductive ParseError where
  | emptyBuffer
  deriving DecidableEq, Repr

/-- The error in words. -/
def ParseError.message : ParseError → String
  | emptyBuffer =>
    "cannot parse an empty token buffer: at least an end-of-input token is required"

/-- Parses a buffer. It must hold a token, if only the end marker. -/
def parse (buffer : TokenBuffer) (fragment : Fragment) (syncLimit : Nat) :
    Except ParseError ParsedFile :=
  if buffer.tokens.isEmpty then .error .emptyBuffer
  else .ok (buffer.parseTokens fragment syncLimit)

end TokenBuffer

/-- The buffer of a source and what a parse of it as a file makes. -/
def parseSource (source : String) : TokenBuffer × ParsedFile :=
  let buffer := tokenize source false
  (buffer, buffer.parseTokens .file defaultSyncLimit)

end ProtoFront
