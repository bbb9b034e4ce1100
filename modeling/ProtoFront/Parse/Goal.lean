import ProtoFront.Token.Kind
import ProtoFront.Tree.Kind

/-!
# Goals of the parser

The parser keeps a stack of goals, and each goal is a place in the grammar at which it can go on.
Most constructs have a goal that begins them and goals that resume them after a part in the middle
has been read.
-/

namespace ProtoFront

/-- The blocks between braces that hold statements. -/
inductive BodyKind where
  | scope (kind : ScopeKind)
  | extend
  | rpc
  deriving DecidableEq, Repr, Inhabited

/-- The kind of declaration that a body belongs to. -/
def BodyKind.declaration : BodyKind → DeclarationKind
  | scope kind => .scope kind
  | extend => .extend
  | rpc => .rpc

/-- Only the brace that closes a scope is tagged. -/
def BodyKind.closeTag? : BodyKind → Option NodeKind
  | scope _ => some .scopeClose
  | extend | rpc => none

/-- The lists between square brackets. -/
inductive ListKind where
  /-- options after a field, an enum value or ranges -/
  | options
  /-- values in a text message -/
  | values
  deriving DecidableEq, Repr, Inhabited

/-- The kind of node that a list becomes. -/
def ListKind.tag? : ListKind → Option NodeKind
  | options => none
  | values => some .textList

/-- The statements made of ranges of numbers. -/
inductive RangesKind where
  | reserved
  | extensions
  deriving DecidableEq, Repr, Inhabited

/-- The kind of declaration that ranges belong to. -/
def RangesKind.declaration : RangesKind → DeclarationKind
  | reserved => .reserved
  | extensions => .extensions

/-- What a buffer is expected to hold. -/
inductive Fragment where
  | file
  /-- the inside of a message, without its braces -/
  | messageBody
  | enumBody
  | serviceBody
  deriving DecidableEq, Repr, Inhabited

/-- The name of a fragment. -/
def Fragment.name : Fragment → String
  | file => "File"
  | messageBody => "MessageBody"
  | enumBody => "EnumBody"
  | serviceBody => "ServiceBody"

/-- All of the fragments. -/
def Fragment.all : List Fragment := [file, messageBody, enumBody, serviceBody]

/-- A place in the grammar. -/
inductive Goal where
  /-- the statements of a file -/
  | file
  /-- the statements of a body up to the end of the input -/
  | fragmentBody (scope : ScopeKind)
  /-- the statements of a body and its closing brace -/
  | body (kind : BodyKind)
  | syntaxLevel
  | importing
  | package
  | packageEnd
  | option
  | optionAfterName
  | optionEnd
  | optionName
  | optionNamePart
  | optionNameExtensionEnd
  | optionNameEnd
  | optionList
  | listOption
  | listOptionAfterName
  | listOptionEnd
  | textList
  /-- an item of a list has been read; `failed` tells whether an earlier one failed -/
  | listAfterItem (list : ListKind) (failed : Bool)
  /-- keyword, name and body of a scope -/
  | scope (kind : ScopeKind)
  | extend
  | extendAfterName
  /-- the body of a declaration has been read -/
  | declarationEnd (kind : DeclarationKind)
  | field
  | fieldAfterType
  | mapFieldAfterValue
  /-- the options of a statement have been read -/
  | statementEnd (kind : DeclarationKind)
  | enumValue
  | ranges (kind : RangesKind)
  | rangesItem (kind : RangesKind)
  | rpc
  | rpcAfterInput
  | rpcAfterOutput
  | value
  | textMessage (pair : Bracket)
  | textMessageBody (pair : Bracket)
  | textField
  | textFieldEnd
  /-- a name, perhaps with dots; `tag?` is the kind of its node -/
  | qualifiedName (tag? : Option NodeKind)
  | qualifiedNameRest
  | qualifiedNameEnd (tag? : Option NodeKind)
  deriving DecidableEq, Repr, Inhabited

/-- The goal that a fragment starts with. -/
def Fragment.goal : Fragment → Goal
  | file => .file
  | messageBody => .fragmentBody .message
  | enumBody => .fragmentBody .enum
  | serviceBody => .fragmentBody .service

end ProtoFront
