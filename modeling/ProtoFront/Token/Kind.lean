/-!
# The kinds of token

Every token of a schema file has a `TokenKind`. The kinds come in families, and the families are
what the grammar asks about: brackets carry the pair they belong to (`Bracket`), so an opener
names its closer by construction; reserved words carry their `Keyword` or `ScalarType`, and every
reserved word may still stand in for a name (`TokenKind.isIdentifierLike`).

A kind has three texts. `spelling?` is how it is written in a source, where that is fixed;
`describe` is how a report speaks of it; `name` is how a serialized tree or report names it.
-/

namespace ProtoFront

/-- The four pairs of brackets. -/
inductive Bracket where
  | brace
  | paren
  | square
  | angle
  deriving DecidableEq, Repr, Inhabited

namespace Bracket

/-- How the opening half is written. -/
def opening : Bracket → String
  | brace => "\x7b"
  | paren => "("
  | square => "["
  | angle => "<"

/-- How the closing half is written. -/
def closing : Bracket → String
  | brace => "\x7d"
  | paren => ")"
  | square => "]"
  | angle => ">"

/-- The part of a kind's name that both halves share. -/
def stem : Bracket → String
  | brace => "Brace"
  | paren => "Paren"
  | square => "Bracket"
  | angle => "Angle"

/-- The pairs in their standard order. -/
def all : List Bracket := [brace, paren, square, angle]

end Bracket

/-- Reserved words that open statements or modify fields. -/
inductive Keyword where
  | kwSyntax
  | kwEdition
  | kwImport
  | kwPackage
  | kwOption
  | kwMessage
  | kwEnum
  | kwService
  | kwRpc
  | kwOneof
  | kwExtend
  | kwExtensions
  | kwReserved
  | kwMap
  | kwOptional
  | kwRequired
  | kwRepeated
  | kwGroup
  deriving DecidableEq, Repr, Inhabited

namespace Keyword

/-- The reserved word itself. -/
def spelling : Keyword → String
  | kwSyntax => "syntax"
  | kwEdition => "edition"
  | kwImport => "import"
  | kwPackage => "package"
  | kwOption => "option"
  | kwMessage => "message"
  | kwEnum => "enum"
  | kwService => "service"
  | kwRpc => "rpc"
  | kwOneof => "oneof"
  | kwExtend => "extend"
  | kwExtensions => "extensions"
  | kwReserved => "reserved"
  | kwMap => "map"
  | kwOptional => "optional"
  | kwRequired => "required"
  | kwRepeated => "repeated"
  | kwGroup => "group"

/-- The reserved words in their standard order. -/
def all : List Keyword :=
  [kwSyntax, kwEdition, kwImport, kwPackage, kwOption, kwMessage, kwEnum, kwService, kwRpc,
    kwOneof, kwExtend, kwExtensions, kwReserved, kwMap, kwOptional, kwRequired, kwRepeated,
    kwGroup]

/-- `optional`, `required` and `repeated` may stand before a field's type. -/
def isFieldModifier : Keyword → Bool
  | kwOptional | kwRequired | kwRepeated => true
  | _ => false

end Keyword

/-- The built-in field types. -/
inductive ScalarType where
  | int32
  | int64
  | uint32
  | uint64
  | sint32
  | sint64
  | fixed32
  | fixed64
  | sfixed32
  | sfixed64
  | bool
  | string
  | double
  | float
  | bytes
  deriving DecidableEq, Repr, Inhabited

namespace ScalarType

/-- The reserved word that names the type. -/
def spelling : ScalarType → String
  | int32 => "int32"
  | int64 => "int64"
  | uint32 => "uint32"
  | uint64 => "uint64"
  | sint32 => "sint32"
  | sint64 => "sint64"
  | fixed32 => "fixed32"
  | fixed64 => "fixed64"
  | sfixed32 => "sfixed32"
  | sfixed64 => "sfixed64"
  | bool => "bool"
  | string => "string"
  | double => "double"
  | float => "float"
  | bytes => "bytes"

/-- The types in their standard order. -/
def all : List ScalarType :=
  [int32, int64, uint32, uint64, sint32, sint64, fixed32, fixed64, sfixed32, sfixed64, bool,
    string, double, float, bytes]

/-- Map keys are integers, booleans or strings: no floating-point number and no raw bytes. -/
def isMapKey : ScalarType → Bool
  | double | float | bytes => false
  | _ => true

end ScalarType

/-- What a token is. -/
inductive TokenKind where
  /-- the end of the input -/
  | eof
  /-- characters that begin no token -/
  | invalid
  | lineComment
  | blockComment
  | intLiteral
  | floatLiteral
  | stringLiteral
  | semicolon
  | comma
  | dot
  | equals
  | colon
  | minus
  | plus
  | slash
  | opener (pair : Bracket)
  | closer (pair : Bracket)
  /-- a word that is not reserved -/
  | identifier
  | keyword (word : Keyword)
  | scalar (type : ScalarType)
  deriving DecidableEq, Repr, Inhabited

namespace TokenKind

/-! ## Families -/

def isComment : TokenKind → Bool
  | lineComment | blockComment => true
  | _ => false

def isLiteral : TokenKind → Bool
  | intLiteral | floatLiteral | stringLiteral => true
  | _ => false

def isNumber : TokenKind → Bool
  | intLiteral | floatLiteral => true
  | _ => false

def isOpener : TokenKind → Bool
  | opener _ => true
  | _ => false

def isCloser : TokenKind → Bool
  | closer _ => true
  | _ => false

/-- The closing bracket that belongs to an opening one. -/
def closedBy? : TokenKind → Option TokenKind
  | opener pair => some (closer pair)
  | _ => none

/-- A reserved word. -/
def isKeyword : TokenKind → Bool
  | keyword _ | scalar _ => true
  | _ => false

/-- Whether the token may stand in for a name: no word is reserved where a name is expected. -/
def isIdentifierLike : TokenKind → Bool
  | identifier | keyword _ | scalar _ => true
  | _ => false

def isScalarType : TokenKind → Bool
  | scalar _ => true
  | _ => false

def isMapKeyType : TokenKind → Bool
  | scalar type => type.isMapKey
  | _ => false

def isFieldModifier : TokenKind → Bool
  | keyword word => word.isFieldModifier
  | _ => false

/-! ## The standard order -/

/-- Every kind, in the order in which the kinds are numbered. -/
def all : List TokenKind :=
  [eof, invalid, lineComment, blockComment, intLiteral, floatLiteral, stringLiteral, semicolon,
    comma, dot, equals, colon, minus, plus, slash]
  ++ Bracket.all.map opener ++ Bracket.all.map closer
  ++ [identifier] ++ Keyword.all.map keyword ++ ScalarType.all.map scalar

/-- The number of a kind. -/
def ordinal (kind : TokenKind) : Nat := all.idxOf kind

/-! ## Texts -/

/-- How the token is written, where its kind alone decides that. -/
def spelling? : TokenKind → Option String
  | semicolon => some ";"
  | comma => some ","
  | dot => some "."
  | equals => some "="
  | colon => some ":"
  | minus => some "-"
  | plus => some "+"
  | slash => some "/"
  | opener pair => some pair.opening
  | closer pair => some pair.closing
  | keyword word => some word.spelling
  | scalar type => some type.spelling
  | eof | invalid | lineComment | blockComment | intLiteral | floatLiteral | stringLiteral
  | identifier => none

/-- How a report speaks of the kind: the spelling between apostrophes, else a description. -/
def describe : TokenKind → String
  | eof => "end of file"
  | invalid => "invalid character"
  | lineComment | blockComment => "comment"
  | intLiteral => "integer literal"
  | floatLiteral => "float literal"
  | stringLiteral => "string literal"
  | identifier => "identifier"
  | kind => "'" ++ kind.spelling?.getD "" ++ "'"

/-- How serialized output names the kind. -/
def name : TokenKind → String
  | eof => "Eof"
  | invalid => "Error"
  | lineComment => "LineComment"
  | blockComment => "BlockComment"
  | intLiteral => "IntLiteral"
  | floatLiteral => "FloatLiteral"
  | stringLiteral => "StringLiteral"
  | semicolon => "Semicolon"
  | comma => "Comma"
  | dot => "Dot"
  | equals => "Equals"
  | colon => "Colon"
  | minus => "Minus"
  | plus => "Plus"
  | slash => "Slash"
  | opener pair => "L" ++ pair.stem
  | closer pair => "R" ++ pair.stem
  | identifier => "Identifier"
  | keyword word => word.spelling.capitalize
  | scalar type => type.spelling.capitalize

/-- The kind that serialized output calls `text`. -/
def ofName? (text : String) : Option TokenKind := all.find? (·.name == text)

/-- The kind of a word: the reserved word that it spells, else a plain identifier. -/
def ofWord (text : String) : TokenKind :=
  ((all.filter isKeyword).find? (·.spelling? == some text)).getD identifier

end TokenKind

end ProtoFront
