import ProtoFront.Tree.Kind

/-!
# Symbols

A symbol is a declaration under its full name, in one file of a bundle. Names have parts with dots
between them, and `qualify` puts a name into a scope.
-/

namespace ProtoFront

/-- What a symbol is. -/
inductive SymbolKind where
  | package
  | message
  | enum
  | enumValue
  | service
  | rpc
  | field
  | oneof
  deriving DecidableEq, Repr, Inhabited

namespace SymbolKind

/-- Whether a field may be of this kind. -/
def isType : SymbolKind → Bool
  | message | enum => true
  | _ => false

/-- Whether a dotted name can go on into such a symbol. -/
def isAggregate : SymbolKind → Bool
  | package | message | enum | service => true
  | _ => false

/-- How a report speaks of the kind. -/
def describe : SymbolKind → String
  | package => "package"
  | message => "message"
  | enum => "enum"
  | enumValue => "enum value"
  | service => "service"
  | rpc => "rpc"
  | field => "field"
  | oneof => "oneof"

/-- How serialized output names the kind. -/
def name : SymbolKind → String
  | package => "Package"
  | message => "Message"
  | enum => "Enum"
  | enumValue => "EnumValue"
  | service => "Service"
  | rpc => "Rpc"
  | field => "Field"
  | oneof => "Oneof"

/-- Every kind. -/
def all : List SymbolKind := [package, message, enum, enumValue, service, rpc, field, oneof]

/-- The kind of symbol that a declaration makes of its name. -/
def ofDeclaration? : DeclarationKind → Option SymbolKind
  | .scope .message => some message
  | .scope .enum => some enum
  | .scope .service => some service
  | .scope .oneof => some oneof
  | .enumValue => some enumValue
  | .rpc => some rpc
  | .field | .mapField => some field
  | _ => none

end SymbolKind

/-- A declaration: its full name without a leading dot, the number of its file, and the token of
its name. -/
structure Symbol where
  name : String
  kind : SymbolKind
  file : Nat
  token : Nat
  deriving DecidableEq, Repr, Inhabited

/-- A name inside a scope. -/
def qualify (scope name : String) : String :=
  if scope.isEmpty then name else scope ++ "." ++ name

end ProtoFront
