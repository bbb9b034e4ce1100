/-!
# The kinds of node

A node of a parse tree may be tagged with a `NodeKind`, and a tag is of one of three sorts: a
declaration, a reference to a type, or structure. The sort is part of the kind, so a reader of the
tree matches on it and gets the declaration or the reference that it carries.

Four declarations open a scope (`ScopeKind`): the names declared inside them are found through
them, and their body ends with exactly one node tagged `scopeClose`.
-/

namespace ProtoFront

/-- Declarations with a name and a body of their own. -/
inductive ScopeKind where
  | message
  | enum
  | service
  | oneof
  deriving DecidableEq, Repr, Inhabited

/-- What a declaration declares. -/
inductive DeclarationKind where
  | syntaxLevel
  | edition
  | importing
  | package
  | option
  | scope (kind : ScopeKind)
  | extend
  | field
  | mapField
  | enumValue
  | rpc
  | reserved
  | extensions
  deriving DecidableEq, Repr, Inhabited

/-- The places where a type is named. -/
inductive ReferenceKind where
  | fieldType
  | mapKeyType
  | mapValueType
  | rpcInputType
  | rpcOutputType
  | extendeeType
  deriving DecidableEq, Repr, Inhabited

/-- What a node means to a reader of the tree. -/
inductive NodeKind where
  | declaration (kind : DeclarationKind)
  | reference (kind : ReferenceKind)
  /-- the name that a declaration declares -/
  | name
  | optionName
  /-- numbers of a `reserved` or `extensions` statement -/
  | range
  | textMessage
  | textField
  | textList
  /-- stands between two text fields that no separator divides -/
  | terminator
  | scopeClose
  deriving DecidableEq, Repr, Inhabited

/-- The three sorts of kinds. -/
inductive NodeCategory where
  | declaration
  | reference
  | structural
  deriving DecidableEq, Repr

/-- The name of a category. -/
def NodeCategory.name : NodeCategory → String
  | declaration => "Declaration"
  | reference => "Reference"
  | structural => "Structural"

/-- How serialized output names a declaration. -/
def DeclarationKind.name : DeclarationKind → String
  | syntaxLevel => "Syntax"
  | edition => "Edition"
  | importing => "Import"
  | package => "Package"
  | option => "Option"
  | scope .message => "Message"
  | scope .enum => "Enum"
  | scope .service => "Service"
  | scope .oneof => "Oneof"
  | extend => "Extend"
  | field => "Field"
  | mapField => "MapField"
  | enumValue => "EnumValue"
  | rpc => "Rpc"
  | reserved => "Reserved"
  | extensions => "Extensions"

/-- How serialized output names a reference. -/
def ReferenceKind.name : ReferenceKind → String
  | fieldType => "FieldType"
  | mapKeyType => "MapKeyType"
  | mapValueType => "MapValueType"
  | rpcInputType => "RpcInputType"
  | rpcOutputType => "RpcOutputType"
  | extendeeType => "ExtendeeType"

namespace NodeKind

/-- The kind of a declaration that opens a scope. -/
@[match_pattern] abbrev scope (kind : ScopeKind) : NodeKind := declaration (.scope kind)

/-- The sort of a kind. -/
def category : NodeKind → NodeCategory
  | declaration _ => .declaration
  | reference _ => .reference
  | _ => .structural

/-- Whether the body of the declaration ends with a `scopeClose`. -/
def opensScope : NodeKind → Bool
  | scope _ => true
  | _ => false

/-- How serialized output names the kind. -/
def label : NodeKind → String
  | declaration kind => kind.name
  | reference kind => kind.name
  | name => "Name"
  | optionName => "OptionName"
  | range => "Range"
  | textMessage => "TextMessage"
  | textField => "TextField"
  | textList => "TextList"
  | terminator => "Terminator"
  | scopeClose => "ScopeClose"

/-- Every kind. -/
def all : List NodeKind :=
  [DeclarationKind.syntaxLevel, .edition, .importing, .package, .option, .scope .message,
    .scope .enum, .scope .service, .scope .oneof, .extend, .field, .mapField, .enumValue, .rpc,
    .reserved, .extensions].map declaration
  ++ [ReferenceKind.fieldType, .mapKeyType, .mapValueType, .rpcInputType, .rpcOutputType,
    .extendeeType].map reference
  ++ [name, optionName, range, textMessage, textField, textList, terminator, scopeClose]

/-- The kind that serialized output calls `text`. -/
def ofLabel? (text : String) : Option NodeKind := all.find? (·.label == text)

end NodeKind

end ProtoFront
