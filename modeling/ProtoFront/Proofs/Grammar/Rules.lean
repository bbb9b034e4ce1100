import ProtoFront.Proofs.Parse.Stack

/-!
# The grammar of schema files

The grammar is written down as data: each `Nonterminal` has a rule, which is a `Form` built from
tests of single lexemes and other nonterminals by sequence (`++`), choice (`|||`) and repetition.
`Derives` says which lexemes a form stands for. It knows nothing of goals, stacks or steps.

Any word may be a name, so some statements have two readings. There the grammar looks ahead, at two
lexemes: a statement that begins like a declaration is one, and `optional`, `required` or `repeated`
in front of a type is no type itself.
-/

namespace ProtoFront

/-- What the grammar has a rule for. -/
inductive Nonterminal where
  | file
  | topLevel
  | syntaxLevel
  | importing
  | package
  /-- identifiers with dots between them -/
  | name
  | option
  | optionName
  | optionNamePart
  | optionList
  | listOption
  | value
  | textMessage
  | textList
  | textField
  | scope (kind : ScopeKind)
  | extend
  /-- a statement of a body -/
  | statement (body : BodyKind)
  | field
  | enumValue
  | range
  | ranges (kind : RangesKind)
  | rpc
  deriving DecidableEq, Repr

/-- What may stand on the right of a rule. -/
inductive Form where
  | nothing
  /-- a lexeme whose kind passes a test -/
  | among (test : TokenKind → Bool)
  /-- an identifier that spells a word -/
  | word (word : ContextWord)
  | both (first second : Form)
  | either (left right : Form)
  | many (form : Form)
  /-- nothing, in front of two lexemes whose kinds pass a test -/
  | ahead (test : TokenKind → TokenKind → Bool)
  | named (nonterminal : Nonterminal)

namespace Form

instance : Append Form := ⟨both⟩

instance : OrOp Form := ⟨either⟩

/-- A lexeme of one kind. -/
def just (kind : TokenKind) : Form := among (· == kind)

/-- Any word: each of them may be a name. -/
def identifier : Form := among TokenKind.isIdentifierLike

def optional (form : Form) : Form := nothing ||| form

/-- Forms with commas between them. -/
def listed (form : Form) : Form := form ++ many (just .comma ++ form)

/-- Strings in a row are one string. -/
def strings : Form := just .stringLiteral ++ many (just .stringLiteral)

/-- The parts of a name that follow the first one. -/
def nameTail : Form := many (just .dot ++ identifier)

/-- The options of a field, an enum value or ranges, and the semicolon behind them. -/
def ending : Form := optional (named .optionList) ++ just .semicolon

/-- Name and number of a field. -/
def numbered : Form := identifier ++ (just .equals ++ (just .intLiteral ++ ending))

/-- An integer, perhaps negative. -/
def integer : Form := optional (just .minus) ++ just .intLiteral

/-- The type of a map field. -/
def mapType : Form :=
  just (.keyword .kwMap) ++ (just (.opener .angle) ++ (among TokenKind.isMapKeyType ++
    (just .comma ++ (named .name ++ just (.closer .angle)))))

/-- Fields of a text message between brackets. -/
def textFields (pair : Bracket) : Form :=
  just (.opener pair) ++ (many (named .textField) ++ just (.closer pair))

/-- The value of a text field. The colon may be left out in front of a bracket. -/
def textValue : Form :=
  optional (just .colon) ++ named .textMessage ||| optional (just .colon) ++ named .textList
    ||| just .colon ++ named .value

/-- The type that an rpc takes or gives. -/
def rpcType : Form :=
  just (.opener .paren) ++ (optional (word .wordStream) ++ (named .name ++ just (.closer .paren)))

/-- The statements of a body and its closing brace. -/
def bodyRest (body : BodyKind) : Form :=
  many (named (.statement body)) ++ just (.closer .brace)

/-- The end of an rpc: a semicolon, or a body of options. -/
def rpcEnd : Form := just .semicolon ||| just (.opener .brace) ++ bodyRest .rpc

/-- One item of a statement made of ranges. Names are reserved, too. -/
def rangesItem : RangesKind → Form
  | .reserved => named .range ||| just .stringLiteral ||| identifier
  | .extensions => named .range

/-- The end of a statement made of ranges. Only extensions have options. -/
def rangesEnd : RangesKind → Form
  | .reserved => just .semicolon
  | .extensions => ending

end Form

/-- Whether two kinds begin a statement of a message that is no field. -/
def beginsDeclaration (next following : TokenKind) : Bool :=
  match next with
  | .keyword .kwOption | .keyword .kwReserved | .keyword .kwExtensions => true
  | .keyword .kwMessage | .keyword .kwEnum | .keyword .kwOneof => following.isIdentifierLike
  | .keyword .kwExtend => ParseState.startsType following
  | _ => false

/-- Whether the first of two kinds modifies a field. -/
def modifies (next following : TokenKind) : Bool :=
  next.isFieldModifier && ParseState.startsType following

open Form in
/-- The rules of the grammar. -/
def Nonterminal.rule : Nonterminal → Form
  | file => many (named topLevel)
  | topLevel =>
    just .semicolon ||| named syntaxLevel ||| named importing ||| named package ||| named option
      ||| named (scope .message) ||| named (scope .enum) ||| named (scope .service) ||| named extend
  | syntaxLevel =>
    (just (.keyword .kwSyntax) ||| just (.keyword .kwEdition)) ++
      (just .equals ++ (strings ++ just .semicolon))
  | importing =>
    just (.keyword .kwImport) ++ (optional (word .wordPublic ||| word .wordWeak) ++
      (strings ++ just .semicolon))
  | package => just (.keyword .kwPackage) ++ (identifier ++ (nameTail ++ just .semicolon))
  | name => optional (just .dot) ++ (identifier ++ nameTail)
  | option =>
    just (.keyword .kwOption) ++ (named optionName ++ (just .equals ++ (named value ++
      just .semicolon)))
  | optionName => named optionNamePart ++ many (just .dot ++ named optionNamePart)
  | optionNamePart =>
    identifier ||| just (.opener .paren) ++ (named name ++ just (.closer .paren))
  | optionList => just (.opener .square) ++ (listed (named listOption) ++ just (.closer .square))
  | listOption => named optionName ++ (just .equals ++ named value)
  | value =>
    strings ||| just .intLiteral ||| just .floatLiteral
      ||| (just .minus ||| just .plus) ++
        (just .intLiteral ||| just .floatLiteral ||| just .identifier)
      ||| identifier ||| named textMessage ||| named textList
  | textMessage => textFields .brace ||| textFields .angle
  | textList =>
    just (.opener .square) ++ just (.closer .square)
      ||| just (.opener .square) ++ (listed (named value) ++ just (.closer .square))
  | textField =>
    (identifier ||| just (.opener .square) ++
        (many (among fun kind => kind.isIdentifierLike || kind == .dot || kind == .slash) ++
          just (.closer .square))) ++
      (textValue ++ optional (just .comma ||| just .semicolon))
  | scope kind =>
    just (.keyword kind.word) ++ (identifier ++ (just (.opener .brace) ++ bodyRest (.scope kind)))
  | extend =>
    just (.keyword .kwExtend) ++ (named name ++ (just (.opener .brace) ++ bodyRest .extend))
  | statement (.scope .message) =>
    just .semicolon ||| named option ||| named (ranges .reserved) ||| named (ranges .extensions)
      ||| named (scope .message) ||| named (scope .enum) ||| named (scope .oneof) ||| named extend
      ||| ahead (fun next following => !beginsDeclaration next following) ++ named field
  | statement (.scope .enum) =>
    just .semicolon ||| named option ||| named (ranges .reserved)
      ||| ahead (fun next _ => next != .keyword .kwOption && next != .keyword .kwReserved) ++
        named enumValue
  | statement (.scope .service) => just .semicolon ||| named option ||| named rpc
  | statement (.scope .oneof) =>
    just .semicolon ||| named option
      ||| ahead (fun next _ => next != .keyword .kwOption) ++ named field
  | statement .extend => just .semicolon ||| named field
  | statement .rpc => just .semicolon ||| named option
  | field =>
    (among TokenKind.isFieldModifier ||| ahead (fun next following => !modifies next following)) ++
      ((named name ||| mapType) ++ numbered)
  | enumValue => identifier ++ (just .equals ++ (integer ++ ending))
  | range => integer ++ optional (word .wordTo ++ (integer ||| word .wordMax))
  | ranges kind => just (.keyword kind.word) ++ (listed (rangesItem kind) ++ rangesEnd kind)
  | rpc =>
    just (.keyword .kwRpc) ++ (identifier ++ (rpcType ++ (word .wordReturns ++ (rpcType ++
      rpcEnd))))

/-- The kind of the first of some lexemes, or the end of the input. -/
def headKind : List Lexeme → TokenKind
  | [] => .eof
  | next :: _ => next.kind

/-- `Derives form input rest`: the lexemes of `input` in front of `rest` are of the form. -/
inductive Derives : Form → List Lexeme → List Lexeme → Prop
  | nothing {input : List Lexeme} : Derives .nothing input input
  | among {test : TokenKind → Bool} {next : Lexeme} {rest : List Lexeme} :
      test next.kind = true → Derives (.among test) (next :: rest) rest
  | word {word : ContextWord} {next : Lexeme} {rest : List Lexeme} :
      next.word? = some word → Derives (.word word) (next :: rest) rest
  | both {first second : Form} {input middle rest : List Lexeme} :
      Derives first input middle → Derives second middle rest →
        Derives (.both first second) input rest
  | left {left right : Form} {input rest : List Lexeme} :
      Derives left input rest → Derives (.either left right) input rest
  | right {left right : Form} {input rest : List Lexeme} :
      Derives right input rest → Derives (.either left right) input rest
  | stop {form : Form} {input : List Lexeme} : Derives (.many form) input input
  | again {form : Form} {input middle rest : List Lexeme} :
      Derives form input middle → Derives (.many form) middle rest →
        Derives (.many form) input rest
  | ahead {test : TokenKind → TokenKind → Bool} {input : List Lexeme} :
      test (headKind input) (headKind input.tail) = true → Derives (.ahead test) input input
  | named {nonterminal : Nonterminal} {input rest : List Lexeme} :
      Derives nonterminal.rule input rest → Derives (.named nonterminal) input rest

end ProtoFront
