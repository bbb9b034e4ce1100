import ProtoFront.Diagnostic.Basic
import ProtoFront.Json.Value

/-!
# Diagnostics as structured output
-/

namespace ProtoFront

namespace Expectation

/-- The expectations without a part of their own, with their names in serialized output. -/
def plainNames : List (Expectation × String) :=
  [(identifier, "Identifier"), (fieldStart, "FieldStart"), (typeName, "Type"),
    (mapKeyType, "MapKeyType"), (value, "Value"), (topLevelStatement, "TopLevelStatement"),
    (enumValue, "EnumValue"), (textFieldName, "TextFieldName")]

/-- A name, or the name together with its kind or word. -/
def toJson : Expectation → JsonValue
  | token kind => .object [("Token", .string kind.name)]
  | contextual word => .object [("Contextual", .string word)]
  | plain => .string ((plainNames.lookup plain).getD "")

/-- The expectation that serialized output calls `text`. -/
def ofPlainName? (text : String) : Option Expectation :=
  (plainNames.find? (·.2 == text)).map (·.1)

end Expectation

/-- A diagnostic with its three parts. -/
def Diagnostic.toJson (diagnostic : Diagnostic) : JsonValue :=
  .object [
    ("expected", .array (diagnostic.expected.map Expectation.toJson)),
    ("found", .string diagnostic.found.name),
    ("token", .number diagnostic.token)]

end ProtoFront
