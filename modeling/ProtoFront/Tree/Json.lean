import ProtoFront.Json.Value
import ProtoFront.Tree.Basic

/-!
# Trees as structured output
-/

namespace ProtoFront

/-- The number that serialized output writes for a node without a token: the largest number of 32
bits. -/
def syntheticToken : Nat := 4294967295

/-- The number of a node's token in serialized output. -/
def tokenNumber (token? : Option Nat) : Nat := token?.getD syntheticToken

/-- A node with its four parts. -/
def Node.toJson (node : Node) : JsonValue :=
  .object [
    ("token", .number (tokenNumber node.token?)),
    ("subtree_size", .number node.size),
    ("has_error", .bool node.failed),
    ("kind", (node.kind?.map fun kind => JsonValue.string kind.label).getD .null)]

/-- A tree is the list of its nodes. -/
def ParseTree.toJson (tree : ParseTree) : JsonValue :=
  .object [("nodes", .array (tree.nodes.toList.map Node.toJson))]

end ProtoFront
