import ProtoFront.Token.Buffer
import ProtoFront.Tree.Basic

/-!
# A tree as text

One line a node, in the order of the array and so children first, indented by two blanks for
every level of depth.
-/

namespace ProtoFront

/-- The line of one node. Only tagged nodes show a kind, and only marked nodes an error. -/
def Node.line (node : Node) (depth : Nat) (buffer : TokenBuffer) : String :=
  let kind := (node.kind?.map fun kind => "kind: " ++ kind.label ++ ", ").getD ""
  let text := (node.token?.map buffer.text).getD ""
  let mark := if node.failed then ", has_error: yes" else ""
  "".pushn ' ' (2 * depth) ++ "\x7b" ++ kind ++ "text: '" ++ text ++ "', subtree_size: "
    ++ toString node.size ++ mark ++ "\x7d\n"

/-- The whole tree. -/
def ParseTree.print (tree : ParseTree) (buffer : TokenBuffer) : String :=
  let depths := tree.depths
  String.join (tree.nodes.mapIdx fun id node => node.line (depths.getD id 0) buffer).toList

/-- Whether a line can be indented for a depth: the blanks are counted by a number of 16 bits. -/
def canIndent (depth : Nat) : Bool := 2 * depth < UInt16.size

/-- The whole tree, if it is not too deep to be indented. -/
def ParseTree.print? (tree : ParseTree) (buffer : TokenBuffer) : Option String :=
  if tree.depths.all canIndent then some (tree.print buffer) else none

end ProtoFront
