import ProtoFront.Command.Check
import ProtoFront.Command.Resolve
import ProtoFront.Command.Show

/-!
# Running commands
-/

namespace ProtoFront

namespace Workplace

/-- Runs a command, unless there is a reason not to. -/
def run? (workplace : Workplace) : Command → Except Refusal Outcome
  | .check inputs plain => workplace.check inputs plain
  | .tree file format => workplace.showTree file format
  | .resolve entry includeDirs showReferences => workplace.resolve entry includeDirs showReferences

/-- Runs a command. -/
def run (workplace : Workplace) (command : Command) : Outcome :=
  match workplace.run? command with
  | .ok outcome => outcome
  | .error refusal => .refusal refusal.message

end Workplace

end ProtoFront
