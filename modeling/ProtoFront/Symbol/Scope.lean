import ProtoFront.Symbol.Basic

/-!
# Scopes

While a file is walked, a `ScopeStack` knows the scope that the walk is in: the package and the
scopes that have been entered. Enums and oneofs add nothing to the names inside them.
-/

namespace ProtoFront

/-- A scope that has been entered. -/
structure ScopeFrame where
  name? : Option String
  /-- whether names inside are named as if they stood outside -/
  transparent : Bool
  deriving DecidableEq, Repr, Inhabited

/-- The package, and the scopes that have been entered, innermost first. -/
structure ScopeStack where
  package : String
  frames : List ScopeFrame
  deriving DecidableEq, Repr, Inhabited

namespace ScopeStack

/-- The scope at the beginning of a file. -/
def empty : ScopeStack := ⟨"", []⟩

/-- Sets the package. -/
def setPackage (scopes : ScopeStack) (package : String) : ScopeStack := { scopes with package }

/-- Whether a declaration adds nothing to the names inside it. -/
def isTransparent : NodeKind → Bool
  | .scope .enum | .scope .oneof => true
  | _ => false

/-- Enters a declaration. -/
def enter (scopes : ScopeStack) (kind : NodeKind) (name? : Option String) : ScopeStack :=
  { scopes with frames := ⟨name?, isTransparent kind⟩ :: scopes.frames }

/-- Leaves the declaration entered last. -/
def exit (scopes : ScopeStack) : ScopeStack := { scopes with frames := scopes.frames.tail }

/-- The part that a scope adds to names. -/
def part? (frame : ScopeFrame) : Option String :=
  if frame.transparent then none else frame.name?

/-- The full name of the scope that the walk is in. -/
def current (scopes : ScopeStack) : String :=
  (scopes.frames.reverse.filterMap part?).foldl qualify scopes.package

end ScopeStack

end ProtoFront
