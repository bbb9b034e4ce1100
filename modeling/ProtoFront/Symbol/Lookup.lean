import ProtoFront.Symbol.Table

/-!
# Looking up a type by name

A name with a leading dot is a full name. Any other name is looked for from the innermost scope
outwards. Of a name with dots only the first part is looked for in that way: the first scope in
which that part is something that can contain names settles where the rest must be, and no scope
further out is tried. For a name without dots, symbols that are not types are passed over.
-/

namespace ProtoFront

/-- The scope around a scope: what is in front of its last dot. -/
def enclosing (scope : List Char) : List Char :=
  ((scope.reverse.dropWhile (· != '.')).drop 1).reverse

theorem length_enclosing_lt {scope : List Char} (inside : scope ≠ []) :
    (enclosing scope).length < scope.length := by
  have shorter := (List.dropWhile_suffix (l := scope.reverse) (· != '.')).length_le
  have positive : 0 < scope.length := List.length_pos_iff.mpr inside
  simp only [enclosing, List.length_reverse, List.length_drop] at *
  omega

/-- A scope and the scopes around it, innermost first, the outermost being the empty one. -/
def scopesOutward (scope : List Char) : List (List Char) :=
  if _inside : scope = [] then [[]] else scope :: scopesOutward (enclosing scope)
termination_by scope.length
decreasing_by exact length_enclosing_lt _inside

/-- A name cut at its first dot. -/
def splitName (name : List Char) : List Char × Option (List Char) :=
  match name.dropWhile (· != '.') with
  | [] => (name, none)
  | _ :: rest => (name.takeWhile (· != '.'), some rest)

namespace SymbolTable

variable (table : SymbolTable)

/-- What one scope says about a name: nothing, so that the search goes on, or the result of the
search, which may be that there is no such type. -/
def decideIn (visible : List Nat) (first : String) (rest? : Option String) (scope : String) :
    Option (Option Symbol) :=
  let candidate := qualify scope first
  match table.lookupVisible candidate visible, rest? with
  | none, _ => none
  | some symbol, none => if symbol.kind.isType then some (some symbol) else none
  | some symbol, some rest =>
    if symbol.kind.isAggregate then some (table.lookupVisible (qualify candidate rest) visible)
    else none

/-- The type that a name means inside a scope. -/
def lookupType (visible : List Nat) (scope name : String) : Option Symbol :=
  match name.toList with
  | '.' :: full => table.lookupVisible (String.ofList full) visible
  | relative =>
    let (first, rest?) := splitName relative
    ((scopesOutward scope.toList).findSome? fun scope =>
      table.decideIn visible (String.ofList first) (rest?.map String.ofList)
        (String.ofList scope)).join

end SymbolTable

end ProtoFront
