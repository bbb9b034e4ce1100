/-!
# Paths

A `Path` is kept as it was written. What it means is its list of components (`Path.components`):
repeated slashes, a slash at the end, and dots that are not in front are not part of it. Two paths
are the same when their components are (`Path.same`), and everything that is looked up by path is
looked up in that sense, while what is shown is the spelling.

`Path.normalize` drops the dots and folds `..` against the component before it, by the text of the
path alone.
-/

namespace ProtoFront

/-- A part of a path between slashes. -/
inductive PathComponent where
  | root
  /-- a dot in front of a relative path -/
  | here
  /-- two dots -/
  | up
  | name (text : String)
  deriving DecidableEq, Repr, Inhabited

/-- How a component is written. -/
def PathComponent.text : PathComponent → String
  | root => "/"
  | here => "."
  | up => ".."
  | name text => text

/-- A path as it was written. -/
structure Path where
  text : String
  deriving DecidableEq, Repr, Inhabited

namespace Path

/-! ## Components -/

/-- The parts of a text between slashes; there is always at least one, perhaps empty. -/
def segments : List Char → List (List Char)
  | [] => [[]]
  | c :: rest =>
    if c == '/' then [] :: segments rest
    else
      match segments rest with
      | [] => [[c]]
      | first :: more => (c :: first) :: more

/-- The segments of a path, dots and empty ones included. -/
def steps (path : Path) : List String := (segments path.text.toList).map String.ofList

/-- The component of a segment that is not the first. -/
def component? (segment : List Char) : Option PathComponent :=
  if segment = [] ∨ segment = ['.'] then none
  else if segment = ['.', '.'] then some .up
  else some (.name (String.ofList segment))

/-- The component of the first segment of a relative path, where a dot counts. -/
def firstComponent? (segment : List Char) : Option PathComponent :=
  if segment = ['.'] then some .here else component? segment

/-- The components of a path. -/
def components (path : Path) : List PathComponent :=
  match segments path.text.toList with
  | [] => []
  | [] :: second :: more => .root :: (second :: more).filterMap component?
  | first :: more => (firstComponent? first).toList ++ more.filterMap component?

/-- Whether two paths have the same components. -/
def same (path other : Path) : Bool := path.components == other.components

theorem same_refl (path : Path) : path.same path := by simp [same]

theorem same_iff {path other : Path} :
    path.same other = true ↔ path.components = other.components := by
  rw [same, beq_iff_eq]

theorem same_symm {path other : Path} (h : path.same other = true) : other.same path = true :=
  same_iff.mpr (same_iff.mp h).symm

/-- The path of a list of components, with single slashes. -/
def ofComponents : List PathComponent → Path
  | .root :: rest => ⟨"/" ++ "/".intercalate (rest.map PathComponent.text)⟩
  | relative => ⟨"/".intercalate (relative.map PathComponent.text)⟩

/-- Whether a path starts at the root. -/
def isAbsolute (path : Path) : Bool := path.text.toList.head? == some '/'

/-! ## Joining and taking apart -/

/-- A path as seen from another. An absolute path does not depend on the other. -/
def join (path : Path) (relative : Path) : Path :=
  if relative.isAbsolute then relative
  else if path.text.isEmpty || path.text.toList.getLast? == some '/' then
    ⟨path.text ++ relative.text⟩
  else ⟨path.text ++ "/" ++ relative.text⟩

/-- The extension of a file name: what follows its last dot, unless nothing stands before it. -/
def extension? (name : String) : Option String :=
  match (name.toList.reverse.dropWhile (· != '.')).tail with
  | [] => none
  | _ => some (String.ofList (name.toList.reverse.takeWhile (· != '.')).reverse)

/-- Drops the segments at the end that are no components. -/
def trimSegments (isComponent : List Char → Bool) (segments : List (List Char)) :
    List (List Char) :=
  (segments.reverse.dropWhile fun segment => !isComponent segment).reverse

/-- Segments put together again. -/
def unsegment (segments : List (List Char)) : String :=
  "/".intercalate (segments.map String.ofList)

/-- The path without its last component, spelled as before. The root and the empty path have no
parent. -/
def parent? (path : Path) : Option Path :=
  let inner (segment : List Char) : Bool := (component? segment).isSome
  match segments path.text.toList with
  | [] => none
  | [] :: second :: more =>
    match trimSegments inner (second :: more) with
    | [] => none
    | named =>
      match trimSegments inner named.dropLast with
      | [] => some ⟨"/"⟩
      | above => some ⟨unsegment ([] :: above)⟩
  | first :: more =>
    match trimSegments inner more with
    | [] => if (firstComponent? first).isSome then some ⟨""⟩ else none
    | named => some ⟨unsegment (first :: trimSegments inner named.dropLast)⟩

/-- The last component, if it is a name. -/
def fileName? (path : Path) : Option String :=
  match path.components.getLast? with
  | some (.name text) => some text
  | _ => none

/-! ## Normal form -/

/-- Adds a component to a folded path, whose components are given last first. Two dots remove the
component before them, if there is one; they remove even two dots that were kept. -/
def fold (folded : List PathComponent) : PathComponent → List PathComponent
  | .here => folded
  | .up =>
    match folded with
    | [] => [.up]
    | .root :: above => .up :: .root :: above
    | _ :: above => above
  | component => component :: folded

/-- The components of the normal form. -/
def normalComponents (path : Path) : List PathComponent := (path.components.foldl fold []).reverse

/-- The normal form of a path. -/
def normalize (path : Path) : Path := ofComponents path.normalComponents

end Path

end ProtoFront
