import ProtoFront.Bundle.Problem

/-!
# The symbol table

The symbols of a bundle, sorted by name and searched by halving. One name can have several
symbols: every file that belongs to a package declares the package, and a name that is defined
twice keeps both definitions. Symbols with one name stay in the order in which they were inserted.
-/

namespace ProtoFront

/-- Symbols in the order in which they were inserted, or sorted by name. -/
structure SymbolTable where
  symbols : Array Symbol
  deriving DecidableEq, Repr, Inhabited

namespace SymbolTable

variable (table : SymbolTable)

/-- A table without symbols. -/
def empty : SymbolTable := ⟨#[]⟩

/-- The number of symbols. -/
def size : Nat := table.symbols.size

/-- Adds a symbol at the end. -/
def insert (symbol : Symbol) : SymbolTable := ⟨table.symbols.push symbol⟩

/-- Adds symbols at the end. -/
def insertAll (symbols : List Symbol) : SymbolTable := symbols.foldl insert table

/-- The table sorted by name. Symbols with one name keep their order. -/
def sorted : SymbolTable :=
  ⟨(table.symbols.toList.mergeSort fun first second => !(second.name < first.name)).toArray⟩

/-! ## Definitions that clash -/

/-- The later of two symbols with one name that are not both packages, with the first symbol of
that name. -/
def clashesFrom : List Symbol → List (Symbol × Symbol)
  | [] => []
  | first :: rest =>
    let named := rest.takeWhile fun symbol => symbol.name == first.name
    ((named.filter fun symbol => !(first.kind == .package && symbol.kind == .package)).map
      fun symbol => (symbol, first))
    ++ clashesFrom (rest.dropWhile fun symbol => symbol.name == first.name)
termination_by symbols => symbols.length
decreasing_by
  have := (List.dropWhile_suffix (l := rest) fun symbol => symbol.name == first.name).length_le
  simp only [List.length_cons]
  omega

/-- The problem of a symbol that clashes with an earlier one; `files` are the paths of the
files. -/
def duplicate? (files : List Path) (clash : Symbol × Symbol) : Option Problem := do
  let file ← files[clash.1.file]?
  let previous ← files[clash.2.file]?
  return .duplicateSymbol clash.1.name file clash.1.token previous

/-- Every name that is defined twice, in a table that is sorted. There is no answer if a symbol
that clashes is in a file without a path. -/
def duplicates? (files : List Path) : Option (List Problem) :=
  (clashesFrom table.symbols.toList).mapM (duplicate? files)

/-! ## Looking up -/

/-- The first index between `low` and `high` at which a test fails, for a test that, once it has
failed, fails for good. -/
def partitionPoint (test : Symbol → Bool) (low high : Nat) : Nat :=
  if low < high then
    let middle := (low + high) / 2
    if (table.symbols[middle]?).any test then partitionPoint test (middle + 1) high
    else partitionPoint test low middle
  else low
termination_by high - low

/-- Every symbol with a name, in a table that is sorted. -/
def lookup (name : String) : List Symbol :=
  let start := table.partitionPoint (fun symbol => symbol.name < name) 0 table.size
  let stop := table.partitionPoint (fun symbol => symbol.name == name) start table.size
  (table.symbols.extract start stop).toList

/-- The first symbol with a name that is in one of the files that can be seen. -/
def lookupVisible (name : String) (visible : List Nat) : Option Symbol :=
  (table.lookup name).find? fun symbol => visible.contains symbol.file

end SymbolTable

end ProtoFront
