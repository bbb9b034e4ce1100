import ProtoFront.Diagnostic.Basic
import ProtoFront.Text.Lines
import ProtoFront.Total

/-!
# Diagnostics with their source

A report shows the line that a diagnostic is about, with colours, an arrow to the token and what
was expected there:

```
Error: expected '=', found ';'
   ╭─[a.proto:1:8]
   │
 1 │ int32 x;
   │        ┬
   │        ╰── expected '='
───╯
```

The bytes that the token covers are taken as numbers of characters. In a source with characters
of several bytes a report therefore points too far to the right, or at nothing.
-/

namespace ProtoFront

namespace Report

/-! ## Colours -/

/-- Text in a colour. -/
def paint (colour text : String) : String :=
  "\x1b[" ++ colour ++ "m" ++ text ++ "\x1b[0m"

/-- The colour of errors. -/
def error : String → String := paint "31"

/-- The colour of the frame. -/
def frame : String → String := paint "38;5;246"

/-- The colour of the frame where no line is numbered. -/
def margin : String → String := paint "38;5;240"

/-- The colour of source that is not pointed at. -/
def source : String → String := paint "38;5;249"

/-- A number of blanks. -/
def blanks (n : Nat) : String := "".pushn ' ' n

/-- A number of copies of a text. -/
def copies (n : Nat) (text : String) : String := String.join (List.replicate n text)

/-! ## Places -/

/-- A line of the source: its number counted from zero, the character where it starts, and its
characters with the terminator. -/
structure SourceLine where
  number : Nat
  start : Nat
  text : List Char
  deriving Repr

/-- Numbers lines from `number` and from the character `start` on. -/
def sourceLinesFrom (number start : Nat) : List (List Char) → List SourceLine
  | [] => []
  | line :: rest => ⟨number, start, line⟩ :: sourceLinesFrom (number + 1) (start + line.length) rest

/-- The lines of a source. -/
def sourceLines (text : String) : List SourceLine :=
  sourceLinesFrom 0 0 (Text.splitLines text.toList)

/-- The line that a character stands in, the last line for the end of the source. -/
def lineOf? (lines : List SourceLine) (position : Nat) : Option SourceLine :=
  (lines.filter fun line => line.start ≤ position).getLast?

/-- Tabs reach to the next multiple of four. -/
def tabWidth : Nat := 4

/-- What is drawn for the character in a column: one character, or the blanks of a tab. -/
def cells (column : Nat) (c : Char) : List Char :=
  if c == '\t' then List.replicate (tabWidth - column % tabWidth) ' '
  else if Text.isWhite c then [' ']
  else [c]

/-- A line as it is drawn, column by column. -/
def drawn (line : SourceLine) : List (List Char) :=
  (Text.trimEnd line.text).mapIdx cells

/-- How wide a column is drawn. Columns behind the line are one wide. -/
def widthAt (columns : List (List Char)) (column : Nat) : Nat :=
  ((columns[column]?).map List.length).getD 1

/-! ## Rows -/

/-- What an arrow points at: columns of a line, the first one included and the last one not. -/
structure Target where
  first : Nat
  stop : Nat
  deriving Repr

namespace Target

/-- The column where the arrow stands. -/
def middle (target : Target) : Nat := (target.first + target.stop) / 2

/-- Whether the target covers a column. -/
def covers (target : Target) (column : Nat) : Bool :=
  target.first ≤ column && column < target.stop

/-- The columns that the rows below the line fill. -/
def columns (target : Target) : List Nat := List.range (target.stop + 2)

end Target

/-- The line itself, what is pointed at in the colour of errors. -/
def lineRow (columns : List (List Char)) (target : Target) : String :=
  String.join ((columns.mapIdx fun column shown =>
    let colour := if target.covers column then error else source
    String.join (shown.map fun c => colour c.toString)))

/-- The row with the arrow. An empty target gets a bare stem. -/
def arrowRow (columns : List (List Char)) (target : Target) : String :=
  String.join (target.columns.map fun column =>
    let width := widthAt columns column
    if column = target.middle then
      if target.covers column then error "┬" ++ copies (width - 1) (error "─")
      else error "│" ++ copies (width - 1) (error " ")
    else if target.covers column then copies width (error "─")
    else blanks width)

/-- The row that leads from the arrow to the message. -/
def messageRow (columns : List (List Char)) (target : Target) (message : String) : String :=
  String.join (target.columns.map fun column =>
    let width := widthAt columns column
    if column < target.middle then blanks width
    else if column = target.middle then error "╰" ++ copies (width - 1) (error "─")
    else copies width (error "─"))
  ++ " " ++ message

/-! ## The report -/

/-- The beginning of a row that shows the line with the given number, counted from zero. -/
def numbered (width number : Nat) : String :=
  let shown := toString (number + 1)
  " " ++ frame (blanks (width - shown.length) ++ shown ++ " │") ++ " "

/-- The beginning of a row below a line. -/
def unnumbered (width : Nat) : String := " " ++ margin (blanks width ++ " │") ++ " "

/-- The part of a line that lies between two characters of the source. -/
def targetIn (line : SourceLine) (start stop : Nat) : Target :=
  ⟨start - line.start, stop - line.start⟩

/-- The rows for a span within one line. When it reaches out of the line, the line is not shown. -/
def inlineRows (width : Nat) (line : SourceLine) (start stop : Nat) (message : String) :
    List String :=
  if line.start + line.text.length < stop then [unnumbered width]
  else
    let target := targetIn line start stop
    let columns := drawn line
    [numbered width line.number ++ lineRow columns target,
      unnumbered width ++ arrowRow columns target,
      unnumbered width ++ messageRow columns target message]

/-- A line with the beginning or the end of an arrow at its side. -/
def bracketRow (width : Nat) (corner : String) (line : SourceLine) (start stop : Nat) : String :=
  numbered width line.number ++ error corner ++ error "─" ++ error "▶" ++ error " "
    ++ lineRow (drawn line) (targetIn line start stop)

/-- The rows below the last line of a span over several lines. -/
def closingRows (width : Nat) (line : SourceLine) (message : String) : List String :=
  let columns := drawn line
  let length := total (widthAt columns) (List.range (line.text.length + 2))
  [unnumbered width ++ error "│" ++ blanks (length + 3),
    unnumbered width ++ error "╰" ++ copies (length + 3) (error "─") ++ " " ++ message]

/-- The row that stands for the lines left out between the first and the last. -/
def gapRow (width : Nat) : String :=
  " " ++ margin (blanks width ++ " ┆") ++ " " ++ error "┆" ++ blanks 3

/-- The rows for a span over several lines: the first line and the last, with one arrow from the
one to the other. -/
def multilineRows (width : Nat) (first last : SourceLine) (start stop : Nat) (message : String) :
    List String :=
  let closed := stop ≤ last.start + last.text.length
  let gap := first.number + 1 < last.number || !closed
  [bracketRow width "╭" first start stop]
  ++ (if gap then [gapRow width] else [])
  ++ (if closed then bracketRow width "├" last start stop :: closingRows width last message else [])

/-- The frame around the lines of a span, with an arrow at the characters from `start` to
`stop`. -/
def excerpt (first last : SourceLine) (start stop : Nat) (file message : String) : String :=
  let width := (toString (last.number + 1)).length
  let gutter := blanks (width + 2)
  let rows :=
    if first.number = last.number then inlineRows width first start stop message
    else multilineRows width first last start stop message
  gutter ++ frame "╭" ++ frame "─" ++ frame "[" ++ file ++ ":" ++ toString (first.number + 1) ++ ":"
    ++ toString (start - first.start + 1) ++ frame "]" ++ "\n"
  ++ gutter ++ frame "│" ++ "\n"
  ++ String.join (rows.map (· ++ "\n"))
  ++ frame (copies (width + 2) "─" ++ "╯") ++ "\n"

/-- The excerpt for a span, unless the span reaches out of the source. -/
def excerpt? (lines : List SourceLine) (start stop : Nat) (file message : String) :
    Option String := do
  let length := total (fun line => line.text.length) lines
  let final := max start (stop - 1)
  guard (final ≤ length)
  let first ← lineOf? lines start
  let last ← lineOf? lines final
  return excerpt first last start stop file message

end Report

namespace Diagnostic

/-- The report of one diagnostic. -/
def fullReport (diagnostic : Diagnostic) (buffer : TokenBuffer) (file : String) : String :=
  let (start, stop) := buffer.span diagnostic.token
  Report.error "Error:" ++ " " ++ diagnostic.message ++ "\n"
  ++ (Report.excerpt? (Report.sourceLines buffer.source) start stop file diagnostic.label).getD ""

/-- The reports of all diagnostics. -/
def fullReports (diagnostics : List Diagnostic) (buffer : TokenBuffer) (file : String) : String :=
  String.join (diagnostics.map (·.fullReport buffer file))

end Diagnostic

end ProtoFront
