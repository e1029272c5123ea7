import ClusterQuery.Text.Width

/-!
# Box tables

A table is drawn with box characters: a double line under the header, dashed lines between the rows, and every column as
wide as its widest cell with a space on both sides. A cell with line feeds takes several lines.
-/

namespace ClusterQuery

/-- A header and rows of as many cells. -/
structure Table where
  header : List String
  rows : List (List String)
  deriving DecidableEq, Repr

namespace Table

/-- The lines of a cell. -/
def cellLines : List Char → List (List Char)
  | [] => [[]]
  | c :: rest =>
    if c = '\n' then [] :: cellLines rest
    else
      match cellLines rest with
      | first :: others => (c :: first) :: others
      | [] => [[c]]

/-- The columns that a cell takes without its margins. -/
def cellWidth (cell : String) : Nat :=
  ((cellLines cell.toList).map Text.width).foldl max 0

/-- The widths of the columns of rows, one for each cell of the header. -/
def widths (table : Table) : List Nat :=
  table.rows.foldl (fun widths row => List.zipWith max widths (row.map cellWidth)) (table.header.map cellWidth)

/-- A cell's line, filled up to the width of its column and with its margins. -/
def fill (width : Nat) (line : List Char) : String :=
  String.ofList (' ' :: line ++ List.replicate (width - Text.width line) ' ' ++ [' '])

/-- The lines of a row. -/
def rowLines (widths : List Nat) (row : List String) : List String :=
  let cells := row.map fun cell => cellLines cell.toList
  let height := (cells.map List.length).foldl max 0
  (List.range height).map fun position =>
    "│" ++ "┆".intercalate (List.zipWith (fun width lines => fill width (lines.getD position [])) widths cells) ++ "│"

/-- A horizontal line. -/
def lineText (widths : List Nat) (left along between right : String) : String :=
  left ++ between.intercalate (widths.map fun width => String.join (List.replicate (width + 2) along)) ++ right

/-- The lines of rows, with a dashed line between each two. -/
def bodyLines (widths : List Nat) (rows : List (List String)) : List String :=
  ([lineText widths "├" "╌" "┼" "┤"].intercalate (rows.map (rowLines widths)))

/-- The drawing of a table, without a line feed at its end. -/
def text (table : Table) : String :=
  let widths := table.widths
  "\n".intercalate
    (lineText widths "┌" "─" "┬" "┐" :: rowLines widths table.header ++ lineText widths "╞" "═" "╪" "╡" ::
      bodyLines widths table.rows ++ [lineText widths "└" "─" "┴" "┘"])

end Table

end ClusterQuery
