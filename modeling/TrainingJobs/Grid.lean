import TrainingJobs.Text.Width

/-!
# Tables of text

A `Grid` has a row of titles and rows of cells. It is drawn with a double line below the titles and dashed lines between
rows and columns. Every column is as wide as its widest cell, and a cell of several lines makes its row as high.
-/

namespace TrainingJobs

/-- Titles, and rows of as many cells. -/
structure Grid where
  titles : List String
  rows : List (List String)

namespace Grid

/-- The lines of a cell. -/
def cellLines (cell : String) : List String := cell.splitOn "\n"

/-- How many columns a cell takes. -/
def cellWidth (cell : String) : Nat := ((cellLines cell).map Text.width).foldl max 0

/-- The width of every column. -/
def widths (g : Grid) : List Nat :=
  g.rows.foldl (fun widths row => widths.zipWith max (row.map cellWidth)) (g.titles.map cellWidth)

/-- The same character a number of times. -/
def repeated (n : Nat) (c : Char) : String := String.ofList (List.replicate n c)

/-- A line between rows: how it starts, what it is made of, what stands between columns, and how it ends. -/
def rule (widths : List Nat) (start : String) (fill : Char) (between stop : String) : String :=
  start ++ between.intercalate (widths.map fun w => repeated (w + 2) fill) ++ stop

/-- A text with a blank on either side and blanks up to the width of its column. -/
def padded (text : String) (width : Nat) : String :=
  " " ++ text ++ repeated (width - Text.width text) ' ' ++ " "

/-- The lines of a row: as many as its highest cell has. -/
def rowLines (widths : List Nat) (row : List String) : List String :=
  let cells := row.map cellLines
  let height := (cells.map List.length).foldl max 1
  (List.range height).map fun i =>
    "│" ++ "┆".intercalate (cells.zipWith (fun lines w => padded (lines.getD i "") w) widths) ++ "│"

/-- The drawn table, without a line feed at its end. -/
def render (g : Grid) : String :=
  let widths := g.widths
  let between := rule widths "├" '╌' "┼" "┤"
  let body := (g.rows.map (rowLines widths)).intersperse [between]
  let lines :=
    rule widths "┌" '─' "┬" "┐" :: rowLines widths g.titles ++ rule widths "╞" '═' "╪" "╡" :: body.flatten ++
      [rule widths "└" '─' "┴" "┘"]
  "\n".intercalate lines

end Grid

end TrainingJobs
