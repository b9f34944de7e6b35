import MxLang.Text.Basic

/-!
# Lines

A zone file is divided at every line end that Unicode knows (`splitLines`), a source at the line
feed alone (`splitFeeds`), after the carriage returns of other conventions have been folded into
line feeds (`foldReturns`).  Input is delivered line by line with the line feeds kept
(`feedLines`).
-/

namespace MxLang.Text

/-- A character that ends a line of a zone file; a carriage return and the line feed right after
it end one line together. -/
def isLineEnd (c : Char) : Bool :=
  let n := c.toNat
  (0xA ≤ n && n ≤ 0xD) || (0x1C ≤ n && n ≤ 0x1E) || n = 0x85 || n = 0x2028 || n = 0x2029

/-- What follows the first line and its end. -/
def afterLine (t : Text) : Text :=
  match t.dropWhile (!isLineEnd ·) with
  | '\r' :: '\n' :: rest => rest
  | _ :: rest => rest
  | [] => []

theorem length_dropWhile_le (p : Char → Bool) (t : Text) :
    (t.dropWhile p).length ≤ t.length :=
  (List.dropWhile_suffix p).length_le

theorem afterLine_lt {t : Text} (h : t ≠ []) : (afterLine t).length < t.length := by
  have hle := length_dropWhile_le (!isLineEnd ·) t
  have hpos : 0 < t.length := List.length_pos_iff.2 h
  unfold afterLine
  split <;> simp_all
  all_goals omega

/-- The lines of `t` after those of `done`, which stand the latest first. -/
def splitLinesOnto (done : List Text) (t : Text) : List Text :=
  if _h : t = [] then done.reverse
  else splitLinesOnto (t.takeWhile (!isLineEnd ·) :: done) (afterLine t)
termination_by t.length
decreasing_by exact afterLine_lt _h

/-- The lines of a text without their ends; a line end at the very end starts no further line. -/
def splitLines (t : Text) : List Text :=
  splitLinesOnto [] t

/-- The pieces between line feeds: one more than there are line feeds. -/
def splitFeeds (t : Text) : List Text :=
  t.splitOn '\n'

/-- Folding the rest of a text; what is folded already stands in `done`, the latest first. -/
def foldReturnsOnto (done : Text) : Text → Text
  | [] => done.reverse
  | '\r' :: '\n' :: rest => foldReturnsOnto ('\n' :: done) rest
  | '\r' :: rest => foldReturnsOnto ('\n' :: done) rest
  | c :: rest => foldReturnsOnto (c :: done) rest

/-- Every carriage return, with the line feed right after it if there is one, becomes a line
feed. -/
def foldReturns (t : Text) : Text :=
  foldReturnsOnto [] t

/-- Cutting the rest of a text; `begun` is the open line and `done` the finished ones, both the
latest first. -/
def feedLinesOnto (done : List Text) (begun : Text) : Text → List Text
  | [] => if begun = [] then done.reverse else (begun.reverse :: done).reverse
  | c :: rest =>
    if c = '\n' then feedLinesOnto ((c :: begun).reverse :: done) [] rest
    else feedLinesOnto done (c :: begun) rest

/-- The lines of a text, each with the line feed that ends it; the last may lack one. -/
def feedLines (t : Text) : List Text :=
  feedLinesOnto [] [] t

end MxLang.Text
