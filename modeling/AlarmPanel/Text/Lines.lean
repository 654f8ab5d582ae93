/-!
# Lines of a byte stream

A stream is cut at each line feed. What follows the last line feed is an unfinished line, which the
next bytes continue; so it does not matter how a stream arrives in parts (`cutLines_append`).
-/

namespace AlarmPanel.Text

/-- The byte that ends a line. -/
def lineFeed : UInt8 := 10

/-- The byte that may stand before the line feed. -/
def carriageReturn : UInt8 := 13

/-- The finished lines, without their line feeds, of an unfinished line and the bytes after it, and
the line left unfinished. -/
def cutLines : List UInt8 → List UInt8 → List (List UInt8) × List UInt8
  | unfinished, [] => ([], unfinished)
  | unfinished, b :: bs =>
    if b = lineFeed then
      let (lines, rest) := cutLines [] bs
      (unfinished :: lines, rest)
    else cutLines (unfinished ++ [b]) bs

/-- The line without one carriage return at its end. -/
def dropCarriageReturn (line : List UInt8) : List UInt8 :=
  if line.getLast? = some carriageReturn then line.dropLast else line

/-- The line without the carriage returns and line feeds at its end. -/
def dropLineEnd (line : List UInt8) : List UInt8 :=
  (line.reverse.dropWhile fun b => b == lineFeed || b == carriageReturn).reverse

theorem cutLines_append (unfinished as bs : List UInt8) :
    cutLines unfinished (as ++ bs) =
      ((cutLines unfinished as).1 ++ (cutLines (cutLines unfinished as).2 bs).1,
        (cutLines (cutLines unfinished as).2 bs).2) := by
  induction as generalizing unfinished with
  | nil => simp [cutLines]
  | cons a as ih =>
    by_cases h : a = lineFeed
    · simp [cutLines, h, ih]
    · simp [cutLines, h, ih]

end AlarmPanel.Text
