import Mus.Text.Ranges

/-! Blank characters. -/
namespace Mus.Text

/-- The blank characters of Unicode 14, with the four information separators. -/
def blankRanges : Ranges := [
  (9, 13), (28, 32), (133, 133), (160, 160), (5760, 5760), (8192, 8202), (8232, 8233),
  (8239, 8239), (8287, 8287), (12288, 12288)]

/-- A blank of any kind: spaces, tabs, line and paragraph ends. -/
def isBlank (c : Char) : Bool :=
  blankRanges.contains c.toNat

def stripBlanks (cs : List Char) : List Char :=
  ((cs.dropWhile isBlank).reverse.dropWhile isBlank).reverse

end Mus.Text
