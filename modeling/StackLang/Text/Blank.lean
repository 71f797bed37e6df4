import StackLang.Text.Ranges

-- Blanks part tokens. All of Unicode's white space counts, and the four
-- information separators as well; only a line feed ends a line.

namespace StackLang.Text

def blanks : Ranges :=
  [(0x9, 0xd), (0x1c, 0x20), (0x85, 0x85), (0xa0, 0xa0), (0x1680, 0x1680), (0x2000, 0x200a),
   (0x2028, 0x2029), (0x202f, 0x202f), (0x205f, 0x205f), (0x3000, 0x3000)]

def isBlank (c : Char) : Bool :=
  blanks.holds c.toNat

def stripLeft (cs : List Char) : List Char :=
  cs.dropWhile isBlank

-- Without the blanks at either end.
def strip (cs : List Char) : List Char :=
  (stripLeft (stripLeft cs).reverse).reverse

end StackLang.Text
