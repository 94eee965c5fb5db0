/-!
# Fixed words

The words for the two truth values, and the mark with which a text file may begin.
-/

namespace Latch

def boolText (b : Bool) : String := if b then "true" else "false"

/-- Drops a byte order mark at the start of a text, which is not a part of it. -/
def dropByteOrderMark : List Char → List Char
  | '\ufeff' :: rest => rest
  | cs => cs

end Latch
