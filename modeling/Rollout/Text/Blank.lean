/-!
# Blanks at the ends of a text

Ids that hold nothing but blanks are refused, and tick commands are read without the blanks
around them. Blank means Unicode's `White_Space` property.
-/

namespace Rollout.Text

/-- The characters with Unicode's `White_Space` property. -/
def isBlank (c : Char) : Bool :=
  let n := c.toNat
  (0x09 ≤ n && n ≤ 0x0D) || n == 0x20 || n == 0x85 || n == 0xA0 || n == 0x1680 ||
    (0x2000 ≤ n && n ≤ 0x200A) || n == 0x2028 || n == 0x2029 || n == 0x202F || n == 0x205F ||
    n == 0x3000

/-- A text without the blanks at its two ends. -/
def trim (s : String) : String :=
  String.ofList ((s.toList.dropWhile isBlank).reverse.dropWhile isBlank).reverse

/-- Whether a text holds no character but blanks. -/
def allBlank (s : String) : Bool :=
  s.toList.all isBlank

end Rollout.Text
