/-!
# Blank text

The `White_Space` property of the Unicode Character Database, and texts made of such characters
only. A connection string that is blank names no cluster.
-/

namespace HostBridge.Text

/-- The character has the Unicode property `White_Space`. -/
def isBlankChar (c : Char) : Bool :=
  let n := c.toNat
  (0x9 ≤ n && n ≤ 0xD) || n == 0x20 || n == 0x85 || n == 0xA0 || n == 0x1680 ||
    (0x2000 ≤ n && n ≤ 0x200A) || n == 0x2028 || n == 0x2029 || n == 0x202F || n == 0x205F ||
    n == 0x3000

/-- Nothing is left of the text once white space is trimmed from its ends. -/
def isBlank (s : String) : Bool :=
  s.toList.all isBlankChar

theorem isBlank_eq_true_iff {s : String} :
    isBlank s = true ↔ ∀ c ∈ s.toList, isBlankChar c = true := by
  simp [isBlank]

end HostBridge.Text
