/-!
# Blank characters

The characters that separate fields in a dump line and that count as empty
margin. Trimming removes them from both ends of a text; the line formats use
the same class between fields.
-/

namespace FabricPaths.Text

/-- Separators and control characters that count as blank. -/
def isBlank (c : Char) : Bool :=
  let n := c.toNat
  (0x09 ≤ n && n ≤ 0x0d) || (0x1c ≤ n && n ≤ 0x20) || n == 0x85 || n == 0xa0 ||
    n == 0x1680 || (0x2000 ≤ n && n ≤ 0x200a) || n == 0x2028 || n == 0x2029 ||
    n == 0x202f || n == 0x205f || n == 0x3000

/-- The text without its leading blanks. -/
def dropBlanks (cs : List Char) : List Char :=
  cs.dropWhile isBlank

/-- The text without its trailing blanks. -/
def trimRight (cs : List Char) : List Char :=
  (cs.reverse.dropWhile isBlank).reverse

/-- The text without its trailing line feeds. -/
def dropLineFeeds (cs : List Char) : List Char :=
  (cs.reverse.dropWhile (· == '\n')).reverse

/-- The string without its trailing blanks. -/
def trimRightString (s : String) : String :=
  String.ofList (trimRight s.toList)

/-- The string without its trailing line feeds. -/
def dropLineFeedsString (s : String) : String :=
  String.ofList (dropLineFeeds s.toList)

/-- Every character that core calls whitespace is blank. -/
theorem isBlank_of_isWhitespace {c : Char} (h : c.isWhitespace = true) : isBlank c = true := by
  simp only [Char.isWhitespace, Bool.or_eq_true, decide_eq_true_eq] at h
  rcases h with ((h | h) | h) | h <;> subst h <;> decide

/-- Dropping leading blanks leaves nothing or starts with a character that is not blank. -/
theorem dropBlanks_head {cs : List Char} {c : Char} {r : List Char}
    (h : dropBlanks cs = c :: r) : isBlank c = false := by
  induction cs with
  | nil => simp [dropBlanks] at h
  | cons d ds ih =>
    by_cases hd : isBlank d
    · exact ih (by simpa [dropBlanks, List.dropWhile_cons, hd] using h)
    · simp only [dropBlanks, List.dropWhile_cons, hd, Bool.false_eq_true, if_false] at h
      injection h with h₁ _
      simpa [h₁] using hd

end FabricPaths.Text
