/-!
# Lines of a text

Two divisions of a text. Files are divided at line feeds only, once every kind
of line end has been turned into one; each line keeps its line feed. A text
that is shown indented is divided wherever a reader would see a new line.
-/

namespace FabricPaths.Text

/-- Adds one character to a text whose line ends are already single line feeds
(newest first); the flag tells that the previous character was a carriage
return. -/
def pushNormalized (st : List Char × Bool) (c : Char) : List Char × Bool :=
  if c == '\n' && st.2 then (st.1, false)
  else if c == '\r' then ('\n' :: st.1, true)
  else (c :: st.1, false)

/-- Turns every line end into a single line feed. -/
def normalizeLineEnds (cs : List Char) : List Char :=
  (cs.foldl pushNormalized ([], false)).1.reverse

/-- Puts one character in front of a text that is divided into lines. -/
def consLine (c : Char) (ls : List (List Char)) : List (List Char) :=
  match ls with
  | [] => [[c]]
  | l :: rest => if c == '\n' then [c] :: l :: rest else (c :: l) :: rest

/-- The lines of a text, each with its line feed; the last may lack one. -/
def splitLines (cs : List Char) : List (List Char) :=
  cs.foldr consLine []

/-- No character is lost in the division. -/
theorem flatten_splitLines (cs : List Char) : (splitLines cs).flatten = cs := by
  induction cs with
  | nil => rfl
  | cons c cs ih =>
    simp only [splitLines, List.foldr_cons] at ih ⊢
    generalize hl : cs.foldr consLine [] = ls at ih
    cases ls with
    | nil => simp [consLine, ← ih]
    | cons l rest =>
      simp only [consLine]
      split <;> simp [← ih]

/-- Characters at which a reader sees a new line. -/
def isVisualBreak (c : Char) : Bool :=
  let n := c.toNat
  (0x0a ≤ n && n ≤ 0x0d) || (0x1c ≤ n && n ≤ 0x1e) || n == 0x85 || n == 0x2028 || n == 0x2029

/-- Adds one character to a text divided for the eye: the finished lines and
the current one (newest first), and whether the previous character was a
carriage return. -/
def pushVisual (st : List (List Char) × List Char × Bool) (c : Char) :
    List (List Char) × List Char × Bool :=
  let (done, current, afterReturn) := st
  if c == '\n' && afterReturn then (done, current, false)
  else if isVisualBreak c then (current.reverse :: done, [], c == '\r')
  else (done, c :: current, false)

/-- The lines of a text as the eye sees them, without their ends. -/
def visualLines (cs : List Char) : List (List Char) :=
  let (done, current, _) := cs.foldl pushVisual ([], [], false)
  (if current.isEmpty then done else current.reverse :: done).reverse

/-- The text with four blanks before every visible line. -/
def indented (s : String) : String :=
  "\n".intercalate ((visualLines s.toList).map fun l => "    " ++ String.ofList l)

/-- The lines of a file's text. -/
def fileLines (cs : List Char) : List String :=
  (splitLines (normalizeLineEnds cs)).map String.ofList

end FabricPaths.Text
