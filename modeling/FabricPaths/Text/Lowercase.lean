import FabricPaths.Text.CaseTable

/-!
# Lower case

Full lower-casing: each character maps by itself, except that a capital I with
a dot above becomes two characters and a capital sigma takes its final form at
the end of a word.
-/

namespace FabricPaths.Text

/-- The simple lower-case image of a character. -/
def lowerChar (c : Char) : Char :=
  if c.toNat < 0x80 then c.toLower
  else
    match lowerRuns.find? fun (a, b, step, _) =>
        a ≤ c.toNat && c.toNat ≤ b && (c.toNat - a) % step == 0 with
    | some (_, _, _, d) => Char.ofNat (Int.toNat ((c.toNat : Int) + d))
    | none => c

/-- Whether a code point lies in one of the ranges. -/
def inRanges (rs : List (Nat × Nat)) (c : Char) : Bool :=
  rs.any fun (a, b) => a ≤ c.toNat && c.toNat ≤ b

/-- Whether the nearest character that counts has case. -/
def meetsCased (cs : List Char) : Bool :=
  match cs.dropWhile (inRanges ignorableRanges) with
  | [] => false
  | c :: _ => inRanges casedRanges c

/-- Lower-cases a text; `before` holds the characters already passed, nearest
first. -/
def lowerFrom (before : List Char) : List Char → List Char
  | [] => []
  | c :: cs =>
    let image :=
      if c == '\u0130' then ['i', '\u0307']
      else if c == '\u03a3' then
        [if meetsCased before && !meetsCased cs then '\u03c2' else '\u03c3']
      else [lowerChar c]
    image ++ lowerFrom (c :: before) cs

/-- The text in lower case. -/
def lower (cs : List Char) : List Char :=
  lowerFrom [] cs

end FabricPaths.Text
