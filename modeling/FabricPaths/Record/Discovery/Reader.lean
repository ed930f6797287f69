import FabricPaths.Record.Discovery

/-!
# Discovery lines

A discovery dump describes one port a line. The line of a connected port names
both ends of the cable and describes the nodes in parentheses; the line of any
other port stops after the port itself. Path lines, comments and empty lines
are passed over.
-/

namespace FabricPaths

open Text

namespace Discovery

/-- Path lines, comments and empty lines. -/
def isIgnorable (raw : String) : Bool :=
  match raw.toList with
  | 'D' :: 'R' :: _ => true
  | cs =>
    match dropBlanks cs with
    | [] => true
    | c :: _ => c == '#'

/-- One end of a cable as a line spells it. -/
structure End where
  /-- What the node is. -/
  type : NodeType
  /-- The digits of the local identifier. -/
  lid : List Char
  /-- The digits of the port. -/
  port : List Char
  /-- The sixteen digits of the GUID. -/
  guid : List Char
deriving DecidableEq

/-- Reads a GUID: sixteen small hexadecimal digits behind their mark. -/
def scanGuid (cs : List Char) : Option (List Char × List Char) := do
  let r ← Scan.word ['0', 'x'] cs
  Scan.exactly isLowerHex 16 r

/-- Reads one end of a cable and the blanks that follow it. -/
def scanEnd (cs : List Char) : Option (End × List Char) := do
  let (type, r) ← NodeType.scan cs
  let r ← Scan.blanks r
  let (lid, r) ← Scan.run isDigit r
  let r ← Scan.blanks r
  let (port, r) ← Scan.run isDigit r
  let r ← Scan.blanks r
  let (guid, r) ← scanGuid r
  let r ← Scan.blanks r
  return (⟨type, lid, port, guid⟩, r)

/-- Reads a width: digits and an `x`. -/
def scanWidth (cs : List Char) : Option (List Char × List Char) := do
  let (digits, r) ← Scan.run isDigit cs
  let r ← Scan.word ['x'] r
  return (digits ++ ['x'], r)

/-- Reads the speed between exactly one blank and at least one; the speed may
be empty. -/
def scanSpeed (cs : List Char) : Option (List Char × List Char) := do
  match cs with
  | [] => none
  | c :: r =>
    if isBlank c then
      let speed := r.takeWhile fun c => !isBlank c
      let r ← Scan.blanks (r.dropWhile fun c => !isBlank c)
      return (speed, r)
    else none

/-- Reads the description after its opening parenthesis: all up to the last
closing parenthesis of the line on which it begins. Where that line ends before
any other character, the parenthesis may stand behind further blanks. -/
def scanDescription (cs : List Char) : Option (List Char) :=
  let body := dropBlanks cs
  let line := Scan.lineRest body
  match dropBlanks (body.drop line.length) with
  | ')' :: _ => some line
  | _ => Scan.beforeLast (· == ')') line

/-- The fields of a connected port's line, as spelt. -/
structure LinkFields where
  /-- The near end. -/
  src : End
  /-- The width. -/
  width : List Char
  /-- The speed. -/
  speed : List Char
  /-- The far end. -/
  dest : End
  /-- The description. -/
  description : List Char
deriving DecidableEq

/-- Takes the line of a connected port apart. -/
def scanLink (cs : List Char) : Option LinkFields := do
  let (src, r) ← scanEnd cs
  let (width, r) ← scanWidth r
  let (speed, r) ← scanSpeed r
  let r ← Scan.word ['-'] r
  let r ← Scan.blanks r
  let (dest, r) ← scanEnd r
  let r ← Scan.word ['('] r
  let description ← scanDescription r
  return ⟨src, width, speed, dest, description⟩

/-- Where a description is divided: the rest behind a hyphen between blanks. -/
def behindSeparator (cs : List Char) : Option (List Char) := do
  let r ← Scan.blanks cs
  let r ← Scan.word ['-'] r
  Scan.blanks r

/-- Divides a text at the last separator that begins on its first line. -/
def divide : List Char → Option (List Char × List Char)
  | [] => none
  | c :: cs =>
    match (if c == '\n' then none else divide cs) with
    | some (left, right) => some (c :: left, right)
    | none => (behindSeparator (c :: cs)).map fun r => ([], Scan.lineRest r)

/-- The two parts of a description; both are empty when it has no separator. -/
def splitDescription (description : String) : String × String :=
  match divide description.toList with
  | some (left, right) => (String.ofList left, String.ofList right)
  | none => ("", "")

/-- Reads the line of a connected port. -/
def parseLink (raw : String) : Except Failure (Option LinkRecord) :=
  match scanLink raw.toList with
  | none => .ok none
  | some f => do
    let description := String.ofList f.description
    let (srcDesc, destDesc) := splitDescription description
    let srcLid ← readNumeral f.src.lid
    let srcPort ← readNumeral f.src.port
    let destLid ← readNumeral f.dest.lid
    let destPort ← readNumeral f.dest.port
    return some
      { srcType := f.src.type, srcLid, srcPort, srcGuid := String.ofList f.src.guid
        width := String.ofList f.width, speed := String.ofList f.speed
        destType := f.dest.type, destLid, destPort, destGuid := String.ofList f.dest.guid
        description, srcDesc, destDesc }

/-- Reads the line of a port, whatever follows the port on it. -/
def parsePort (raw : String) : Except Failure (Option PortRecord) :=
  match scanEnd raw.toList with
  | none => .ok none
  | some (e, _) => do
    let lid ← readNumeral e.lid
    let port ← readNumeral e.port
    return some { type := e.type, lid, port, guid := String.ofList e.guid }

/-- Reads a discovery line. Every line of a connected port also reads as the
line of a port, so the connected form is tried first. -/
def parseLine (raw : String) : Except Failure (Option DiscoveryRecord) := do
  match ← parseLink raw with
  | some r => return some (.link r)
  | none => return (← parsePort raw).map .port

end Discovery

end FabricPaths
