import FabricPaths.NodeId
import FabricPaths.Text.Quoted

/-!
# Failures

Every reason for which an operation stops, one constructor each, and the words
in which it is reported. A failure that spoils a line is reported with the line
and has no other effect; any other failure ends the work in hand.
-/

namespace FabricPaths

/-- Why a file or directory could not be used. -/
inductive StorageCause
  | noEntry
  | notDirectory
  | isDirectory
  | nameTooLong
  | tooManyLinks
deriving DecidableEq, Inhabited

namespace StorageCause

/-- The number of the cause. -/
def number : StorageCause → Nat
  | noEntry => 2
  | notDirectory => 20
  | isDirectory => 21
  | nameTooLong => 36
  | tooManyLinks => 40

/-- The cause in words. -/
def reason : StorageCause → String
  | noEntry => "No such file or directory"
  | notDirectory => "Not a directory"
  | isDirectory => "Is a directory"
  | nameTooLong => "File name too long"
  | tooManyLinks => "Too many levels of symbolic links"

end StorageCause

/-- Why an operation stopped. -/
inductive Failure
  /-- A numeral has more digits than are read. -/
  | numeralTooLong (digits : Nat)
  /-- A number has more digits than are written. -/
  | numberTooLong
  /-- Ports are counted from one. -/
  | portNotPositive (port : Int) (node : NodeId)
  /-- A lane count is too large for a bandwidth. -/
  | laneCountTooLarge
  /-- A port number asks for more slots than can be counted. -/
  | tooManySlots
  /-- A port number asks for more slots than there is room for. -/
  | outOfMemory
  /-- No node is listed under the identifier. -/
  | unknownNode (id : NodeId)
  /-- No link is listed under the number. -/
  | unknownLink (id : Int)
  /-- A port list has no slot at a position that an edge lists. -/
  | slotPastEnd (position : Int)
  /-- A port list has no slot at a position that is to be cleared. -/
  | noSlotToClear (position : Int)
  /-- A path event does not say how the walk ended. -/
  | statusMissing
  /-- Nodes are nested in one another without end. -/
  | nestedWithoutEnd
  /-- No line format has the given name. -/
  | formatUnknown
  /-- A path holds the character that ends paths. -/
  | nullInPath
  /-- A moment lies outside the calendar. -/
  | momentOutOfRange
  /-- An observer of the work failed itself. -/
  | observer (message : String)
  /-- An observer failed in a way that cannot be put into words: asking for them brings another
  failure. -/
  | speechless (instead : Failure)
  /-- A file or directory could not be used. -/
  | storage (cause : StorageCause) (path : String)
  /-- A directory named by the configuration cannot be opened. -/
  | directory (role path reason : String)
deriving DecidableEq, Inhabited

namespace Failure

/-- The heading under which a line report files the failure of a reader: a
reader that does not exist is a fault of its own, and all else is a fault of
what the line holds. -/
def heading : Failure → String
  | formatUnknown => "TypeError"
  | _ => "ValueError"

/-- Whether a position is a signed number of sixty-four bits. -/
def isCountable (position : Int) : Bool :=
  decide (-9223372036854775808 ≤ position ∧ position < 9223372036854775808)

/-- What is said of numbers that no list can count to. -/
def uncountable : String := "cannot fit 'int' into an index-sized integer"

/-- The failure in words. -/
def message : Failure → String
  | numeralTooLong n =>
    s!"Exceeds the limit (4300 digits) for integer string conversion: value has {n} digits; " ++
      "use sys.set_int_max_str_digits() to increase the limit"
  | numberTooLong =>
    "Exceeds the limit (4300 digits) for integer string conversion; " ++
      "use sys.set_int_max_str_digits() to increase the limit"
  | portNotPositive port node => s!"port {port} on {node.text} is not 1-based"
  | laneCountTooLarge => "int too large to convert to float"
  | tooManySlots => uncountable
  | outOfMemory => ""
  | unknownNode id => Text.quoted id.text
  | unknownLink id => toString id
  | slotPastEnd position =>
    if isCountable position then "list index out of range" else uncountable
  | noSlotToClear position =>
    if isCountable position then "list assignment index out of range" else uncountable
  | statusMissing => "'NoneType' object has no attribute 'value'"
  | nestedWithoutEnd => "maximum recursion depth exceeded"
  | formatUnknown => "'NoneType' object is not callable"
  | nullInPath => "embedded null byte"
  | momentOutOfRange => "date value out of range"
  | observer message => message
  | speechless _ => ""
  | storage cause path => s!"[Errno {cause.number}] {cause.reason}: " ++ Text.quoted path
  | directory role path reason =>
    s!"Couldn't open {role} directory: " ++ "\"" ++ path ++ "\"" ++
      (if reason.isEmpty then "" else s!" ({reason})")

/-- What one is told who asks for the failure in words. -/
def words : Failure → Except Failure String
  | speechless instead => .error instead
  | e => .ok e.message

/-- Failures that spoil one line and no more: the line is skipped. -/
def spoilsLine : Failure → Bool
  | numeralTooLong _ | numberTooLong | portNotPositive _ _ => true
  | _ => false

end Failure

end FabricPaths
