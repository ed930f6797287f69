import FabricPaths.Fabric.Basic
import FabricPaths.Text.DecimalDigit

/-!
# Following forwarding tables

Traffic leaves a node through the first link of its first edge. Every node on
the way then sends it out of the port that its forwarding table has for the
destination. The walk ends at the destination, where a node cannot send the
traffic on, or where a node is reached for the second time.
-/

namespace FabricPaths

/-- How a walk ended. -/
inductive PathStatus
  /-- At the destination. -/
  | complete
  /-- At a node without a forwarding table. -/
  | noTable
  /-- At a node whose table has no entry for the destination. -/
  | noEntry
  /-- At a port without a link. -/
  | deadPort
  /-- At a node that was reached before. -/
  | loop
deriving DecidableEq, Inhabited

namespace PathStatus

/-- All ways to end. -/
def all : List PathStatus := [complete, noTable, noEntry, deadPort, loop]

/-- The status as reports name it. -/
def name : PathStatus → String
  | complete => "complete"
  | noTable => "no-table"
  | noEntry => "no-entry"
  | deadPort => "dead-port"
  | loop => "loop"

/-- The status of a name. -/
def ofName? (s : String) : Option PathStatus := all.find? fun st => st.name == s

end PathStatus

/-- The course of one walk. -/
structure Attempt where
  /-- Where the walk starts. -/
  source : NodeId
  /-- Where the walk should end. -/
  dest : NodeId
  /-- How it ended. -/
  status : PathStatus
  /-- The links taken, in order. -/
  links : List LinkId
  /-- The nodes visited, the source first. -/
  nodes : List NodeId
  /-- The node at which the walk stopped short. -/
  stalledAt : Option NodeId
  /-- Why it stopped short. -/
  detail : String
deriving DecidableEq, Inhabited

namespace Attempt

/-- Whether the walk reached its destination. -/
def isComplete (a : Attempt) : Bool := a.status == .complete

end Attempt

/-- What a node does with traffic. -/
inductive Forwarding (β : Type)
  /-- It has no forwarding table. -/
  | noTable
  /-- Its table has no entry for the destination. -/
  | noEntry
  /-- It sends the traffic to a port without a link. -/
  | deadPort (port : Int)
  /-- It sends the traffic along a link. -/
  | along (link : Link β)

namespace Fabric

variable {β : Type}

/-- What a node does with traffic for a destination. -/
def forwarding (f : Fabric β) (here : Node β) (dest : NodeId) : Forwarding β :=
  match f.routes.get? here.id with
  | none => .noTable
  | some table =>
    match table.egressPort? dest with
    | none => .noEntry
    | some port =>
      match f.linkAt? here port with
      | none => .deadPort port
      | some link => .along link

/-- A walk from some point on. -/
structure Course where
  /-- The links taken. -/
  links : List LinkId
  /-- The nodes newly visited. -/
  nodes : List NodeId
  /-- How the walk ended. -/
  status : PathStatus
  /-- Where it stopped short. -/
  stalledAt : Option NodeId
  /-- Why it stopped short, if that can be written. -/
  detail : Except Failure String

namespace Course

/-- A walk that goes no further. -/
def stop (status : PathStatus) (stalledAt : NodeId) (detail : Except Failure String) : Course :=
  ⟨[], [], status, some stalledAt, detail⟩

/-- A walk that is at its destination. -/
def arrived : Course := ⟨[], [], .complete, none, .ok ""⟩

/-- A walk with a link taken before it. -/
def afterLink (link : LinkId) (c : Course) : Course := { c with links := link :: c.links }

/-- A walk with a node visited before it. -/
def afterNode (node : NodeId) (c : Course) : Course := { c with nodes := node :: c.nodes }

end Course

/-- Nodes that were not visited yet. -/
def unvisited (f : Fabric β) (visited : List NodeId) : List NodeId :=
  f.nodes.keys.filter fun id => decide (id ∉ visited)

/-- Visiting a known node leaves fewer to visit. -/
theorem unvisited_cons_lt {f : Fabric β} {visited : List NodeId} {id : NodeId}
    (known : id ∈ f.nodes.keys) (new : id ∉ visited) :
    (f.unvisited (id :: visited)).length < (f.unvisited visited).length := by
  have sub : f.unvisited (id :: visited) =
      (f.unvisited visited).filter fun x => decide (x ≠ id) := by
    simp only [unvisited, List.filter_filter]
    congr 1
    funext x
    simp [List.mem_cons, not_or]
  rw [sub]
  refine List.length_filter_lt_length_iff_exists.2 ⟨id, ?_, by simp⟩
  simp [unvisited, known, new]

/-- Why a walk stops whose link leads nowhere. -/
def unknownNode (link : Link β) : Except Failure String := do
  return s!"port {← Text.writeNumeral link.srcPort} leads to unknown node {link.dest.text}"

/-- Why a walk stops at a port without a link. -/
def deadEnd (port : Int) (v : NodeId) : Except Failure String := do
  return s!"egress port {← Text.writeNumeral port} on {v.text} has no link"

/-- Takes a link and goes on from its end. -/
def follow (f : Fabric β) (dst : Node β) (visited : List NodeId) (link : Link β) : Course :=
  Course.afterLink link.id <|
    match _found : f.nodes.get? link.dest with
    | none => .stop .deadPort link.parent (unknownNode link)
    | some current =>
      if _seen : link.dest ∈ visited then
        .stop .loop link.dest (.ok s!"{link.dest.text} reached twice")
      else
        Course.afterNode link.dest <|
          if link.dest = dst.id then .arrived
          else
            match f.forwarding current dst.id with
            | .noTable =>
              .stop .noTable link.dest (.ok s!"no forwarding table for {current.display}")
            | .noEntry =>
              .stop .noEntry link.dest
                (.ok s!"{current.display} has no entry for {dst.display}")
            | .deadPort port => .stop .deadPort link.dest (deadEnd port link.dest)
            | .along next => f.follow dst (link.dest :: visited) next
termination_by (f.unvisited visited).length
decreasing_by
  exact unvisited_cons_lt (OrderedMap.mem_keys_of_get? _found) _seen

/-- The walk from a node that leaves through its first link, if it has one. -/
def courseFrom (f : Fabric β) (src dst : Node β) : Option (Link β) → Course
  | none => .stop .deadPort src.id (.ok "source has no uplink")
  | some link => f.follow dst [src.id] link

/-- The walk from one node to another. -/
def trace (f : Fabric β) (src dst : Node β) : Except Failure Attempt := do
  let course := f.courseFrom src dst (← f.firstLink? src)
  return {
    source := src.id
    dest := dst.id
    status := course.status
    links := course.links
    nodes := src.id :: course.nodes
    stalledAt := course.stalledAt
    detail := ← course.detail }

end Fabric

end FabricPaths
