import FabricPaths.Fabric.Edit
import FabricPaths.Fabric.Resolve
import FabricPaths.Partition.Spread
import FabricPaths.Path.AllPairs
import FabricPaths.Routing.Loader

/-!
# Workbenches

A workbench holds a fabric in the making together with the loader of its
forwarding tables. Once a dump was loaded or a new loader was taken, the fabric
forwards by the loader's tables: what changes one changes the other.
-/

namespace FabricPaths

/-- A fabric in the making and its loader. -/
structure Workbench where
  /-- The fabric in the making. -/
  builder : Builder Float
  /-- The loader of forwarding tables. -/
  loader : Loader := {}
  /-- Whether the fabric forwards by the loader's tables. -/
  attached : Bool := false
deriving Inhabited

namespace Workbench

variable [Memory] {α : Type}

/-- A workbench with nothing on it. -/
def start (subnet : String) : Workbench := { builder := .start subnet }

/-- The fabric. -/
def fabric (w : Workbench) : Fabric Float := w.builder.fabric

/-- Puts a fabric back, with its tables in the loader if they are the loader's. -/
def putFabric (f : Fabric Float) (w : Workbench) : Workbench :=
  { w with
    builder := { w.builder with fabric := f }
    loader := if w.attached then { w.loader with tables := f.routes } else w.loader }

/-- Puts a loader back, with its tables in the fabric if they are the fabric's. -/
def putLoader (loader : Loader) (w : Workbench) : Workbench :=
  { w with
    loader
    builder :=
      if w.attached then
        { w.builder with fabric := { w.builder.fabric with routes := loader.tables } }
      else w.builder }

/-- Works on the builder. -/
def onBuilder (x : Action (Builder Float) α) : Action Workbench α :=
  x.within (·.builder) fun b w => { w with builder := b }

/-- Works on the fabric. -/
def onFabric (x : Action (Fabric Float) α) : Action Workbench α :=
  x.within fabric putFabric

/-- Takes in the lines of a discovery dump. -/
def discover (source : String) (lines : List String) : Action Workbench FileReport :=
  onBuilder (Builder.ingestLines source lines)

/-- Loads the lines of a route dump; the fabric then forwards by the loader's
tables. -/
def load (source : String) (lines : List String) : Action Workbench FileReport := do
  let report ← (Loader.ingestLines source lines).within (·.loader) putLoader
  Action.modify fun w => putLoader w.loader { w with attached := true }
  return report

/-- Takes a new loader, by whose tables the fabric forwards from now on. -/
def resetLoader : Action Workbench Unit :=
  Action.modify fun w => putLoader {} { w with attached := true }

/-- Sets the port for a destination in the table of a switch. -/
def setRoute (switch dest : NodeId) (port : Int) : Action Workbench Unit :=
  onFabric <| Action.modify fun f =>
    let table := f.routes.getD switch { switch }
    { f with routes := f.routes.insert switch (table.setEntry { dest, port }) }

/-- Removes the table of a switch; tells whether it was there. -/
def dropTable (switch : NodeId) : Action Workbench Bool := do
  let present := (← Action.get).fabric.routes.contains switch
  onFabric (Action.modify fun f => { f with routes := f.routes.erase switch })
  return present

/-- The walk between two nodes. -/
def trace (src dst : NodeId) : Action Workbench Attempt := do
  let f := (← Action.get).fabric
  let src ← Action.ofExcept (f.node src)
  let dst ← Action.ofExcept (f.node dst)
  Action.ofExcept (f.trace src dst)

/-- Who is told of the walks of a survey. -/
inductive Audience
  /-- Nobody. -/
  | nobody
  /-- Someone who notes them. -/
  | collector
  /-- Someone who fails each time. -/
  | failing (message : String)
deriving DecidableEq, Inhabited

/-- What the audience does when it is told of a walk. -/
def Audience.observe : Audience → Option (Attempt → Action (List Attempt) Unit)
  | nobody => none
  | collector => some fun a => Action.modify (· ++ [a])
  | failing message => some fun _ => Action.fail (.observer message)

/-- Walks between all hosts and keeps the paths, unless a walk fails; returns
also the walks that the audience noted. -/
def survey (audience : Audience) : Action Workbench (Survey × List Attempt) := do
  let f := (← Action.get).fabric
  let (s, noted) ← Action.apart [] (f.survey audience.observe)
  onFabric (Action.modify fun f => { f with paths := s.paths })
  return (s, noted)

/-- Pairs edges with the edges the other way; returns how many have none. -/
def pairEdges : Action Workbench Nat := do
  let missing := (← Action.get).fabric.unpairedEdges
  onFabric (Action.modify Fabric.pairEdges)
  return missing

end Workbench

end FabricPaths
