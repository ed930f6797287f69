import FabricPaths.Fabric.Builder

/-!
# Links and edges the other way

Once all records are in, each link is paired with the link that comes back
through the same cable, and each edge with the edge the other way. A partial
dump leaves links and edges without one.
-/

namespace FabricPaths

namespace Fabric

variable {β : Type}

/-- The link that comes back through the cable of a link: the one that leaves
the far port, if it ends at the near port. -/
def returnOf? (f : Fabric β) (l : Link β) : Option (Link β) := do
  let dest ← f.nodes.get? l.dest
  let other ← f.linkAt? dest l.destPort
  if l.IsReturn other then some other else none

/-- The number of the link that comes back. -/
def returnId? (f : Fabric β) (l : Link β) : Option LinkId :=
  (f.returnOf? l).map (·.id)

/-- The nodes whose links are paired on behalf of a node: its subnodes, or the
node itself if it has none. -/
def pairedNodes (f : Fabric β) (n : Node β) : List (Node β) :=
  if n.subnodes.entries.isEmpty then [n] else f.subnodesOf n

/-- The links that are paired, in order. -/
def pairedLinks (f : Fabric β) : List (Link β) :=
  f.nodes.values.flatMap fun n => (f.pairedNodes n).flatMap f.linksOf

/-- The edge the other way. -/
def reverseOf? (f : Fabric β) (n : Node β) (e : Edge β) : Option (Edge β) :=
  (f.nodes.get? e.dest).bind fun peer => peer.edges.get? n.id

/-- Pairs edges with the edges the other way. -/
def pairEdges (f : Fabric β) : Fabric β :=
  { f with
    nodes := f.nodes.mapValues fun _ n =>
      { n with edges := n.edges.mapValues fun _ e =>
          { e with reverse := (f.reverseOf? n e).map (·.key) } } }

/-- The number of edges without one the other way. -/
def unpairedEdges (f : Fabric β) : Nat :=
  (f.nodes.values.map fun n =>
    n.edges.values.countP fun e => (f.reverseOf? n e).isNone).foldr (· + ·) 0

end Fabric

namespace Builder

variable {β : Type}

/-- The message about a link without a way back. -/
def unpairedMessage (l : Link β) : Except Failure String := do
  let srcPort ← Text.writeNumeral l.srcPort
  let destPort ← Text.writeNumeral l.destPort
  return s!"[{l.parent.text}] port {srcPort} → {l.dest.text}:{destPort} has no reverse link"

/-- Pairs a link with another. -/
def pairLink (l : Link β) (other : Option LinkId) : Action (Builder β) Unit :=
  Action.modify fun b =>
    { b with fabric := b.fabric.modifyLink l.id fun l' => { l' with otherLink := other } }

/-- Counts and reports a link without a way back. -/
def missReturn (l : Link β) : Action (Builder β) Unit := do
  Action.modify fun b => { b with unresolved := b.unresolved + 1 }
  Action.say .debug Log.ingest (← Action.ofExcept (unpairedMessage l))

/-- Pairs links one after another as they are paired in a fabric, and counts those without a way
back. -/
def pairEach (f : Fabric β) (ls : List (Link β)) : Action (Builder β) Unit :=
  Action.forEach ls fun l => do
    let other := f.returnId? l
    pairLink l other
    if other.isNone then missReturn l

/-- Pairs the links of the fabric and counts those without a way back. -/
def finish : Action (Builder β) Unit := do
  Action.modify fun b => { b with unresolved := 0 }
  let f := (← Action.get).fabric
  pairEach f f.pairedLinks
  Action.say .info Log.ingest
    s!"Subnet {f.subnet}: {f.nodes.size} nodes, {f.links.size} links"

end Builder

end FabricPaths
