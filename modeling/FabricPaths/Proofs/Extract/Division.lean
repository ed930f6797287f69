import FabricPaths.Proofs.Extract.Figures
import FabricPaths.Proofs.Extract.Independence
import FabricPaths.Proofs.Partition.Grouping

/-!
# How the fabric of a subnet is divided

The fabric that a subnet is extracted to has the partitions into which its hosts are grouped. What
was done to the fabric after its hosts had been grouped makes no difference to the grouping, so
that finding the partitions of the finished fabric gives them again.
-/

namespace FabricPaths

namespace Grouping

variable {β : Type}

/-- Bare hosts are grouped like the hosts. -/
theorem ofHosts_bare (hosts : List (Node β)) : ofHosts (hosts.map Node.bare) = ofHosts hosts := by
  have hnames : names (hosts.map Node.bare) = names hosts := by
    unfold names
    rw [List.map_map]
    rfl
  have hmembers : ∀ name, (withName (hosts.map Node.bare) name).map (·.id) =
      (withName hosts name).map (·.id) := by
    intro name
    unfold withName
    rw [List.filter_map, List.map_map]
    rfl
  unfold ofHosts
  rw [hnames]
  exact List.map_congr_left fun name _ => by rw [hmembers]

/-- Hosts that are bare alike are grouped alike. -/
theorem ofHosts_of_bare {hosts hosts' : List (Node β)}
    (h : hosts'.map Node.bare = hosts.map Node.bare) : ofHosts hosts' = ofHosts hosts := by
  rw [← ofHosts_bare hosts', h, ofHosts_bare]

end Grouping

namespace Extract

open FabricPaths.Action (Ensures)

variable {c : Config} {hwlocDir : Option String} {subnet : String} {f : Fabric Float}

/-- The fabric is the subnet's, is wired, and has the partitions of its hosts. -/
structure Divided (subnet : String) (f : Fabric Float) : Prop where
  /-- It is the subnet's. -/
  subnet_eq : f.subnet = subnet
  /-- It is wired. -/
  wired : f.Wired
  /-- Its partitions are those of its hosts. -/
  partitions_eq : f.partitions = Grouping.ofHosts f.hosts

/-- Finding the partitions of the fabric gives those that it has. -/
theorem Divided.found (h : Divided subnet f) :
    (Fabric.findPartitions f).outcome = .ok f.partitions := by
  have hfound : (Fabric.findPartitions f).outcome = .ok f.grouped.2 := rfl
  rw [hfound, Fabric.grouped_eq, h.partitions_eq]

/-- A fabric that came about in the way of all subnets is divided. -/
theorem Making.Leads.divided_fabric {k : Making} {report : SubnetReport}
    (h : k.Leads subnet f report) : Divided subnet f := by
  have hdecorated : k.surveyed.Redecorates f := ⟨h.bare_eq, h.routes_eq⟩
  refine ⟨h.subnet_eq, h.wired, ?_⟩
  calc
    f.partitions = k.partitions := by
      rw [h.fabric]
      exact h.division.2.1
    _ = Grouping.ofHosts k.surveyed.hosts := by rw [h.division.1, Fabric.grouped_eq]
    _ = Grouping.ofHosts f.hosts := (Grouping.ofHosts_of_bare hdecorated.hosts_bare).symm

/-- Route dumps make no difference to the subnet that is reported on. -/
theorem ensures_subnet_addRoutes (c : Config) (f : Fabric Float) (report : SubnetReport) :
    Ensures (fun r => r.2.subnet = report.subnet) (addRoutes c f report) := by
  unfold addRoutes
  refine .bind_last fun found => ?_
  cases found with
  | none => exact .bind_last fun _ => .pure rfl
  | some loader => exact .pure rfl

/-- What is built is reported on as the subnet. -/
theorem ensures_subnet_buildSubnet [Memory] (c : Config) (hwlocDir : Option String)
    (subnet file : String) :
    Ensures (fun r => r.2.subnet = subnet) (buildSubnet c hwlocDir subnet file) := by
  unfold buildSubnet
  refine .bind_last fun started => .bind_last fun _ => .bind_last fun _ => .bind_last fun read => ?_
  refine (ensures_subnet_addRoutes c _ _).bind ?_
  rintro ⟨f, report⟩ hsubnet
  refine (ensures_addPaths f c report).bind ?_
  rintro _ ⟨s, -, rfl⟩
  refine (ensures_addPartitions _ c _).bind ?_
  rintro _ ⟨partitions, g, log, -, rfl⟩
  exact .bind_last fun _ => .pure hsubnet

/-- Finishing makes no difference to the subnet that is reported on. -/
theorem ensures_subnet_finishSubnet (c : Config) (f : Fabric Float) (report : SubnetReport) :
    Ensures (fun r => r.subnet = report.subnet) (finishSubnet c f report) := by
  unfold finishSubnet completeReport
  refine (ensures_export? c f report).bind ?_
  rintro _ ⟨outputFile, rfl⟩
  exact .bind_last fun completed => .bind_last fun _ => .pure rfl

/-- A subnet is extracted to a fabric that is divided, and reported on as the subnet. -/
theorem ensures_divided [Memory] (c : Config) (hwlocDir : Option String) (subnet file : String) :
    Ensures (fun r => Divided subnet r.1 ∧ r.2.subnet = subnet)
      (processSubnet c hwlocDir subnet file) := by
  unfold processSubnet
  refine ((ensures_buildSubnet c hwlocDir subnet file).and
    (ensures_subnet_buildSubnet c hwlocDir subnet file)).bind ?_
  rintro ⟨f, report⟩ ⟨⟨k, hk, -⟩, hsubnet⟩
  refine (ensures_subnet_finishSubnet c f report).bind fun report' hkept => ?_
  exact .pure ⟨hk.divided_fabric, hkept.trans hsubnet⟩

/-- So it is at each stage of a run. -/
theorem Extracts.divided [Memory] {subnets : List (String × String)} {w w' : World}
    {run : List Stage} {outcome : Except Failure Unit}
    (h : Extracts c hwlocDir subnets w run outcome w') {stage : Stage} (hstage : stage ∈ run)
    {report : SubnetReport} (hok : stage.run.outcome = .ok (f, report)) :
    Divided stage.subnet f ∧ report.subnet = stage.subnet := by
  rw [← h.run_eq hstage] at hok
  exact ensures_divided c hwlocDir stage.subnet stage.file stage.before (f, report) hok

end Extract

end FabricPaths
