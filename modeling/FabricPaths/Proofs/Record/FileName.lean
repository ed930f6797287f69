import FabricPaths.Proofs.Text.Stretch
import FabricPaths.Record.FileName

/-!
# Names of dumps

A discovery dump is named for its subnet. The name is taken with or without one line feed
behind it, so that a subnet has just two names under which its dump is found. A route dump is named
for its subnet and an index, which may be left out.
-/

namespace FabricPaths.FileName

open Text

/-- The text is a subnet's identifier. -/
def IsSubnet (s : String) : Prop :=
  s.toList.length = subnetLength ∧ ∀ c ∈ s.toList, isSubnetChar c = true

/-- The name of a subnet's discovery dump. -/
def discovery (subnet : String) : String :=
  String.ofList ("ib-subnet-".toList ++ (subnet.toList ++ ".txt".toList))

/-- The characters of the name. -/
theorem toList_discovery (subnet : String) :
    (discovery subnet).toList = "ib-subnet-".toList ++ (subnet.toList ++ ".txt".toList) :=
  String.toList_ofList

/-- Files of different fabrics have different names. -/
theorem fabric_injective : Function.Injective fabric := by
  intro s s' h
  have hlist := congrArg String.toList h
  have hname : ∀ s, (fabric s).toList =
      "IB-".toList ++ (s.toList ++ "-fabric.json".toList) := by
    intro s
    simp only [fabric, toString, String.toList_append, List.append_assoc]
  rw [hname, hname] at hlist
  exact String.ext (List.append_cancel_right (List.append_cancel_left hlist))

/-- Nothing or one line feed is the end of a name. -/
theorem isEnd_iff {cs : List Char} : isEnd cs = true ↔ cs = [] ∨ cs = ['\n'] := by
  unfold isEnd
  rw [Bool.or_eq_true, List.isEmpty_iff, beq_iff_eq]

/-- A name is a given one, perhaps with a line feed behind it, exactly if the given one is
followed by an end. -/
theorem eq_or_eq_append_iff {name given : String} : name = given ∨ name = given ++ "\n" ↔
    ∃ tail, isEnd tail = true ∧ name.toList = given.toList ++ tail := by
  simp only [isEnd_iff, ← String.toList_inj, String.toList_append, or_and_right, exists_or,
    exists_eq_left, List.append_nil]
  rfl

/-- A name is that of a discovery dump exactly if an identifier stands between its two fixed
parts, and nothing or one line feed follows. -/
theorem discoverySubnet?_eq_some_iff {name s : String} : discoverySubnet? name = some s ↔
    IsSubnet s ∧ (name = discovery s ∨ name = discovery s ++ "\n") := by
  unfold discoverySubnet?
  simp only [bind, Option.bind_eq_some_iff, Option.ite_none_right_eq_some, Option.some.injEq,
    Scan.word_eq_some_iff, Prod.exists, Scan.exactly_eq_some_iff, eq_or_eq_append_iff,
    toList_discovery, List.append_assoc]
  constructor
  · rintro ⟨_, hsplit, f, _, ⟨rfl, hlength, hall⟩, tail, rfl, hend, rfl⟩
    have hf : (String.ofList f).toList = f := String.toList_ofList
    refine ⟨?_, tail, hend, ?_⟩
    · unfold IsSubnet
      rw [hf]
      exact ⟨hlength, hall⟩
    · rw [hsplit, hf]
  · rintro ⟨⟨hlength, hall⟩, tail, hend, hsplit⟩
    exact ⟨_, hsplit, s.toList, _, ⟨rfl, hlength, hall⟩, tail, rfl, hend, String.ofList_toList⟩

/-- The name of a route dump of a subnet with the digits of its index, of which there may be
none. -/
def route (subnet : String) (digits : List Char) : String :=
  String.ofList ("ibroute-".toList ++ (subnet.toList ++ (['-'] ++ (digits ++ ".txt".toList))))

/-- A name is that of a route dump exactly if an identifier and digits stand between its fixed
parts, and nothing or one line feed follows. -/
theorem routeDigits?_eq_some_iff {name : String} {digits : List Char} :
    routeDigits? name = some digits ↔ (∀ c ∈ digits, c.isDigit = true) ∧
      ∃ s, IsSubnet s ∧ (name = route s digits ∨ name = route s digits ++ "\n") := by
  have hdot : ∀ tail, Stops Char.isDigit (".txt".toList ++ tail) :=
    fun tail => stops_cons_iff.mpr (by decide)
  unfold routeDigits? route
  simp only [bind, Option.bind_eq_some_iff, Option.ite_none_right_eq_some, Option.some.injEq,
    Scan.word_eq_some_iff, Prod.exists, Scan.exactly_eq_some_iff, eq_or_eq_append_iff,
    String.toList_ofList, List.append_assoc]
  constructor
  · rintro ⟨_, hsplit, f, _, ⟨rfl, hlength, hall⟩, r, rfl, tail, hrest, hend, rfl⟩
    have hr : r.takeWhile Char.isDigit ++ (".txt".toList ++ tail) = r := by
      rw [← hrest, List.prefix_iff_eq_append.mp (List.takeWhile_prefix _)]
    have hf : (String.ofList f).toList = f := String.toList_ofList
    refine ⟨fun c hc => List.mem_takeWhile_imp hc, String.ofList f, ?_, tail, hend, ?_⟩
    · unfold IsSubnet
      rw [hf]
      exact ⟨hlength, hall⟩
    · rw [hsplit, hf, hr]
  · rintro ⟨hdigits, s, ⟨hlength, hall⟩, tail, hend, hsplit⟩
    have hrun := takeWhile_append_of_stops hdigits (hdot tail)
    refine ⟨_, hsplit, s.toList, _, ⟨rfl, hlength, hall⟩, _, rfl, tail, ?_, hend, hrun⟩
    rw [hrun, List.drop_left]

end FabricPaths.FileName
