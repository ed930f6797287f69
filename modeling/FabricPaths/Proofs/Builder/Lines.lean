import FabricPaths.Proofs.Bandwidth
import FabricPaths.Proofs.Builder.History
import FabricPaths.Proofs.Report.Line

/-!
# What becomes of discovery lines

A line is passed over or its record is taken in, as the line alone tells. There is
one exception: the record of a link with more lanes than a bandwidth is computed
for ends the reading. The main statement says that lines are read to their end
exactly if none is of this kind, and what is reported and left either way.
-/

namespace FabricPaths

/-- Why the record is refused wherever there is room for its port, if it is. -/
def LinkRecord.refusal? (r : LinkRecord) : Option Failure :=
  if r.srcPort < 1 then some (Builder.refusal r.srcPort r.srcId)
  else Bandwidth.failure? r.speed r.width

namespace DiscoveryRecord

/-- Why the record is refused wherever there is room for its port, if it is. -/
def refusal? : DiscoveryRecord → Option Failure
  | .link r => r.refusal?
  | .port r => if Text.IsWritable r.port then none else some .numberTooLong

/-- The number of slots that the record needs. -/
def slotsNeeded : DiscoveryRecord → Int
  | .link r => r.srcPort
  | .port _ => 0

end DiscoveryRecord

/-- A port that is refused spoils no more than a line. -/
theorem Builder.spoilsLine_refusal (port : Int) (node : NodeId) :
    (refusal port node).spoilsLine = true := by
  unfold refusal
  split <;> rfl

/-- A record is refused for its lanes exactly if its port is not to be refused. -/
theorem LinkRecord.refusal?_eq_laneCountTooLarge_iff {r : LinkRecord} :
    r.refusal? = some .laneCountTooLarge ↔
      1 ≤ r.srcPort ∧ Bandwidth.Overfull r.speed r.width := by
  unfold refusal?
  by_cases hport : r.srcPort < 1
  · rw [if_pos hport]
    constructor
    · intro h
      have hspoils := Builder.spoilsLine_refusal r.srcPort r.srcId
      rw [Option.some.inj h] at hspoils
      cases hspoils
    · rintro ⟨h, -⟩
      omega
  · rw [if_neg hport, Bandwidth.failure?_eq_laneCountTooLarge_iff]
    have hport' : 1 ≤ r.srcPort := by omega
    exact (and_iff_right hport').symm

/-- A failure for which a record is refused spoils no more than a line, unless it
comes from the lanes. -/
theorem DiscoveryRecord.spoilsLine_of_refusal? {r : DiscoveryRecord} {e : Failure}
    (h : r.refusal? = some e) (hne : e ≠ .laneCountTooLarge) : e.spoilsLine = true := by
  cases r with
  | port r =>
    change (if Text.IsWritable r.port then none else some _) = some e at h
    obtain ⟨-, he⟩ := Option.ite_none_left_eq_some.mp h
    cases he
    rfl
  | link r =>
    change (if r.srcPort < 1 then _ else _) = some e at h
    split at h
    · rw [← Option.some.inj h]
      exact Builder.spoilsLine_refusal r.srcPort r.srcId
    · rcases Bandwidth.failure?_eq_some_iff.mp h with ⟨grade, -, hlanes⟩ | ⟨-, rfl⟩
      · obtain ⟨digits, -, rfl⟩ := Bandwidth.laneCount_error hlanes
        rfl
      · exact absurd rfl hne

/-- A line that opens with the code of a switch is not passed over unread. -/
theorem Discovery.not_isIgnorable_of_head {raw : String} {cs : List Char}
    (h : raw.toList = 'S' :: cs) : isIgnorable raw = false := by
  unfold isIgnorable
  rw [h]
  rfl

/-- The line of a connected port whose numerals are short enough is read. -/
theorem Discovery.parseLine_of_scanLink {raw : String} {f : LinkFields}
    (h : scanLink raw.toList = some f) (hsrcLid : f.src.lid.length ≤ Text.digitLimit)
    (hsrcPort : f.src.port.length ≤ Text.digitLimit)
    (hdestLid : f.dest.lid.length ≤ Text.digitLimit)
    (hdestPort : f.dest.port.length ≤ Text.digitLimit) :
    ∃ r, parseLine raw = .ok (some (.link r)) ∧ r.srcPort = (Text.digitsValue f.src.port : Nat) ∧
      r.speed = String.ofList f.speed ∧ r.width = String.ofList f.width := by
  unfold parseLine parseLink
  rw [h]
  dsimp only
  rcases splitDescription (String.ofList f.description) with ⟨srcDesc, destDesc⟩
  dsimp only
  rw [Text.readNumeral_eq_ok_iff.mpr ⟨hsrcLid, rfl⟩,
    Text.readNumeral_eq_ok_iff.mpr ⟨hsrcPort, rfl⟩, Text.readNumeral_eq_ok_iff.mpr ⟨hdestLid, rfl⟩,
    Text.readNumeral_eq_ok_iff.mpr ⟨hdestPort, rfl⟩]
  exact ⟨_, rfl, rfl, rfl, rfl⟩

namespace Builder

/-- The record of a line. -/
def record? (raw : String) : Option DiscoveryRecord :=
  if Discovery.isIgnorable raw then none
  else match Discovery.parseLine raw with
    | .ok (some r) => some r
    | _ => none

/-- The report on a line that is passed over. -/
def passed? (l : SourceLine) : Option LineReport :=
  if Discovery.isIgnorable l.raw then
    some (l.report .ignored reader "DR, comment or blank line")
  else match Discovery.parseLine l.raw with
    | .error e => some (l.unreadable reader e)
    | .ok none => some (l.unmatched reader)
    | .ok (some r) => r.refusal?.map fun e => l.report .noMatch reader e.message

/-- The line holds the record of a link whose port is not refused, with more lanes
than a bandwidth is computed for. -/
def Fatal (raw : String) : Prop :=
  ∃ r, record? raw = some (.link r) ∧ 1 ≤ r.srcPort ∧ Bandwidth.Overfull r.speed r.width

/-- There is room for the slots that the record of the line needs. -/
def Roomy [Memory] (raw : String) : Prop := ∀ r ∈ record? raw, r.slotsNeeded < Memory.slots

instance [Memory] (raw : String) : Decidable (Roomy raw) :=
  inferInstanceAs (Decidable (∀ r ∈ record? raw, r.slotsNeeded < Memory.slots))

/-- The report with a line accounted for. -/
def account (report : FileReport) (l : SourceLine) : FileReport :=
  match passed? l with
  | some skipped => report.countLine.skip skipped
  | none => report.countLine.countRecord

/-- The report on a source all of whose lines were looked at. -/
def reportOn (source : String) (lines : List String) : FileReport :=
  { path := source, kind := .discovery, linesRead := (lines.length : Nat)
    records := ((SourceLine.number source 1 lines).countP fun l => (passed? l).isNone : Nat)
    skipped := (SourceLine.number source 1 lines).filterMap passed? }

/-- The calls that take in the records of lines. -/
def recordCalls (lines : List String) : List Call := (lines.filterMap record?).map .ingest

/-- The calls for lines come one after another. -/
theorem recordCalls_append (lines lines' : List String) :
    recordCalls (lines ++ lines') = recordCalls lines ++ recordCalls lines' := by
  simp only [recordCalls, List.filterMap_append, List.map_append]

/-- A line is fatal exactly if its record is refused for its lanes. -/
theorem fatal_iff {raw : String} :
    Fatal raw ↔ ∃ r, record? raw = some r ∧ r.refusal? = some .laneCountTooLarge := by
  constructor
  · rintro ⟨r, hr, h⟩
    exact ⟨.link r, hr, LinkRecord.refusal?_eq_laneCountTooLarge_iff.mpr h⟩
  · rintro ⟨r, hr, h⟩
    cases r with
    | link r => exact ⟨r, hr, LinkRecord.refusal?_eq_laneCountTooLarge_iff.mp h⟩
    | port r =>
      obtain ⟨-, hlong⟩ := Option.ite_none_left_eq_some.mp h
      cases hlong

instance (raw : String) : Decidable (Fatal raw) :=
  decidable_of_iff ((record? raw).bind (·.refusal?) = some .laneCountTooLarge)
    (Option.bind_eq_some_iff.trans fatal_iff.symm)

/-- Lines that are not all harmless have a first fatal one. -/
theorem exists_first_fatal {lines : List String} (h : ¬ ∀ raw ∈ lines, ¬ Fatal raw) :
    ∃ before raw after, lines = before ++ raw :: after ∧ (∀ x ∈ before, ¬ Fatal x) ∧
      Fatal raw := by
  induction lines with
  | nil => exact absurd nofun h
  | cons raw lines ih =>
    by_cases hraw : Fatal raw
    · exact ⟨[], raw, lines, rfl, nofun, hraw⟩
    · have hrest : ¬ ∀ x ∈ lines, ¬ Fatal x := fun hnone =>
        h (List.forall_mem_cons.mpr ⟨hraw, hnone⟩)
      obtain ⟨before, x, after, rfl, hbefore, hx⟩ := ih hrest
      exact ⟨raw :: before, x, after, rfl, List.forall_mem_cons.mpr ⟨hraw, hbefore⟩, hx⟩

/-- The account of lines one after another, in figures. -/
theorem foldl_account (report : FileReport) (ls : List SourceLine) :
    ls.foldl account report =
      { report with
        linesRead := report.linesRead + (ls.length : Nat)
        records := report.records + (ls.countP fun l => (passed? l).isNone : Nat)
        skipped := report.skipped ++ ls.filterMap passed? } := by
  induction ls generalizing report with
  | nil => simp
  | cons l ls ih =>
    rw [List.foldl_cons, ih]
    cases hl : passed? l with
    | some s =>
      simp only [account, hl, FileReport.countLine, FileReport.skip, List.length_cons,
        List.countP_cons, List.filterMap_cons_some hl, Option.isNone_some, List.append_assoc,
        List.singleton_append, Bool.false_eq_true, if_false, Nat.add_zero]
      congr 1
      omega
    | none =>
      simp only [account, hl, FileReport.countLine, FileReport.countRecord, List.length_cons,
        List.countP_cons, List.filterMap_cons_none hl, Option.isNone_none, if_true]
      congr 1 <;> omega

/-- The account of all lines of a source is the report on it. -/
theorem foldl_account_number (source : String) (lines : List String) :
    (SourceLine.number source 1 lines).foldl account { path := source, kind := .discovery } =
      reportOn source lines := by
  rw [foldl_account, SourceLine.length_number]
  simp only [reportOn, Int.zero_add, List.nil_append]

variable {β : Type}

/-- There is room for slots that are few enough. -/
theorem checkRoom_of_lt [Memory] {missing : Nat} (h : missing < Memory.slots) :
    checkRoom missing = .ok () := by
  have hcount : Memory.slots ≤ countableSlots := Memory.le_countable
  unfold checkRoom
  rw [if_neg (by omega), if_neg (by omega)]

/-- There is room for the slots that are missing up to a port that is small enough. -/
theorem checkRoom_missingSlots [Memory] {n : Node β} {port : Int} (h : port < Memory.slots) :
    checkRoom (n.missingSlots (port - 1).toNat) = .ok () := by
  have hpos : 1 < Memory.slots := Memory.one_lt
  refine checkRoom_of_lt ?_
  unfold Node.missingSlots
  omega

/-- A node that is mentioned files no report. -/
theorem files_withNode (b : Builder β) (type : NodeType) (lid : Int) (guid description : String) :
    (b.withNode type lid guid description).files = b.files := by
  unfold withNode
  cases b.fabric.nodes.get? (.ofGuid guid) with
  | some n => rfl
  | none => rfl

/-- Passing over a line does nothing but report it. -/
theorem passOver_run (report : FileReport) (l : SourceLine) (skipped : LineReport)
    (message : Option String) (b : Builder β) :
    (passOver report l skipped message b).outcome = .ok (report.skip skipped) ∧
      (passOver report l skipped message b).state = b := by
  cases message with
  | none => exact ⟨rfl, rfl⟩
  | some text => exact ⟨rfl, rfl⟩

section Reading

variable [Memory] [Bandwidth β]

/-! ## Records -/

/-- Calls come one after another. -/
theorem run_append (b : Builder β) (calls calls' : List Call) :
    b.run (calls ++ calls') = (b.run calls).run calls' :=
  List.foldl_append

/-- Adding the link of a record that is refused fails as its refusal says. -/
theorem addLink_of_refused {r : LinkRecord} {e : Failure} (h : r.refusal? = some e)
    (b : Builder β) : (addLink r b).outcome = .error e := by
  unfold LinkRecord.refusal? at h
  have hadding := addLink_adding r b
  generalize addLink r b = run at hadding
  cases hadding with
  | refused port =>
    rw [if_pos port] at h
    exact congrArg Except.error (Option.some.inj h)
  | unmeasured port gbits =>
    rw [if_neg (by omega), Bandwidth.ofLink_eq_error_iff.mp gbits] at h
    exact congrArg Except.error (Option.some.inj h)
  | crowded port measured source room =>
    rw [if_neg (by omega), Bandwidth.failure?_of_ofLink measured] at h
    cases h
  | plugged port measured source room =>
    rw [if_neg (by omega), Bandwidth.failure?_of_ofLink measured] at h
    cases h

/-- Adding the link of a record that is not refused succeeds where there is room. -/
theorem addLink_of_room {r : LinkRecord} (h : r.refusal? = none)
    (room : r.srcPort < Memory.slots) (b : Builder β) : ∃ l, (addLink r b).outcome = .ok l := by
  unfold LinkRecord.refusal? at h
  have hadding := addLink_adding r b
  generalize addLink r b = run at hadding
  cases hadding with
  | refused port =>
    rw [if_pos port] at h
    cases h
  | unmeasured port gbits =>
    rw [if_neg (by omega), Bandwidth.ofLink_eq_error_iff.mp gbits] at h
    cases h
  | crowded port measured source hcrowded =>
    rw [checkRoom_missingSlots room] at hcrowded
    cases hcrowded
  | plugged port measured source room => exact ⟨_, rfl⟩

/-- Taking in the record of a link is to add the link. -/
theorem ingest_link (r : LinkRecord) (b : Builder β) :
    (ingest (.link r) b).outcome = (addLink r b).outcome.map some ∧
      (ingest (.link r) b).state = (addLink r b).state := by
  rcases hr : addLink r b with ⟨outcome, s, log⟩
  change ((addLink r >>= fun l => Pure.pure (some l)) b).outcome = _ ∧ _
  cases outcome with
  | ok l =>
    rw [Action.bind_of_ok hr]
    exact ⟨rfl, congrArg Run.state (Action.bind_of_ok hr _)⟩
  | error e =>
    rw [Action.bind_of_error hr]
    exact ⟨rfl, congrArg Run.state (Action.bind_of_error hr _)⟩

/-- Taking in a port without a cable leaves the builder as it was, and fails if the port is too
long to be written. -/
theorem ingest_port (r : PortRecord) (b : Builder β) :
    (ingest (.port r) b).outcome = (Text.writeNumeral r.port).map (fun _ => none) ∧
      (ingest (.port r) b).state = b := by
  unfold ingest
  dsimp only
  cases Text.writeNumeral r.port with
  | ok port => exact ⟨rfl, rfl⟩
  | error e => exact ⟨rfl, rfl⟩

/-- Taking in a record that is refused fails as its refusal says. -/
theorem ingest_of_refused {r : DiscoveryRecord} {e : Failure} (h : r.refusal? = some e)
    (b : Builder β) : (ingest r b).outcome = .error e := by
  cases r with
  | link r => rw [(ingest_link r b).1, addLink_of_refused h b, Except.map]
  | port r =>
    obtain ⟨hlong, he⟩ := Option.ite_none_left_eq_some.mp h
    cases he
    rw [(ingest_port r b).1, Text.writeNumeral_of_not_isWritable hlong, Except.map]

/-- Taking in a record that is not refused succeeds where there is room. -/
theorem ingest_of_room {r : DiscoveryRecord} (h : r.refusal? = none)
    (room : r.slotsNeeded < Memory.slots) (b : Builder β) :
    ∃ l, (ingest r b).outcome = .ok l := by
  cases r with
  | link r =>
    obtain ⟨l, hl⟩ := addLink_of_room h room b
    rw [(ingest_link r b).1, hl]
    exact ⟨some l, rfl⟩
  | port r =>
    have hshort : Text.IsWritable r.port := by
      by_contra hlong
      exact absurd h (by rw [DiscoveryRecord.refusal?, if_neg hlong]; exact Option.some_ne_none _)
    rw [(ingest_port r b).1, Text.writeNumeral_of_isWritable hshort]
    exact ⟨none, rfl⟩

/-! ## Lines -/

/-- How a line ends once its record was taken in. -/
def settled {α : Type} (report : FileReport) (l : SourceLine) :
    Except Failure α → Except Failure FileReport
  | .ok _ => .ok report.countRecord
  | .error e =>
    if e.spoilsLine then .ok (report.skip (l.report .noMatch reader e.message)) else .error e

/-- Taking in the record of a line leaves what taking in the record leaves, and ends
as that ended. -/
theorem takeIn_run (report : FileReport) (l : SourceLine) (r : DiscoveryRecord)
    (b : Builder β) :
    (takeIn report l r b).outcome = settled report l (ingest r b).outcome ∧
      (takeIn report l r b).state = (ingest r b).state := by
  unfold takeIn
  rw [Action.bind_of_outcome (x := Action.attempt (ingest r)) rfl]
  cases h : (ingest r b).outcome with
  | ok a => exact ⟨rfl, rfl⟩
  | error e =>
    cases hspoils : e.spoilsLine with
    | true =>
      simp only [settled, hspoils, if_true]
      exact ⟨rfl, rfl⟩
    | false =>
      simp only [settled, hspoils, Bool.false_eq_true, if_false]
      exact ⟨rfl, rfl⟩

/-- A line without a record is passed over. -/
theorem ingestLine_of_none {l : SourceLine} (h : record? l.raw = none) (report : FileReport)
    (b : Builder β) :
    (ingestLine report l b).outcome = .ok (account report l) ∧
      (ingestLine report l b).state = b := by
  unfold record? at h
  unfold ingestLine account passed?
  split at h
  · rename_i hignorable
    rw [if_pos hignorable, if_pos hignorable]
    exact ⟨rfl, rfl⟩
  · rename_i hignorable
    rw [if_neg hignorable, if_neg hignorable]
    cases hparse : Discovery.parseLine l.raw with
    | error e => exact passOver_run _ l _ _ b
    | ok parsed =>
      cases parsed with
      | none => exact passOver_run _ l _ _ b
      | some r =>
        rw [hparse] at h
        cases h

/-- The record of a line is taken in. -/
theorem ingestLine_of_record {l : SourceLine} {r : DiscoveryRecord}
    (h : record? l.raw = some r) (report : FileReport) :
    ingestLine (β := β) report l = takeIn report.countLine l r ∧
      passed? l = r.refusal?.map fun e => l.report .noMatch reader e.message := by
  unfold record? at h
  unfold ingestLine passed?
  dsimp only
  split at h
  · cases h
  · rename_i hignorable
    rw [if_neg hignorable, if_neg hignorable]
    cases hparse : Discovery.parseLine l.raw with
    | error e =>
      rw [hparse] at h
      cases h
    | ok parsed =>
      rw [hparse] at h
      cases parsed with
      | none => cases h
      | some r' =>
        cases h
        exact ⟨rfl, rfl⟩

/-- A line whose record is not fatal is accounted for. -/
theorem ingestLine_of_not_fatal {l : SourceLine} (room : Roomy l.raw) (h : ¬ Fatal l.raw)
    (report : FileReport) (b : Builder β) :
    (ingestLine report l b).outcome = .ok (account report l) ∧
      (ingestLine report l b).state = b.run (recordCalls [l.raw]) := by
  cases hrecord : record? l.raw with
  | none =>
    have hcalls : recordCalls [l.raw] = [] := by
      simp only [recordCalls, List.filterMap_cons_none hrecord, List.filterMap_nil, List.map_nil]
    rw [hcalls]
    exact ingestLine_of_none hrecord report b
  | some r =>
    have hcalls : recordCalls [l.raw] = [.ingest r] := by
      simp only [recordCalls, List.filterMap_cons_some hrecord, List.filterMap_nil, List.map_cons,
        List.map_nil]
    obtain ⟨hline, hpassed⟩ := ingestLine_of_record (β := β) hrecord report
    obtain ⟨houtcome, hstate⟩ := takeIn_run report.countLine l r b
    rw [hline, hstate, houtcome, hcalls]
    refine ⟨?_, rfl⟩
    unfold account
    rw [hpassed]
    cases hrefusal : r.refusal? with
    | none =>
      obtain ⟨a, ha⟩ := ingest_of_room hrefusal (room r hrecord) b
      rw [ha]
      rfl
    | some e =>
      have hne : e ≠ .laneCountTooLarge := by
        rintro rfl
        exact h (fatal_iff.mpr ⟨r, hrecord, hrefusal⟩)
      rw [ingest_of_refused hrefusal b]
      simp only [settled, DiscoveryRecord.spoilsLine_of_refusal? hrefusal hne, if_true,
        Option.map_some]

/-- A fatal line ends the reading. -/
theorem ingestLine_of_fatal {l : SourceLine} (h : Fatal l.raw) (report : FileReport)
    (b : Builder β) :
    (ingestLine report l b).outcome = .error .laneCountTooLarge ∧
      (ingestLine report l b).state = b.run (recordCalls [l.raw]) := by
  obtain ⟨r, hrecord, hrefusal⟩ := fatal_iff.mp h
  have hcalls : recordCalls [l.raw] = [.ingest r] := by
    simp only [recordCalls, List.filterMap_cons_some hrecord, List.filterMap_nil, List.map_cons,
      List.map_nil]
  obtain ⟨houtcome, hstate⟩ := takeIn_run report.countLine l r b
  rw [(ingestLine_of_record hrecord report).1, hstate, houtcome, hcalls,
    ingest_of_refused hrefusal b]
  exact ⟨rfl, rfl⟩

/-! ## Sources -/

/-- Lines none of which is fatal are all accounted for, and their records taken in. -/
theorem ingestEach_of_none_fatal (ls : List SourceLine) (room : ∀ l ∈ ls, Roomy l.raw)
    (h : ∀ l ∈ ls, ¬ Fatal l.raw) (report : FileReport) (b : Builder β) :
    (ingestEach report ls b).outcome = .ok (ls.foldl account report) ∧
      (ingestEach report ls b).state = b.run (recordCalls (ls.map (·.raw))) := by
  induction ls generalizing report b with
  | nil => exact ⟨rfl, rfl⟩
  | cons l ls ih =>
    obtain ⟨hroom, hrooms⟩ := List.forall_mem_cons.mp room
    obtain ⟨hline, hlines⟩ := List.forall_mem_cons.mp h
    obtain ⟨houtcome, hstate⟩ := ingestLine_of_not_fatal hroom hline report b
    unfold ingestEach
    rw [Action.bind_of_outcome houtcome, hstate]
    obtain ⟨hrest, hrest'⟩ := ih hrooms hlines (account report l) (b.run (recordCalls [l.raw]))
    refine ⟨hrest, hrest'.trans ?_⟩
    rw [List.map_cons, ← run_append, ← recordCalls_append, List.singleton_append]

/-- The first fatal line ends the reading once the lines before it are taken in. -/
theorem ingestEach_of_fatal (before : List SourceLine) (l : SourceLine)
    (after : List SourceLine) (room : ∀ l ∈ before, Roomy l.raw)
    (hbefore : ∀ l ∈ before, ¬ Fatal l.raw)
    (h : Fatal l.raw) (report : FileReport) (b : Builder β) :
    (ingestEach report (before ++ l :: after) b).outcome = .error .laneCountTooLarge ∧
      (ingestEach report (before ++ l :: after) b).state =
        b.run (recordCalls (before.map (·.raw) ++ [l.raw])) := by
  induction before generalizing report b with
  | nil =>
    obtain ⟨houtcome, hstate⟩ := ingestLine_of_fatal h report b
    rcases hr : ingestLine report l b with ⟨outcome, s, log⟩
    rw [hr] at houtcome hstate
    cases houtcome
    rw [List.nil_append, ingestEach, Action.bind_of_error hr]
    exact ⟨rfl, hstate⟩
  | cons x before ih =>
    obtain ⟨hroom, hrooms⟩ := List.forall_mem_cons.mp room
    obtain ⟨hline, hlines⟩ := List.forall_mem_cons.mp hbefore
    obtain ⟨houtcome, hstate⟩ := ingestLine_of_not_fatal hroom hline report b
    rw [List.cons_append, ingestEach, Action.bind_of_outcome houtcome, hstate]
    obtain ⟨hrest, hrest'⟩ := ih hrooms hlines (account report x) (b.run (recordCalls [x.raw]))
    refine ⟨hrest, hrest'.trans ?_⟩
    rw [List.map_cons, List.cons_append, ← run_append, ← recordCalls_append,
      List.singleton_append]

/-- Adding a link files no report. -/
theorem files_addLink (r : LinkRecord) (b : Builder β) : (addLink r b).state.files = b.files := by
  have hends : (b.withEnds r).files = b.files :=
    (files_withNode _ _ _ _ _).trans (files_withNode _ _ _ _ _)
  have hadding := addLink_adding r b
  generalize addLink r b = run at hadding
  cases hadding with
  | refused port => rfl
  | unmeasured port gbits => exact hends
  | crowded port measured source room => exact hends
  | plugged port measured source room => exact hends

/-- Taking in records files no report. -/
theorem files_run_recordCalls (lines : List String) (b : Builder β) :
    (b.run (recordCalls lines)).files = b.files := by
  unfold recordCalls
  induction lines.filterMap record? generalizing b with
  | nil => rfl
  | cons r rs ih =>
    have hfirst : (ingest r b).state.files = b.files := by
      cases r with
      | link r => rw [(ingest_link r b).2, files_addLink]
      | port r => rw [(ingest_port r b).2]
    exact (ih (ingest r b).state).trans hfirst

/-- Reading lines none of which is fatal succeeds with the report on them. -/
theorem ingestLines_of_none_fatal {lines : List String} (room : ∀ raw ∈ lines, Roomy raw)
    (h : ∀ raw ∈ lines, ¬ Fatal raw) (source : String) (b : Builder β) :
    (ingestLines source lines b).outcome = .ok (reportOn source lines) ∧
      (ingestLines source lines b).state =
        { b.run (recordCalls lines) with files := b.files ++ [reportOn source lines] } := by
  have hraw := SourceLine.map_raw_number source 1 lines
  obtain ⟨houtcome, hstate⟩ := ingestEach_of_none_fatal (SourceLine.number source 1 lines)
    (fun l hl => room _ (hraw ▸ List.mem_map_of_mem hl))
    (fun l hl => h _ (hraw ▸ List.mem_map_of_mem hl))
    { path := source, kind := .discovery } b
  rw [foldl_account_number] at houtcome
  rw [hraw] at hstate
  unfold ingestLines
  rw [Action.bind_of_outcome houtcome, hstate]
  refine ⟨rfl, ?_⟩
  change ({ b.run (recordCalls lines) with
    files := (b.run (recordCalls lines)).files ++ [reportOn source lines] } : Builder β) = _
  rw [files_run_recordCalls]

/-- Reading lines ends at the first fatal one, and no report is filed. -/
theorem ingestLines_of_fatal (before : List String) (raw : String) (after : List String)
    (room : ∀ x ∈ before, Roomy x) (hbefore : ∀ x ∈ before, ¬ Fatal x) (h : Fatal raw)
    (source : String) (b : Builder β) :
    (ingestLines source (before ++ raw :: after) b).outcome = .error .laneCountTooLarge ∧
      (ingestLines source (before ++ raw :: after) b).state =
        b.run (recordCalls (before ++ [raw])) := by
  have hraw := SourceLine.map_raw_number source 1 before
  obtain ⟨l, later, hl, hnumber⟩ := SourceLine.number_append source 1 before raw after
  obtain ⟨houtcome, hstate⟩ := ingestEach_of_fatal (SourceLine.number source 1 before) l later
    (fun x hx => room _ (hraw ▸ List.mem_map_of_mem hx))
    (fun x hx => hbefore _ (hraw ▸ List.mem_map_of_mem hx)) (hl ▸ h)
    { path := source, kind := .discovery } b
  rw [hraw, hl] at hstate
  rcases hr : ingestEach { path := source, kind := .discovery }
    (SourceLine.number source 1 before ++ l :: later) b with ⟨outcome, s, log⟩
  rw [hr] at houtcome hstate
  cases houtcome
  unfold ingestLines
  rw [hnumber, Action.bind_of_error hr]
  exact ⟨rfl, hstate⟩

/-- Lines whose records there is room for are read to their end exactly if none of them
is fatal. Then every line is accounted for in the report, and the builder took in the
records of all lines, one after another. Otherwise the first fatal line ends the reading
once the records before it are taken in. -/
theorem lines_read_iff_none_fatal (source : String) (lines : List String) (b : Builder β)
    (room : ∀ raw ∈ lines, Roomy raw) :
    ((∃ report, (ingestLines source lines b).outcome = .ok report) ↔
        ∀ raw ∈ lines, ¬ Fatal raw) ∧
      (∀ report, (ingestLines source lines b).outcome = .ok report →
        report = reportOn source lines ∧
          (ingestLines source lines b).state =
            { b.run (recordCalls lines) with files := b.files ++ [report] }) ∧
      ∀ before raw after, lines = before ++ raw :: after → (∀ x ∈ before, ¬ Fatal x) →
        Fatal raw →
        (ingestLines source lines b).outcome = .error .laneCountTooLarge ∧
          (ingestLines source lines b).state = b.run (recordCalls (before ++ [raw])) := by
  have hends : ∀ before raw after, lines = before ++ raw :: after →
      (∀ x ∈ before, ¬ Fatal x) → Fatal raw →
      (ingestLines source lines b).outcome = .error .laneCountTooLarge ∧
        (ingestLines source lines b).state = b.run (recordCalls (before ++ [raw])) := by
    rintro before raw after rfl hbefore hraw
    exact ingestLines_of_fatal before raw after
      (fun x hx => room x (List.mem_append_left _ hx)) hbefore hraw source b
  have hnone : ∀ report, (ingestLines source lines b).outcome = .ok report →
      ∀ raw ∈ lines, ¬ Fatal raw := by
    intro report hok
    apply Classical.byContradiction
    intro hfatal
    obtain ⟨before, raw, after, hlines, hbefore, hraw⟩ := exists_first_fatal hfatal
    rw [(hends before raw after hlines hbefore hraw).1] at hok
    cases hok
  refine ⟨⟨?_, ?_⟩, ?_, hends⟩
  · rintro ⟨report, hok⟩
    exact hnone report hok
  · intro h
    exact ⟨_, (ingestLines_of_none_fatal room h source b).1⟩
  · intro report hok
    obtain ⟨houtcome, hstate⟩ := ingestLines_of_none_fatal room (hnone report hok) source b
    rw [houtcome] at hok
    cases hok
    exact ⟨rfl, hstate⟩

end Reading

/-- A link, a line of no known form, and a link at port zero. -/
def sampleLines : List String := [
  "SW 1 1 0x00000000000000a1 4x QDR - CA 11 1 0x0000000000000011 ( 'sw-1' - 'n-11' )",
  "vendid=0x2c9",
  "SW 1 0 0x00000000000000a1 4x QDR - CA 11 1 0x0000000000000011 ( 'sw-1' - 'n-11' )"]

/-- The last two of the lines are passed over. -/
theorem sampleLines_read : (∀ raw ∈ sampleLines, Roomy raw) ∧
    ∃ report, (ingestLines (β := Float) "s" sampleLines (start "t")).outcome = .ok report ∧
      report.records = 1 ∧ report.skipped.map (·.lineno) = [2, 3] := by
  have room : ∀ raw ∈ sampleLines, Roomy raw := by decide +kernel
  have hnone : ∀ raw ∈ sampleLines, ¬ Fatal raw := by decide +kernel
  obtain ⟨hread, hreport, -⟩ :=
    lines_read_iff_none_fatal (β := Float) "s" sampleLines (start "t") room
  obtain ⟨report, hok⟩ := hread.mpr hnone
  refine ⟨room, report, hok, ?_⟩
  rw [(hreport report hok).1]
  decide +kernel

/-- The line of a link of `10 ^ 309 - 1` lanes. -/
def overfullLine : List Char :=
  "SW 1 1 0x00000000000000a1 ".toList ++ List.replicate 309 '9' ++
    "x QDR - CA 11 1 0x0000000000000011 ( 'sw-1' - 'n-11' )".toList

/-- The fields of the line of a link with too many lanes. -/
theorem scanLink_overfullLine : Discovery.scanLink overfullLine = some
    { src := ⟨.switch, ['1'], ['1'], "00000000000000a1".toList⟩
      width := List.replicate 309 '9' ++ ['x'], speed := "QDR".toList
      dest := ⟨.host, ['1', '1'], ['1'], "0000000000000011".toList⟩
      description := "'sw-1' - 'n-11' ".toList } := by
  decide +kernel

/-- The line of a link with too many lanes is fatal. -/
theorem fatal_overfullLine : Fatal (String.ofList overfullLine) := by
  have hscan : Discovery.scanLink (String.ofList overfullLine).toList = some _ :=
    (congrArg _ String.toList_ofList).trans scanLink_overfullLine
  obtain ⟨r, hparse, hport, hspeed, hwidth⟩ := Discovery.parseLine_of_scanLink hscan
    (by decide) (by decide) (by decide) (by decide)
  have hignorable : Discovery.isIgnorable (String.ofList overfullLine) = false :=
    Discovery.not_isIgnorable_of_head String.toList_ofList
  have hrecord : record? (String.ofList overfullLine) = some (.link r) := by
    unfold record?
    rw [hignorable, hparse]
    rfl
  have hlanes : Bandwidth.laneCount r.width =
      .ok (Text.digitsValue (List.replicate 309 '9')) := by
    rw [hwidth, Bandwidth.laneCount_ofDigits (by decide)
      (Text.isDigit_of_mem_replicate (by decide))]
    exact Text.readNumeral_eq_ok_iff.mpr ⟨by rw [List.length_replicate]; decide, rfl⟩
  have hlimit : Bandwidth.laneLimit ≤ Text.digitsValue (List.replicate 309 '9') := by
    decide +kernel
  refine ⟨r, hrecord, ?_, .qdr, _, ?_, hlanes, hlimit⟩
  · rw [hport]
    decide
  · rw [hspeed]
    decide +kernel

/-- A link with too many lanes ends the reading of its line. -/
theorem overfullLine_ends_reading :
    (ingestLines (β := Float) "s" [String.ofList overfullLine] (start "t")).outcome =
      .error .laneCountTooLarge :=
  (ingestLines_of_fatal [] _ [] nofun nofun fatal_overfullLine "s" _).1

end Builder

end FabricPaths
