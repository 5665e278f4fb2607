import ProgramGraphs.Proofs.Canonical.Reached
import ProgramGraphs.Proofs.Class.Reduce
import ProgramGraphs.Proofs.Export.Outcome
import ProgramGraphs.Proofs.Files.Disk
import ProgramGraphs.Proofs.Render.Dot

/-!
# The files of an export

After an export on a disk, a file that was written holds its text, unless a later one of
other text was written to the same place.  So the dependency graph's file always holds the
dependency graph, and the call graph's file holds the call graph exactly when the two paths
lead to different places or the two texts are equal.  Beside the written files, only
directories are new.
-/

namespace ProgramGraphs.Export

open Disk (Keeps Grown SamePlace)

variable {disk later after : Disk} {files : List (String × String)} {written : List String}

/-! ## Writing files in order -/

theorem outcome_writeText_eq_ok_iff {path text result : String} :
    outcome (writeText path text) disk = (.ok result, later) ↔
      path = result ∧ disk.write path text = .ok later := by
  rw [outcome_writeText, Disk.run_write]
  cases disk.write path text <;> simp

theorem outcome_makeOutputDirectory_eq_ok_iff {request : Request} :
    outcome (makeOutputDirectory request) disk = (.ok (), later) ↔
      disk.makeDirectories request.outputDirectory = (.ok (), later) := by
  rw [outcome_makeOutputDirectory, Disk.makeDirectories]
  split <;> simp_all

theorem outcome_writeOutputs_cons_eq_ok_iff {path text : String} :
    outcome (writeOutputs ((path, text) :: files)) disk = (.ok written, after) ↔
      ∃ later others, disk.write path text = .ok later ∧
        outcome (writeOutputs files) later = (.ok others, after) ∧ path :: others = written := by
  rw [writeOutputs, outcome_bind_eq_ok_iff]
  simp only [outcome_writeText_eq_ok_iff, outcome_bind_eq_ok_iff, outcome_pure, Prod.mk.injEq,
    Except.ok.injEq]
  constructor
  · rintro ⟨_, later, ⟨rfl, wrote⟩, others, _, hothers, rfl, rfl⟩
    exact ⟨later, others, wrote, hothers, rfl⟩
  · rintro ⟨later, others, wrote, hothers, rfl⟩
    exact ⟨path, later, ⟨rfl, wrote⟩, others, after, hothers, rfl, rfl⟩

/-- What files that were written in order leave on a disk. -/
structure Wrote (disk : Disk) (files : List (String × String)) (after : Disk) : Prop where
  keeps : Keeps disk after
  /-- What was at other places is there. -/
  elsewhere : ∀ location, (∀ file ∈ files, after.locate file.1 ≠ .ok location) →
    after.entry? location = disk.entry? location
  /-- A file that was there is there, unless one of other text was written to its place. -/
  stays : ∀ path content, disk.find path = .ok (.file content) →
    (∀ file ∈ files, after.SamePlace path file.1 → file.2.toUTF8 = content) →
    after.find path = .ok (.file content)
  /-- A file holds its text, unless a later one of other text was written to its place. -/
  holds : ∀ before path text behind, files = before ++ (path, text) :: behind →
    (∀ file ∈ behind, after.SamePlace path file.1 → file.2 = text) →
    after.find path = .ok (.file text.toUTF8)

namespace Wrote

theorem nil (disk : Disk) : Wrote disk [] disk where
  keeps := Keeps.refl disk
  elsewhere _ _ := rfl
  stays _ _ found _ := found
  holds before path text behind hfiles := by simp at hfiles

/-- One file is written before the others. -/
theorem cons {path text : String} (wrote : disk.write path text = .ok later)
    (others : Wrote later files after) : Wrote disk ((path, text) :: files) after where
  keeps := (Disk.keeps_write wrote).trans others.keeps
  elsewhere location away := by
    have awayFirst : later.locate path ≠ .ok location := fun led =>
      away _ List.mem_cons_self (others.keeps.locate led)
    rw [others.elsewhere location fun file hfile => away file (List.mem_cons_of_mem _ hfile),
      Disk.entry?_write wrote awayFirst]
  stays kept content found same := by
    have foundLater : later.find kept = .ok (.file content) :=
      Disk.find_write_of_find found wrote fun hplace =>
        same _ List.mem_cons_self
          (hplace.of_keeps ((Disk.keeps_write wrote).trans others.keeps))
    exact others.stays kept content foundLater fun file hfile =>
      same file (List.mem_cons_of_mem _ hfile)
  holds before kept keptText behind hfiles same := by
    cases before with
    | nil =>
      -- The first file of all: it is there right after it was written, and stays.
      obtain ⟨⟨rfl, rfl⟩, rfl⟩ : (path = kept ∧ text = keptText) ∧ files = behind := by
        simpa using hfiles
      exact others.stays path _ (Disk.find_write wrote) fun file hfile hplace =>
        congrArg String.toUTF8 (same file hfile hplace)
    | cons first before =>
      have hrest : files = before ++ (kept, keptText) :: behind := (List.cons.inj hfiles).2
      exact others.holds before kept keptText behind hrest same

end Wrote

/-- Files that were written in order are there as they should be. -/
theorem wrote_writeOutputs (ran : outcome (writeOutputs files) disk = (.ok written, after)) :
    files.map (·.1) = written ∧ Wrote disk files after := by
  induction files generalizing disk written with
  | nil =>
    obtain ⟨rfl, rfl⟩ : [] = written ∧ disk = after := by simpa [writeOutputs] using ran
    exact ⟨rfl, Wrote.nil disk⟩
  | cons file files ih =>
    obtain ⟨later, others, wrote, hothers, rfl⟩ := outcome_writeOutputs_cons_eq_ok_iff.1 ran
    obtain ⟨rfl, hwrote⟩ := ih hothers
    exact ⟨rfl, hwrote.cons wrote⟩

/-- Files are written when each one can be. -/
theorem exists_writeOutputs (writable : ∀ file ∈ files, disk.Writable file.1) :
    ∃ after, outcome (writeOutputs files) disk = (.ok (files.map (·.1)), after) := by
  induction files generalizing disk with
  | nil => exact ⟨disk, rfl⟩
  | cons file files ih =>
    obtain ⟨later, wrote⟩ := (writable file List.mem_cons_self).exists_write file.2
    obtain ⟨after, hrest⟩ := ih fun other hother =>
      (writable other (List.mem_cons_of_mem _ hother)).of_write wrote
    exact ⟨after, outcome_writeOutputs_cons_eq_ok_iff.2 ⟨later, _, wrote, hrest, rfl⟩⟩

/-! ## The files of an export -/

variable {config : Config} {request : Request} {selection : Selection}

theorem opensUnchanged_disk : OpensUnchanged Disk := fun _ _ => rfl

theorem outcome_run_eq_ok_iff :
    outcome (run config request selection) disk = (.ok written, after) ↔
      ∃ target view made,
        settle config request selection (opened disk request.input) = .ok (target, view) ∧
        disk.makeDirectories request.outputDirectory = (.ok (), made) ∧
        outcome (writeOutputs (outputs config request selection target view)) made =
          (.ok written, after) := by
  constructor
  · intro hran
    cases hsettle : settle config request selection (opened disk request.input) with
    | error failure => simp [outcome_run_of_unsettled opensUnchanged_disk hsettle] at hran
    | ok settled =>
      rw [outcome_run_of_settled opensUnchanged_disk hsettle] at hran
      obtain ⟨_, made, hmake, hfiles⟩ := outcome_bind_eq_ok_iff.1 hran
      exact ⟨settled.1, settled.2, made, rfl, outcome_makeOutputDirectory_eq_ok_iff.1 hmake, hfiles⟩
  · rintro ⟨target, view, made, hsettle, hmade, hfiles⟩
    rw [outcome_run_of_settled opensUnchanged_disk hsettle]
    exact outcome_bind_eq_ok_iff.2
      ⟨(), made, outcome_makeOutputDirectory_eq_ok_iff.2 hmade, hfiles⟩

/-- The files of a successful export were written in order, after directories were made. -/
theorem wrote_run (ran : outcome (run config request selection) disk = (.ok written, after)) :
    ∃ target view made, request.target config = .ok target ∧
      Snapshot.ofOpened request.input (opened disk request.input) = .ok view ∧
      Grown disk made ∧ Wrote made (outputs config request selection target view) after ∧
      (outputs config request selection target view).map (·.1) = written := by
  obtain ⟨target, view, made, hsettled, hmade, hfiles⟩ := outcome_run_eq_ok_iff.1 ran
  obtain ⟨htarget, hview, -⟩ := settle_eq_ok_iff.1 hsettled
  obtain ⟨hpaths, wrote⟩ := wrote_writeOutputs hfiles
  exact ⟨target, view, made, htarget, hview, (Disk.grown_and_stands hmade).1, wrote, hpaths⟩

namespace Wrote

variable {target : Target} {view : Snapshot.View}

theorem find_canonicalGraph
    (wrote : Wrote disk (outputs config request selection target view) after)
    (writes : writesCanonicalGraph selection view = true) :
    after.find (canonicalGraphPath config request target) =
      .ok (.file (canonicalGraphText config request target view).toUTF8) := by
  -- The canonical graph is the last file, so nothing is written over it.
  refine wrote.holds _ _ _ [] (congrArg _ (if_pos writes)) fun file hfile => ?_
  exact absurd hfile List.not_mem_nil

theorem find_classGraph_iff
    (wrote : Wrote disk (outputs config request selection target view) after)
    (selected : selection.includesCallGraph = true) :
    after.find (classGraphPath config request target) =
        .ok (.file (classGraphText config target view).toUTF8) ↔
      (writesCanonicalGraph selection view = true →
        after.SamePlace (classGraphPath config request target)
          (canonicalGraphPath config request target) →
        canonicalGraphText config request target view = classGraphText config target view) := by
  constructor
  · intro found writes hplace
    have hcontent := hplace.content_eq found (wrote.find_canonicalGraph writes)
    exact (String.toByteArray_inj.1 hcontent).symm
  · -- The class graph is the first file, and only the canonical graph is written after it.
    intro same
    refine wrote.holds [] _ _ _ (congrArg (· ++ _) (if_pos selected)) fun file hfile hplace => ?_
    split_ifs at hfile with writes
    · obtain rfl := List.mem_singleton.1 hfile
      exact same writes hplace
    · exact absurd hfile List.not_mem_nil

end Wrote

/-! ## A snapshot with two different graphs -/

/-- A class that calls another one, and a dependency graph without statements. -/
def meeting : Snapshot where
  classes :=
    [{ name := "Lp/A", loader := "Application" }, { name := "Lp/B", loader := "Application" }]
  methods := [⟨"run", 0⟩, ⟨"serve", 1⟩]
  callGraph := { nodes := [⟨0, [{ targets := [1] }]⟩, ⟨1, []⟩], entryPoints := [0] }
  dependencyGraph := some { statements := [], edges := [] }

/-- The snapshot as text. -/
def meetingText : String :=
  "\x7b\"classes\":[\x7b\"name\":\"Lp/A\",\"loader\":\"Application\"\x7d," ++
  "\x7b\"name\":\"Lp/B\",\"loader\":\"Application\"\x7d],\"methods\":[" ++
  "\x7b\"name\":\"run\",\"class\":0\x7d,\x7b\"name\":\"serve\",\"class\":1\x7d]," ++
  "\"call_graph\":\x7b\"nodes\":[" ++
  "\x7b\"method\":0,\"call_sites\":[\x7b\"targets\":[1]\x7d]\x7d," ++
  "\x7b\"method\":1,\"call_sites\":[]\x7d],\"entry_points\":[0]\x7d," ++
  "\"dependency_graph\":\x7b\"statements\":[],\"edges\":[]\x7d\x7d"

/-- A disk with this snapshot alone. -/
def meetingDisk : Disk where
  entries := [(["meeting.json".toList], .file meetingText.toUTF8)]

/-- A request for the graphs of this snapshot. -/
def meetingRequest : Request := { input := "meeting.json", outputDirectory := "out" }

theorem decode_meetingText :
    Json.Decode.document Snapshot.decoder (.ofBytes meetingText.toUTF8) = .ok meeting :=
  eq_ok_of_toOption (by decide +kernel)

theorem settle_meeting {config : Config} {target : Target}
    (htarget : meetingRequest.target config = .ok target) (selection : Selection) :
    ∃ view, meeting.validate = .ok view ∧
      settle config meetingRequest selection (opened meetingDisk "meeting.json") =
        .ok (target, view) := by
  obtain ⟨view, hvalid⟩ : ∃ view, meeting.validate = .ok view := ⟨_, rfl⟩
  have hopened : opened meetingDisk "meeting.json" = .ok (.file meetingText.toUTF8) := rfl
  have hview : Snapshot.ofOpened "meeting.json" (opened meetingDisk "meeting.json") = .ok view :=
    hopened ▸ Snapshot.ofOpened_file decode_meetingText hvalid
  have hgraph : view.snapshot.dependencyGraph ≠ none := by
    obtain ⟨-, rfl⟩ := Snapshot.validate_eq_ok hvalid
    nofun
  exact ⟨view, hvalid, settle_eq_ok_iff.2 ⟨htarget, hview, fun missing => hgraph missing.2⟩⟩

theorem vertices_classGraph_meeting {view : Snapshot.View}
    (hvalid : meeting.validate = .ok view) {config : Config} (hscope : config.scope = {}) :
    (classGraph config view).vertices.toList ≠ [] := by
  have hcrossings : (Snapshot.unchecked meeting).callGraph.crossings
      ({} : ScopeSettings).toLoaderScope.toScope = [(0, 0, 1)] := by decide +kernel
  -- A view shows the call graph of its snapshot, whatever its tables.
  obtain ⟨-, rfl⟩ := Snapshot.validate_eq_ok hvalid
  change ((Snapshot.unchecked meeting).callGraph.reduce _).vertices.toList ≠ []
  rw [hscope, (CallGraph.tallies_reduce _ _).lists.vertices_eq, hcrossings]
  exact List.cons_ne_nil _ _

theorem texts_meeting_ne {view : Snapshot.View} (hvalid : meeting.validate = .ok view)
    {config : Config} (hscope : config.scope = {}) (name : String) :
    classGraphText config ⟨.dot, name⟩ view ≠
      canonicalGraphText config meetingRequest ⟨.dot, name⟩ view := by
  refine Render.Dot.dot_ne ?_
  have hclass := vertices_classGraph_meeting hvalid hscope
  have hstatements : view.dependencyGraph.statements.length = 0 := by
    obtain ⟨-, rfl⟩ := Snapshot.validate_eq_ok hvalid
    rfl
  have hcanonical : (canonicalGraph config meetingRequest view).vertices.length = 0 :=
    Nat.le_zero.1 (hstatements ▸ DependencyGraph.length_vertices_le _ _ _ _)
  simp only [ClassGraph.toRecord, CanonicalGraph.toRecord, List.length_map, hcanonical]
  simpa using hclass

/-- The same disk with the output directory. -/
def meetingMade : Disk :=
  { meetingDisk with entries := (["out".toList], .directory) :: meetingDisk.entries }

theorem writesCanonicalGraph_meeting {view : Snapshot.View}
    (hvalid : meeting.validate = .ok view) : writesCanonicalGraph .both view = true := by
  obtain ⟨-, rfl⟩ := Snapshot.validate_eq_ok hvalid
  rfl

/-- Both graphs of the snapshot are exported, to any two names in the output directory. -/
theorem exists_run_meeting (config : Config) (target : Target)
    (htarget : meetingRequest.target config = .ok target)
    (hclass : meetingMade.Writable (classGraphPath config meetingRequest target))
    (hcanonical : meetingMade.Writable (canonicalGraphPath config meetingRequest target)) :
    ∃ after view, meeting.validate = .ok view ∧
      outcome (Snapshot.load "meeting.json") meetingDisk = (.ok view, meetingDisk) ∧
      outcome (run config meetingRequest .both) meetingDisk =
        (.ok [classGraphPath config meetingRequest target,
          canonicalGraphPath config meetingRequest target], after) ∧
      Wrote meetingMade (outputs config meetingRequest .both target view) after := by
  obtain ⟨view, hvalid, hsettle⟩ := settle_meeting htarget .both
  have hload : outcome (Snapshot.load "meeting.json") meetingDisk = (.ok view, meetingDisk) := by
    rw [outcome_load opensUnchanged_disk]
    exact congrArg (·, meetingDisk) (settle_eq_ok_iff.1 hsettle).2.1
  have hmade : meetingDisk.makeDirectories "out" = (.ok (), meetingMade) := rfl
  have houtputs : outputs config meetingRequest .both target view =
      [(classGraphPath config meetingRequest target, classGraphText config target view),
        (canonicalGraphPath config meetingRequest target,
          canonicalGraphText config meetingRequest target view)] :=
    congrArg (_ ++ ·) (if_pos (writesCanonicalGraph_meeting hvalid))
  have hwritable : ∀ file ∈ outputs config meetingRequest .both target view,
      meetingMade.Writable file.1 := by
    simp [houtputs, hclass, hcanonical]
  obtain ⟨after, hfiles⟩ := exists_writeOutputs hwritable
  refine ⟨after, view, hvalid, hload, ?_, (wrote_writeOutputs hfiles).2⟩
  rw [outcome_run_eq_ok_iff.2 ⟨target, view, meetingMade, hsettle, hmade, hfiles⟩, houtputs]
  rfl

theorem locate_classGraph_meeting : meetingMade.locate "out/call_graph_graph.json" =
    .ok ["call_graph_graph.json".toList, "out".toList] := by decide

theorem locate_canonicalGraph_meeting : meetingMade.locate "out/sdg_graph.json" =
    .ok ["sdg_graph.json".toList, "out".toList] := by decide

/-- Without settings, both graphs of the snapshot are exported to files of their own. -/
theorem exists_run_default_meeting :
    ∃ after view, meeting.validate = .ok view ∧
      outcome (Snapshot.load "meeting.json") meetingDisk = (.ok view, meetingDisk) ∧
      outcome (run {} meetingRequest .both) meetingDisk =
        (.ok ["out/call_graph_graph.json", "out/sdg_graph.json"], after) ∧
      ¬ after.SamePlace "out/call_graph_graph.json" "out/sdg_graph.json" := by
  obtain ⟨after, view, hvalid, hload, hran, wrote⟩ :=
    exists_run_meeting {} ⟨.json, "graph.json"⟩ rfl
      ⟨_, locate_classGraph_meeting, by decide, by decide⟩
      ⟨_, locate_canonicalGraph_meeting, by decide, by decide⟩
  refine ⟨after, view, hvalid, hload, hran, ?_⟩
  rintro ⟨location, hfirst, hsecond⟩
  have hleft := (wrote.keeps.locate locate_classGraph_meeting).symm.trans hfirst
  have hright := (wrote.keeps.locate locate_canonicalGraph_meeting).symm.trans hsecond
  exact absurd (Except.ok.inj (hleft.trans hright.symm)) (by decide)

/-! ## What a successful export leaves -/

/-- The files of a successful export.  The written paths are those of the selected graphs.
The dependency graph's file holds the canonical graph.  The call graph's file holds the
class graph exactly when the canonical graph was not written over it with another text.
Nothing else changes, except that directories may be new where nothing was. -/
theorem run_writes (ran : outcome (run config request selection) disk = (.ok written, after)) :
    ∃ target view, request.target config = .ok target ∧
      outcome (Snapshot.load request.input) disk = (.ok view, disk) ∧
      (outputs config request selection target view).map (·.1) = written ∧
      (selection.includesCallGraph = true →
        (after.find (classGraphPath config request target) =
            .ok (.file (classGraphText config target view).toUTF8) ↔
          (writesCanonicalGraph selection view = true →
            after.SamePlace (classGraphPath config request target)
              (canonicalGraphPath config request target) →
            canonicalGraphText config request target view =
              classGraphText config target view))) ∧
      (writesCanonicalGraph selection view = true →
        after.find (canonicalGraphPath config request target) =
          .ok (.file (canonicalGraphText config request target view).toUTF8)) ∧
      ∀ location, (∀ path ∈ written, after.locate path ≠ .ok location) →
        after.entry? location = disk.entry? location ∨
          disk.entry? location = none ∧ after.entry? location = some .directory := by
  obtain ⟨target, view, made, htarget, hview, grown, wrote, hpaths⟩ := wrote_run ran
  have hload : outcome (Snapshot.load request.input) disk = (.ok view, disk) := by
    rw [outcome_load opensUnchanged_disk, hview]
  refine ⟨target, view, htarget, hload, hpaths, wrote.find_classGraph_iff,
    wrote.find_canonicalGraph, fun location away => ?_⟩
  have hsame : after.entry? location = made.entry? location :=
    wrote.elsewhere location fun file hfile => away file.1 (hpaths ▸ List.mem_map_of_mem hfile)
  rw [hsame]
  exact grown.entry_eq location

theorem run_writes_meeting :
    ∃ after view,
      outcome (run {} meetingRequest .both) meetingDisk =
        (.ok ["out/call_graph_graph.json", "out/sdg_graph.json"], after) ∧
      outcome (Snapshot.load "meeting.json") meetingDisk = (.ok view, meetingDisk) ∧
      after.find "out/call_graph_graph.json" =
        .ok (.file ((classGraph {} view).toRecord.render .json).toUTF8) ∧
      after.find "out/sdg_graph.json" =
        .ok (.file ((canonicalGraph {} meetingRequest view).toRecord.render .json).toUTF8) := by
  obtain ⟨after, view, hvalid, hload, hran, apart⟩ := exists_run_default_meeting
  obtain ⟨target, seen, htarget, hseen, -, hfirst, hsecond, -⟩ := run_writes hran
  obtain rfl : ⟨.json, "graph.json"⟩ = target := Except.ok.inj htarget
  obtain rfl : view = seen := Except.ok.inj (congrArg Prod.fst (hload.symm.trans hseen))
  exact ⟨after, view, hran, hload, (hfirst rfl).2 fun _ same => absurd same apart,
    hsecond (writesCanonicalGraph_meeting hvalid)⟩

/-- A configuration that gives both files one name. -/
def colliding : Config where
  output := { format := .dot, callGraphPrefix := "g_", sdgPrefix := "g_" }

/-- Both graphs are exported to one path, so that the call graph's file does not hold the
class graph. -/
theorem run_overwrites :
    ∃ after view,
      outcome (run colliding meetingRequest .both) meetingDisk =
        (.ok ["out/g_graph.dot", "out/g_graph.dot"], after) ∧
      outcome (Snapshot.load "meeting.json") meetingDisk = (.ok view, meetingDisk) ∧
      after.find "out/g_graph.dot" ≠
        .ok (.file ((classGraph colliding view).toRecord.render .dot).toUTF8) := by
  have hpath : meetingMade.Writable "out/g_graph.dot" :=
    ⟨["g_graph.dot".toList, "out".toList], by decide, by decide,
      by decide⟩
  obtain ⟨after, view, hvalid, hload, hran, wrote⟩ := exists_run_meeting colliding
    ⟨.dot, "graph.dot"⟩ rfl hpath hpath
  refine ⟨after, view, hran, hload, fun found => ?_⟩
  have hcontent := found.symm.trans
    (wrote.find_canonicalGraph (writesCanonicalGraph_meeting hvalid))
  have hbytes := Entry.file.inj (Except.ok.inj hcontent)
  exact texts_meeting_ne hvalid rfl "graph.dot" (String.toByteArray_inj.1 hbytes)

end ProgramGraphs.Export
