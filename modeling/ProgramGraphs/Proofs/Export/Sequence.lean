import ProgramGraphs.Proofs.Export.Failures
import ProgramGraphs.Proofs.Export.Written

/-!
# One export after the other

Exporting both graphs at once comes to the same as exporting the call graph and then the
dependency graph, where the first export does not write over the snapshot: the second one
then reads what the first one read, and finds the output directory made.  A snapshot without
a dependency graph gives the call graph alone, and the export of its dependency graph fails.
-/

namespace ProgramGraphs.Export

variable {disk later made : Disk} {config : Config} {request : Request} {target : Target}
  {view : Snapshot.View}

theorem outputs_both (config : Config) (request : Request) (target : Target)
    (view : Snapshot.View) :
    outputs config request .both target view =
      outputs config request .callGraph target view ++
        outputs config request .dependencyGraph target view := by
  simp [outputs, writesCanonicalGraph, Selection.includesCallGraph,
    Selection.includesDependencyGraph]

/-- Only a file holds a snapshot. -/
theorem exists_file_of_ofOpened {path : String} {found : Except SystemError Entry}
    (hview : Snapshot.ofOpened path found = .ok view) :
    ∃ content, found = .ok (.file content) := by
  rcases found with error | _ | content
  · simp [Snapshot.ofOpened] at hview
  · simp [Snapshot.ofOpened, Files.content] at hview
  · exact ⟨content, rfl⟩

/-- An export into a directory that is there writes its files. -/
theorem outcome_run_of_stands {selection : Selection}
    (settled : settle config request selection (opened disk request.input) = .ok (target, view))
    (stands : disk.Stands request.outputDirectory) :
    outcome (run config request selection) disk =
      outcome (writeOutputs (outputs config request selection target view)) disk := by
  rw [outcome_run_of_settled opensUnchanged_disk settled, outcome_bind,
    outcome_makeOutputDirectory_eq_ok_iff.2 (Disk.makeDirectories_again stands)]

theorem opened_of_write {path text : String}
    (hview : Snapshot.ofOpened request.input (opened disk request.input) = .ok view)
    (grown : disk.Grown made) (wrote : made.write path text = .ok later)
    (apart : ¬ made.SamePlace path request.input) :
    opened later request.input = opened disk request.input := by
  -- Making directories keeps the file, and writing elsewhere keeps it once more.
  obtain ⟨content, hfound⟩ := exists_file_of_ofOpened hview
  have hmade : made.find request.input = .ok (.file content) := grown.find_file hfound
  have hlater := Disk.find_write_of_find hmade wrote fun same => absurd same.symm apart
  exact hlater.trans hfound.symm

/-- After the output directory is made and the call graph is written elsewhere, exporting the
dependency graph writes its files. -/
theorem outcome_run_after {written : List String}
    (htarget : request.target config = .ok target)
    (hview : Snapshot.ofOpened request.input (opened disk request.input) = .ok view)
    (hgraph : view.snapshot.dependencyGraph ≠ none)
    (hmade : disk.makeDirectories request.outputDirectory = (.ok (), made))
    (wrote : outcome (writeOutputs (outputs config request .callGraph target view)) made =
      (.ok written, later))
    (apart : ¬ made.SamePlace (classGraphPath config request target) request.input) :
    outcome (run config request .dependencyGraph) later =
      outcome (writeOutputs (outputs config request .dependencyGraph target view)) later := by
  obtain ⟨grown, stands⟩ := Disk.grown_and_stands hmade
  have hclass : outputs config request .callGraph target view =
      [(classGraphPath config request target, classGraphText config target view)] := rfl
  rw [hclass] at wrote
  obtain ⟨last, _, hwrite, hnone, -⟩ := outcome_writeOutputs_cons_eq_ok_iff.1 wrote
  obtain rfl : last = later := congrArg Prod.snd hnone
  have hopened := opened_of_write hview grown hwrite apart
  refine outcome_run_of_stands ?_ (stands.of_keeps (Disk.keeps_write hwrite))
  rw [hopened]
  exact settle_eq_ok_iff.2 ⟨htarget, hview, fun missing => hgraph missing.2⟩

/-- The two exports in order. -/
def runInOrder (config : Config) (request : Request) :
    ExceptT Failure (StateM Disk) (List String) := do
  let first ← run config request .callGraph
  let second ← run config request .dependencyGraph
  return first ++ second

theorem run_both_of_not_settled {failure : Failure}
    (unsettled : ∀ selection,
      settle config request selection (opened disk request.input) = .error failure) :
    outcome (run config request .both) disk = outcome (runInOrder config request) disk := by
  rw [runInOrder, outcome_bind, outcome_run_of_unsettled opensUnchanged_disk (unsettled .both),
    outcome_run_of_unsettled opensUnchanged_disk (unsettled .callGraph)]

theorem run_both_of_settled
    (htarget : request.target config = .ok target)
    (hview : Snapshot.ofOpened request.input (opened disk request.input) = .ok view)
    (hgraph : view.snapshot.dependencyGraph ≠ none)
    (apart : ∀ made, disk.makeDirectories request.outputDirectory = (.ok (), made) →
      ¬ made.SamePlace (classGraphPath config request target) request.input) :
    outcome (run config request .both) disk = outcome (runInOrder config request) disk := by
  have hrun : ∀ selection, outcome (run config request selection) disk =
      outcome (do
        makeOutputDirectory request
        writeOutputs (outputs config request selection target view)) disk := fun selection =>
    outcome_run_of_settled opensUnchanged_disk
      (settle_eq_ok_iff.2 ⟨htarget, hview, fun missing => hgraph missing.2⟩)
  rw [runInOrder, hrun, outcome_bind_congr_left (hrun .callGraph), outputs_both,
    writeOutputs_append, bind_assoc]
  -- Both ways make the directory and write the call graph; what differs is how they go on.
  refine outcome_bind_congr_right fun _ made hmake => ?_
  refine outcome_bind_congr_right fun first later wrote => ?_
  have hmade := outcome_makeOutputDirectory_eq_ok_iff.1 hmake
  have hafter := outcome_run_after htarget hview hgraph hmade wrote (apart made hmade)
  exact outcome_bind_congr_left hafter.symm _

theorem run_both_of_none
    (hview : Snapshot.ofOpened request.input (opened disk request.input) = .ok view)
    (hnone : view.snapshot.dependencyGraph = none) :
    outcome (run config request .both) disk = outcome (run config request .callGraph) disk := by
  have hsettle : settle config request .both (opened disk request.input) =
      settle config request .callGraph (opened disk request.input) := by
    simp [settle, hview]
  have houtputs : ∀ target, outputs config request .both target view =
      outputs config request .callGraph target view := fun target => by
    simp [outputs, writesCanonicalGraph, hnone, Selection.includesCallGraph]
  rw [outcome_run opensUnchanged_disk, outcome_run opensUnchanged_disk, hsettle]
  cases hsettled : settle config request .callGraph (opened disk request.input) with
  | error failure => rfl
  | ok settled =>
    obtain ⟨target, seen⟩ := settled
    obtain rfl : view = seen :=
      Except.ok.inj (hview.symm.trans (settle_eq_ok_iff.1 hsettled).2.1)
    simp only [houtputs]

/-- Exporting both graphs comes to the same as exporting one after the other, where the class
graph's file is elsewhere than the snapshot.  Its path may lead somewhere only when the
output directory has been made, so that is when the places are compared.  A snapshot without
a dependency graph is the exception: it gives the call graph alone, and no dependency graph
can be exported. -/
theorem run_both (config : Config) (request : Request) (disk : Disk) :
    (∀ view, outcome (Snapshot.load request.input) disk = (.ok view, disk) →
      view.snapshot.dependencyGraph = none →
      outcome (run config request .both) disk = outcome (run config request .callGraph) disk ∧
        ∃ failure, outcome (run config request .dependencyGraph) disk = (.error failure, disk) ∧
          ∀ target, request.target config = .ok target →
            failure = .snapshot (.noDependencyGraph request.input)) ∧
    ((∀ view, outcome (Snapshot.load request.input) disk = (.ok view, disk) →
        view.snapshot.dependencyGraph ≠ none) →
      (∀ target made, request.target config = .ok target →
        disk.makeDirectories request.outputDirectory = (.ok (), made) →
        ¬ made.SamePlace (classGraphPath config request target) request.input) →
      outcome (run config request .both) disk =
        outcome (runInOrder config request) disk) := by
  have hopened : ∀ view, outcome (Snapshot.load request.input) disk = (.ok view, disk) ↔
      Snapshot.ofOpened request.input (opened disk request.input) = .ok view := by
    simp [outcome_load opensUnchanged_disk]
  simp only [hopened]
  refine ⟨fun view hview hnone => ⟨run_both_of_none hview hnone, ?_⟩, fun hgraphs apart => ?_⟩
  · cases htarget : request.target config with
    | error problem => exact ⟨_, outcome_run_of_target htarget _ disk, nofun⟩
    | ok target =>
      exact ⟨_, outcome_run_of_unsettled opensUnchanged_disk
        (settle_of_missing htarget hview hnone), fun _ _ => rfl⟩
  · cases htarget : request.target config with
    | error problem =>
      exact run_both_of_not_settled fun selection => settle_of_target htarget selection _
    | ok target =>
      cases hview : Snapshot.ofOpened request.input (opened disk request.input) with
      | error failure =>
        exact run_both_of_not_settled fun selection => settle_of_ofOpened htarget hview selection
      | ok view =>
        exact run_both_of_settled htarget hview (hgraphs view hview) fun made =>
          apart target made htarget

theorem run_both_meeting :
    (∃ after,
      outcome (run {} meetingRequest .both) meetingDisk =
        (.ok ["out/call_graph_graph.json", "out/sdg_graph.json"], after) ∧
      outcome (runInOrder {} meetingRequest) meetingDisk =
        (.ok ["out/call_graph_graph.json", "out/sdg_graph.json"], after)) ∧
    outcome (run {} (into "out") .both) cluttered =
        outcome (run {} (into "out") .callGraph) cluttered ∧
      outcome (run {} (into "out") .dependencyGraph) cluttered =
        (.error (.snapshot (.noDependencyGraph "plain.json")), cluttered) := by
  constructor
  · obtain ⟨after, view, hvalid, hload, hran, -⟩ := exists_run_default_meeting
    have hgraphs : ∀ seen, outcome (Snapshot.load "meeting.json") meetingDisk =
        (.ok seen, meetingDisk) → seen.snapshot.dependencyGraph ≠ none := by
      intro seen hseen
      obtain rfl : view = seen := Except.ok.inj (congrArg Prod.fst (hload.symm.trans hseen))
      obtain ⟨-, rfl⟩ := Snapshot.validate_eq_ok hvalid
      nofun
    have apart : ∀ target made, meetingRequest.target {} = .ok target →
        meetingDisk.makeDirectories "out" = (.ok (), made) →
        ¬ made.SamePlace (classGraphPath {} meetingRequest target) "meeting.json" := by
      rintro target made htarget hmade ⟨location, hclass, hinput⟩
      obtain rfl : ⟨.json, "graph.json"⟩ = target := Except.ok.inj htarget
      obtain rfl : meetingMade = made := congrArg Prod.snd hmade
      have hplace : meetingMade.locate "meeting.json" = .ok ["meeting.json".toList] := by
        decide
      have hleft := locate_classGraph_meeting.symm.trans hclass
      exact absurd (Except.ok.inj (hleft.trans (hinput.symm.trans hplace))) (by decide)
    have hsame := (run_both {} meetingRequest meetingDisk).2 hgraphs apart
    exact ⟨after, hran, hsame ▸ hran⟩
  · obtain ⟨view, hview, hnone⟩ := ofOpened_plain
    have hload : outcome (Snapshot.load "plain.json") cluttered = (.ok view, cluttered) := by
      rw [outcome_load opensUnchanged_disk, hview]
    obtain ⟨hboth, failure, hfails, hkind⟩ :=
      (run_both {} (into "out") cluttered).1 view hload hnone
    obtain rfl := hkind _ rfl
    exact ⟨hboth, hfails⟩

end ProgramGraphs.Export
