import ProgramGraphs.Files.Disk
import ProgramGraphs.Proofs.Export.Outcome

/-!
# Failed exports

Every failure of an export that is no failure to write comes before anything is written, so
it leaves the world as it was.  A file name with an unsupported extension is such a failure,
and the first one that is looked for.  Once the output directory is there, an export can
only fail to write one of its files.
-/

namespace ProgramGraphs.Export

variable {World : Type} [Files (StateM World)] {world after : World} {failure : Failure}
  {config : Config} {request : Request} {selection : Selection} {target : Target}
  {view : Snapshot.View}

/-! ## Failures to write -/

theorem write_of_writeText {path text : String}
    (fails : outcome (writeText path text) world = (.error failure, after)) :
    ∃ error, failure = .write path error := by
  rw [outcome_writeText] at fails
  split at fails
  · simp at fails
  · exact ⟨_, (Except.error.inj (congrArg Prod.fst fails)).symm⟩

theorem write_of_makeOutputDirectory
    (fails : outcome (makeOutputDirectory request) world = (.error failure, after)) :
    ∃ error, failure = .write request.outputDirectory error := by
  rw [outcome_makeOutputDirectory] at fails
  split at fails
  · simp at fails
  · exact ⟨_, (Except.error.inj (congrArg Prod.fst fails)).symm⟩

theorem write_of_writeOutputs {files : List (String × String)}
    (fails : outcome (writeOutputs files) world = (.error failure, after)) :
    ∃ path error, failure = .write path error ∧ path ∈ files.map (·.1) := by
  induction files generalizing world with
  | nil => simp [writeOutputs] at fails
  | cons file rest ih =>
    rw [writeOutputs] at fails
    obtain hfirst | ⟨path, later, -, hothers⟩ := outcome_bind_eq_error_iff.1 fails
    · obtain ⟨error, hwrite⟩ := write_of_writeText hfirst
      exact ⟨_, error, hwrite, List.mem_cons_self⟩
    · obtain hrest | ⟨paths, last, -, hreturn⟩ := outcome_bind_eq_error_iff.1 hothers
      · obtain ⟨path, error, hwrite, hmem⟩ := ih hrest
        exact ⟨path, error, hwrite, List.mem_cons_of_mem _ hmem⟩
      · simp at hreturn

/-- After settling, an export can only fail to write: the output directory, or, when that has
been made, one of its files. -/
theorem write_of_settled (opens : OpensUnchanged World)
    (settled : settle config request selection (opened world request.input) = .ok (target, view))
    (fails : outcome (run config request selection) world = (.error failure, after)) :
    ∃ path error, failure = .write path error ∧
      ((outcome (makeOutputDirectory request) world).1 = .ok () →
        path ∈ (outputs config request selection target view).map (·.1)) ∧
      ((outcome (makeOutputDirectory request) world).1 ≠ .ok () →
        path = request.outputDirectory) := by
  rw [outcome_run_of_settled opens settled] at fails
  obtain hmake | ⟨_, later, hmade, hwrite⟩ := outcome_bind_eq_error_iff.1 fails
  · obtain ⟨error, hfailure⟩ := write_of_makeOutputDirectory hmake
    exact ⟨_, error, hfailure, by simp [hmake], fun _ => rfl⟩
  · obtain ⟨path, error, hfailure, hmem⟩ := write_of_writeOutputs hwrite
    exact ⟨path, error, hfailure, fun _ => hmem, by simp [hmade]⟩

/-! ## Failures before anything is written -/

theorem unchanged_of_not_write (opens : OpensUnchanged World)
    (fails : outcome (run config request selection) world = (.error failure, after))
    (notWrite : ∀ path error, failure ≠ .write path error) : after = world := by
  -- After settling only writing fails, so such a failure comes of settling.
  cases hsettle : settle config request selection (opened world request.input) with
  | error failed =>
    rw [outcome_run_of_unsettled opens hsettle] at fails
    exact (congrArg Prod.snd fails).symm
  | ok settled =>
    obtain ⟨path, error, hwrite, -⟩ := write_of_settled opens hsettle fails
    exact absurd hwrite (notWrite path error)

theorem ofPath_of_unsupported {name : String}
    (unsupported : ∀ format : Format,
      (Path.extension? name).map String.toLower ≠ some format.extension) :
    ∃ problem, Format.ofPath name = .error problem ∧
      problem.subject = (Path.extension? name).getD (name ++ " has no file extension") := by
  unfold Format.ofPath
  cases hextension : Path.extension? name with
  | none => exact ⟨_, rfl, rfl⟩
  | some extension =>
    have hnone : (Format.all.find? fun format => extension.toLower == format.extension) = none := by
      rw [List.find?_eq_none]
      intro format _
      simpa [hextension] using unsupported format
    refine ⟨.unsupported extension, ?_, rfl⟩
    simp only [Format.ofToken, hnone]

/-- An export whose target cannot be settled fails before it looks at any file. -/
theorem outcome_run_of_target {problem : FormatProblem}
    (untargeted : request.target config = .error problem) (selection : Selection)
    (world : World) :
    outcome (run config request selection) world = (.error (.format problem), world) := by
  rw [run, untargeted]
  rfl

/-! ## Three ways to fail -/

/-- A snapshot without a dependency graph, a file that holds no snapshot, and a file whose name
is wanted for a directory. -/
def cluttered : Disk where
  entries :=
    [("plain.json".toList, .file ("\x7b\"classes\":[],\"methods\":[]," ++
        "\"call_graph\":\x7b\"nodes\":[],\"entry_points\":[]\x7d\x7d").toUTF8),
     ("broken.json".toList, .file "\x7b".toUTF8),
     ("taken".toList, .file "".toUTF8)].map fun (name, entry) => ([name], entry)

/-- A request for files of a name whose extension names no format. -/
def drawing : Request := { input := "broken.json", outputDirectory := "out", fileName := "a.svg" }

/-- A request for files in a directory, from the snapshot that is there. -/
def into (directory : String) : Request := { input := "plain.json", outputDirectory := directory }

theorem target_into (directory : String) :
    (into directory).target {} = .ok ⟨.json, "graph.json"⟩ := rfl

theorem ofOpened_plain :
    ∃ view, Snapshot.ofOpened "plain.json" (opened cluttered "plain.json") = .ok view ∧
      view.snapshot.dependencyGraph = none := by
  have hgraph : (Snapshot.ofOpened "plain.json" (opened cluttered "plain.json")).toOption.map
      (·.snapshot.dependencyGraph) = some none := by decide +kernel
  obtain ⟨view, hview, hnone⟩ := Option.map_eq_some_iff.1 hgraph
  exact ⟨view, eq_ok_of_toOption hview, hnone⟩

/-! ## What a failed export leaves -/

/-- A failed export that is no failure to write leaves the world as it was.  A file name
whose extension names no format fails so, whatever the snapshot, unless a format is given.
Once the target and the snapshot are settled, only writing can fail, and once the output
directory is there, only the writing of a file. -/
theorem run_failure (opens : OpensUnchanged World) (config : Config) (request : Request)
    (selection : Selection) (world : World) :
    (∀ failure after,
      outcome (run config request selection) world = (.error failure, after) →
      (∀ path error, failure ≠ .write path error) → after = world) ∧
    (∀ name, request.fileName = some name → request.format = none →
      (∀ format : Format, (Path.extension? name).map String.toLower ≠ some format.extension) →
      ∃ problem,
        outcome (run config request selection) world = (.error (.format problem), world) ∧
        problem.subject = (Path.extension? name).getD (name ++ " has no file extension")) ∧
    (∀ target view failure after,
      settle config request selection (opened world request.input) = .ok (target, view) →
      outcome (run config request selection) world = (.error failure, after) →
      ∃ path error, failure = .write path error ∧
        ((outcome (makeOutputDirectory request) world).1 = .ok () →
          path ∈ (outputs config request selection target view).map (·.1)) ∧
        ((outcome (makeOutputDirectory request) world).1 ≠ .ok () →
          path = request.outputDirectory)) := by
  refine ⟨fun failure after => unchanged_of_not_write opens,
    fun name hname hformat hextension => ?_,
    fun target view failure after => write_of_settled opens⟩
  obtain ⟨problem, hproblem, hsubject⟩ := ofPath_of_unsupported hextension
  have untargeted : request.target config = .error problem := by
    rw [Request.target, hname, hformat]
    simp only [hproblem]
    rfl
  exact ⟨problem, outcome_run_of_target untargeted selection world, hsubject⟩

theorem run_failure_cluttered :
    OpensUnchanged Disk ∧
    (∃ after, outcome (run {} (into "out") .dependencyGraph) cluttered =
        (.error (.snapshot (.noDependencyGraph "plain.json")), after) ∧ after = cluttered) ∧
    (∃ problem, outcome (run {} drawing .both) cluttered =
        (.error (.format problem), cluttered) ∧ problem.subject = "svg") ∧
    ∃ error after, outcome (run {} (into "taken") .both) cluttered =
      (.error (.write "taken" error), after) := by
  have opens : OpensUnchanged Disk := fun _ _ => rfl
  obtain ⟨view, hview, hnone⟩ := ofOpened_plain
  refine ⟨opens, ?_, ?_, ?_⟩
  · have hrun := outcome_run_of_unsettled opens (settle_of_missing (target_into "out") hview hnone)
    exact ⟨_, hrun, (run_failure opens {} (into "out") .dependencyGraph cluttered).1 _ _ hrun nofun⟩
  · have hextension : Path.extension? "a.svg" = some "svg" := by decide
    have unsupported : ∀ format : Format,
        (Path.extension? "a.svg").map String.toLower ≠ some format.extension := by
      rw [hextension]
      intro format
      cases format <;> decide +kernel
    obtain ⟨problem, hrun, hsubject⟩ := (run_failure opens {} drawing .both cluttered).2.1
      "a.svg" rfl rfl unsupported
    exact ⟨problem, hrun, by simpa [hextension] using hsubject⟩
  · have hsettle : settle {} (into "taken") .both (opened cluttered "plain.json") =
        .ok (⟨.json, "graph.json"⟩, view) :=
      settle_eq_ok_iff.2 ⟨target_into "taken", hview, by simp⟩
    have hmake : outcome (makeOutputDirectory (into "taken")) cluttered =
        (.error (.write "taken" .exists), cluttered) := rfl
    have hrun : outcome (run {} (into "taken") .both) cluttered =
        (.error (.write "taken" .exists), cluttered) := by
      rw [outcome_run_of_settled opens hsettle]
      exact outcome_bind_eq_error_iff.2 (.inl hmake)
    obtain ⟨path, error, hwrite, -, hpath⟩ := (run_failure opens {} (into "taken") .both
      cluttered).2.2 _ _ _ _ hsettle hrun
    obtain rfl := hpath nofun
    exact ⟨error, cluttered, hwrite ▸ hrun⟩

end ProgramGraphs.Export
