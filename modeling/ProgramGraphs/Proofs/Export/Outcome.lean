import Mathlib.Tactic.SplitIfs
import ProgramGraphs.Export.Run

/-!
# What an export comes to

A program over files is run on a world, which is any state whose files it can reach, and
comes to a result and a new world.  An export settles its target and its snapshot first and
writes afterwards (`outcome_run`): settling only opens a file, so a failure that comes of it
leaves the world as it was, and whatever fails afterwards is a failure to write.
-/

namespace ProgramGraphs

/-! ## Outcomes of programs -/

section Outcome

variable {World A B : Type}

/-- What a program comes to on a world: its result, and the world it leaves. -/
def outcome (program : ExceptT Failure (StateM World) A) (world : World) :
    Except Failure A × World :=
  program.run.run world

@[simp] theorem outcome_pure (value : A) (world : World) :
    outcome (pure value) world = (.ok value, world) := rfl

variable {program : ExceptT Failure (StateM World) A}
  {next : A → ExceptT Failure (StateM World) B} {world after : World}

theorem outcome_bind (program : ExceptT Failure (StateM World) A)
    (next : A → ExceptT Failure (StateM World) B) (world : World) :
    outcome (program >>= next) world =
      match outcome program world with
      | (.ok value, later) => outcome (next value) later
      | (.error failure, later) => (.error failure, later) := by
  have hrun : outcome (program >>= next) world =
      StateT.run (ExceptT.bindCont next (outcome program world).1) (outcome program world).2 := rfl
  rw [hrun]
  rcases outcome program world with ⟨_ | _, later⟩ <;> rfl

theorem outcome_bind_eq_ok_iff {result : B} :
    outcome (program >>= next) world = (.ok result, after) ↔
      ∃ value later, outcome program world = (.ok value, later) ∧
        outcome (next value) later = (.ok result, after) := by
  rw [outcome_bind]
  rcases outcome program world with ⟨_ | _, later⟩ <;> simp [and_assoc]

theorem outcome_bind_eq_error_iff {failure : Failure} :
    outcome (program >>= next) world = (.error failure, after) ↔
      outcome program world = (.error failure, after) ∨
        ∃ value later, outcome program world = (.ok value, later) ∧
          outcome (next value) later = (.error failure, after) := by
  rw [outcome_bind]
  rcases outcome program world with ⟨_ | _, later⟩ <;> simp [and_assoc]

theorem outcome_bind_congr_right {other : A → ExceptT Failure (StateM World) B}
    (same : ∀ value later, outcome program world = (.ok value, later) →
      outcome (next value) later = outcome (other value) later) :
    outcome (program >>= next) world = outcome (program >>= other) world := by
  rw [outcome_bind, outcome_bind]
  rcases hrun : outcome program world with ⟨failure | value, later⟩
  · rfl
  · exact same value later hrun

theorem outcome_bind_congr_left {other : ExceptT Failure (StateM World) A}
    (same : outcome program world = outcome other world)
    (next : A → ExceptT Failure (StateM World) B) :
    outcome (program >>= next) world = outcome (other >>= next) world := by
  rw [outcome_bind, outcome_bind, same]

/-- An operation on files does not fail by itself; its result says whether it did. -/
theorem outcome_lift_bind (operation : StateM World A)
    (next : A → ExceptT Failure (StateM World) B) (world : World) :
    outcome (liftM operation >>= next) world =
      outcome (next (operation.run world).1) (operation.run world).2 := rfl

theorem eq_ok_of_toOption {E : Type} {result : Except E A} {value : A}
    (reached : result.toOption = some value) : result = .ok value := by
  cases result with
  | error error => contradiction
  | ok found => exact congrArg Except.ok (Option.some.inj reached)

end Outcome

section Export

variable {World : Type} [Files (StateM World)]

/-- Opening a path leaves the world as it is. -/
def OpensUnchanged (World : Type) [Files (StateM World)] : Prop :=
  ∀ (path : String) (world : World),
    ((Files.openPath path : StateM World (Except SystemError Entry)).run world).2 = world

/-- What a path leads to in a world. -/
def opened (world : World) (path : String) : Except SystemError Entry :=
  ((Files.openPath path : StateM World (Except SystemError Entry)).run world).1

/-! ## Reading the snapshot -/

/-- The view of the snapshot that was found at a path. -/
def Snapshot.ofOpened (path : String) :
    Except SystemError Entry → Except Failure Snapshot.View
  | .error error => .error (.snapshot (.cannotOpen path error))
  | .ok entry =>
    match Files.content entry with
    | .error error => .error (.document (.unreadable error))
    | .ok bytes => Snapshot.ofDocument (Json.Document.ofBytes bytes)

theorem Snapshot.ofOpened_file {path : String} {bytes : ByteArray} {snapshot : Snapshot}
    {view : Snapshot.View}
    (decoded : Json.Decode.document Snapshot.decoder (.ofBytes bytes) = .ok snapshot)
    (valid : snapshot.validate = .ok view) :
    Snapshot.ofOpened path (.ok (.file bytes)) = .ok view := by
  simp only [Snapshot.ofOpened, Files.content, Snapshot.ofDocument, decoded, valid]

/-- Reading a snapshot leaves the world as it is. -/
theorem outcome_load (opens : OpensUnchanged World) (path : String) (world : World) :
    outcome (Snapshot.load path) world = (Snapshot.ofOpened path (opened world path), world) := by
  rw [Snapshot.load, outcome_lift_bind, opens path world]
  unfold opened
  rcases ((Files.openPath path : StateM World (Except SystemError Entry)).run world).1 with
    error | entry
  · rfl
  · simp only [Snapshot.ofOpened]
    cases Files.content entry <;> rfl

namespace Export

/-! ## The parts of an export -/

/-- The path that the class graph is written to. -/
def classGraphPath (config : Config) (request : Request) (target : Target) : String :=
  request.outputPath config.output.callGraphPrefix target.fileName

/-- The path that the canonical graph is written to. -/
def canonicalGraphPath (config : Config) (request : Request) (target : Target) : String :=
  request.outputPath config.output.sdgPrefix target.fileName

/-- The text of the class graph in the target's format. -/
def classGraphText (config : Config) (target : Target) (view : Snapshot.View) : String :=
  (classGraph config view).toRecord.render target.format

/-- The text of the canonical graph in the target's format. -/
def canonicalGraphText (config : Config) (request : Request) (target : Target)
    (view : Snapshot.View) : String :=
  (canonicalGraph config request view).toRecord.render target.format

/-- Whether the canonical graph is selected and there is one. -/
def writesCanonicalGraph (selection : Selection) (view : Snapshot.View) : Bool :=
  selection.includesDependencyGraph && view.snapshot.dependencyGraph.isSome

/-- The files of an export, each by its path and its text, in the order of writing. -/
def outputs (config : Config) (request : Request) (selection : Selection) (target : Target)
    (view : Snapshot.View) : List (String × String) :=
  (if selection.includesCallGraph then
    [(classGraphPath config request target, classGraphText config target view)] else []) ++
  if writesCanonicalGraph selection view then
    [(canonicalGraphPath config request target, canonicalGraphText config request target view)]
  else []

/-- What an export settles before it writes: its target, and the view of the snapshot that was
found. -/
def settle (config : Config) (request : Request) (selection : Selection)
    (found : Except SystemError Entry) : Except Failure (Target × Snapshot.View) :=
  match request.target config with
  | .error problem => .error (.format problem)
  | .ok target =>
    match Snapshot.ofOpened request.input found with
    | .error failure => .error failure
    | .ok view =>
      if selection = .dependencyGraph ∧ view.snapshot.dependencyGraph = none then
        .error (.snapshot (.noDependencyGraph request.input))
      else .ok (target, view)

section Settle

variable {config : Config} {request : Request} {selection : Selection} {target : Target}
  {view : Snapshot.View} {found : Except SystemError Entry}

theorem settle_of_target {problem : FormatProblem}
    (untargeted : request.target config = .error problem) (selection : Selection)
    (found : Except SystemError Entry) :
    settle config request selection found = .error (.format problem) := by
  rw [settle, untargeted]

theorem settle_of_ofOpened {failure : Failure}
    (targeted : request.target config = .ok target)
    (unread : Snapshot.ofOpened request.input found = .error failure) (selection : Selection) :
    settle config request selection found = .error failure := by
  rw [settle, targeted]
  simp only [unread]

theorem settle_of_missing (targeted : request.target config = .ok target)
    (read : Snapshot.ofOpened request.input found = .ok view)
    (missing : view.snapshot.dependencyGraph = none) :
    settle config request .dependencyGraph found =
      .error (.snapshot (.noDependencyGraph request.input)) := by
  rw [settle, targeted]
  simp [read, missing]

theorem settle_eq_ok_iff :
    settle config request selection found = .ok (target, view) ↔
      request.target config = .ok target ∧ Snapshot.ofOpened request.input found = .ok view ∧
        ¬ (selection = .dependencyGraph ∧ view.snapshot.dependencyGraph = none) := by
  unfold settle
  cases request.target config with
  | error problem => simp
  | ok target =>
    cases Snapshot.ofOpened request.input found with
    | error failure => simp
    | ok view =>
      simp only [Except.ok.injEq]
      constructor
      · intro hsettled
        split_ifs at hsettled with hmissing
        obtain ⟨rfl, rfl⟩ := Prod.mk.inj (Except.ok.inj hsettled)
        exact ⟨rfl, rfl, hmissing⟩
      · rintro ⟨rfl, rfl, hmissing⟩
        exact if_neg hmissing

end Settle

section Programs

variable {m : Type → Type} [Monad m] [Files m]

/-- Writes a text to a path, and gives the path. -/
def writeText (path text : String) : ExceptT Failure m String := do
  match ← (Files.write path text : m _) with
  | .error error => throw (.write path error)
  | .ok () => return path

/-- Writes files one after the other, and gives their paths. -/
def writeOutputs : List (String × String) → ExceptT Failure m (List String)
  | [] => return []
  | (path, text) :: rest => do
    let first ← writeText path text
    let others ← writeOutputs rest
    return first :: others

theorem writeOutputs_append [LawfulMonad m] (files others : List (String × String)) :
    writeOutputs (m := m) (files ++ others) = do
      let first ← writeOutputs files
      let second ← writeOutputs others
      return first ++ second := by
  induction files with
  | nil => simp [writeOutputs]
  | cons file files ih => simp [writeOutputs, ih]

theorem writeOutputs_singleton [LawfulMonad m] (path text : String) :
    writeOutputs (m := m) [(path, text)] = do
      let path ← writeText path text
      return [path] := by
  simp [writeOutputs]

/-- Writing the two graphs is writing the files of the export. -/
theorem writeGraphs_eq [LawfulMonad m] (config : Config) (request : Request)
    (selection : Selection) (target : Target) (view : Snapshot.View) :
    (do
      let first ← writeClassGraph config request selection target view
      let second ← writeCanonicalGraph config request selection target view
      return first ++ second : ExceptT Failure m (List String)) =
    writeOutputs (outputs config request selection target view) := by
  have hclass : writeClassGraph (m := m) config request selection target view =
      writeOutputs (if selection.includesCallGraph then
        [(classGraphPath config request target, classGraphText config target view)] else []) := by
    unfold writeClassGraph
    split_ifs
    · exact (writeOutputs_singleton _ _).symm
    · rfl
  have hcanonical : writeCanonicalGraph (m := m) config request selection target view =
      writeOutputs (if writesCanonicalGraph selection view then
        [(canonicalGraphPath config request target,
          canonicalGraphText config request target view)] else []) := by
    unfold writeCanonicalGraph writesCanonicalGraph
    split_ifs
    · exact (writeOutputs_singleton _ _).symm
    · rfl
  rw [hclass, hcanonical, outputs, writeOutputs_append]

end Programs

/-! ## Outcomes of the parts -/

theorem outcome_writeText (path text : String) (world : World) :
    outcome (writeText path text) world =
      match (Files.write path text : StateM World _).run world with
      | (.ok (), later) => (.ok path, later)
      | (.error error, later) => (.error (.write path error), later) := by
  rw [writeText, outcome_lift_bind]
  rcases (Files.write path text : StateM World _).run world with ⟨_ | _, later⟩ <;> rfl

theorem outcome_makeOutputDirectory (request : Request) (world : World) :
    outcome (makeOutputDirectory request) world =
      match (Files.makeDirectories request.outputDirectory : StateM World _).run world with
      | (.ok (), later) => (.ok (), later)
      | (.error error, later) => (.error (.write request.outputDirectory error), later) := by
  rw [makeOutputDirectory, outcome_lift_bind]
  rcases (Files.makeDirectories request.outputDirectory : StateM World _).run world with
    ⟨_ | _, later⟩ <;> rfl

/-- An export settles its target and its snapshot, and writes afterwards. -/
theorem outcome_run (opens : OpensUnchanged World) (config : Config) (request : Request)
    (selection : Selection) (world : World) :
    outcome (run config request selection) world =
      match settle config request selection (opened world request.input) with
      | .error failure => (.error failure, world)
      | .ok (target, view) =>
        outcome (do
          makeOutputDirectory request
          writeOutputs (outputs config request selection target view)) world := by
  -- The checks are made in the order of the program, which is the order of `settle`.
  rw [run, settle]
  cases request.target config with
  | error problem => rfl
  | ok target =>
    simp only
    rw [outcome_bind, outcome_load opens]
    cases Snapshot.ofOpened request.input (opened world request.input) with
    | error failure => rfl
    | ok view =>
      simp only [writeGraphs_eq]
      split_ifs with hmissing
      · rfl
      · rfl

theorem outcome_run_of_unsettled (opens : OpensUnchanged World) {config : Config}
    {request : Request} {selection : Selection} {world : World} {failure : Failure}
    (unsettled : settle config request selection (opened world request.input) = .error failure) :
    outcome (run config request selection) world = (.error failure, world) := by
  rw [outcome_run opens, unsettled]

theorem outcome_run_of_settled (opens : OpensUnchanged World) {config : Config}
    {request : Request} {selection : Selection} {world : World} {target : Target}
    {view : Snapshot.View}
    (settled : settle config request selection (opened world request.input) = .ok (target, view)) :
    outcome (run config request selection) world =
      outcome (do
        makeOutputDirectory request
        writeOutputs (outputs config request selection target view)) world := by
  rw [outcome_run opens, settled]

end Export

end Export

end ProgramGraphs
