import Mathlib.Tactic.SplitIfs
import ProgramGraphs.Files.Disk

/-!
# Laws of the disk

Where a path leads depends only on the directories, so a change that keeps all directories
keeps the place of every path that had one (`Keeps.locate`).  Writing a file changes one
place, and no directory.  Making directories adds directories where nothing was and changes
nothing else, also when it fails halfway (`Grown`), and asking for a directory that is there
changes nothing (`makeDirectories_again`).
-/

namespace ProgramGraphs.Disk

variable {disk later : Disk} {location : Location} {path : String}

/-! ## What is at a location -/

private theorem lookup_filter_ne {other : Location} (ne : other ≠ location)
    (entries : List (Location × Entry)) :
    (entries.filter fun entry => entry.1 != location).lookup other = entries.lookup other := by
  induction entries with
  | nil => rfl
  | cons entry rest ih =>
    obtain ⟨here, content⟩ := entry
    by_cases hhere : here = location
    · have hother : (other == here) = false := by rw [hhere]; simpa using ne
      have hdropped : (here != location) = false := by simpa using hhere
      simp only [List.filter_cons, hdropped, List.lookup_cons, hother]
      exact ih
    · have hkept : (here != location) = true := by simpa using hhere
      simp only [List.filter_cons, hkept, if_true, List.lookup_cons, ih]

theorem entry?_put_self (inner : location ≠ []) (entry : Entry) :
    Disk.entry? (disk.put location entry) location = some entry := by
  simp [put, entry?, inner]

theorem entry?_put_of_ne {other : Location} (ne : other ≠ location) (entry : Entry) :
    Disk.entry? (disk.put location entry) other = disk.entry? other := by
  have hne : (other == location) = false := by simpa using ne
  simp [put, entry?, List.lookup_cons, hne, lookup_filter_ne ne]

theorem ne_nil_of_ne_directory (noDirectory : disk.entry? location ≠ some .directory) :
    location ≠ [] := by
  rintro rfl
  exact noDirectory rfl

/-! ## Where paths lead -/

/-- All directories of one disk are directories of another one, and the working directory is
the same. -/
structure Keeps (disk later : Disk) : Prop where
  home_eq : later.home = disk.home
  directory : ∀ location,
    disk.entry? location = some .directory → later.entry? location = some .directory

namespace Keeps

theorem refl (disk : Disk) : Keeps disk disk := ⟨rfl, fun _ h => h⟩

theorem trans {last : Disk} (first : Keeps disk later) (second : Keeps later last) :
    Keeps disk last :=
  ⟨second.home_eq.trans first.home_eq, fun location hentry =>
    second.directory location (first.directory location hentry)⟩

theorem follow (keeps : Keeps disk later) {parts : List (List Char)} {here : Location}
    (led : disk.follow here parts = .ok location) : later.follow here parts = .ok location := by
  induction parts generalizing here with
  | nil => exact led
  | cons part rest ih =>
    simp only [Disk.follow] at led ⊢
    cases hentry : disk.entry? here with
    | none => simp [hentry] at led
    | some entry =>
      cases entry with
      | file content => simp [hentry] at led
      | directory =>
        simp only [hentry, keeps.directory here hentry] at led ⊢
        split_ifs at led ⊢ with hdot hup hlong
        · exact ih led
        · exact ih led
        · exact ih led

/-- A path that leads somewhere leads there while all directories are kept. -/
theorem locate (keeps : Keeps disk later) (led : disk.locate path = .ok location) :
    later.locate path = .ok location := by
  simp only [Disk.locate, keeps.home_eq] at led ⊢
  split_ifs at led ⊢ with hzero hempty hlong
  · exact keeps.follow led
  · exact keeps.follow led

end Keeps

/-- Two paths lead to one place. -/
def SamePlace (disk : Disk) (first second : String) : Prop :=
  ∃ location, disk.locate first = .ok location ∧ disk.locate second = .ok location

theorem SamePlace.symm {first second : String} (same : disk.SamePlace first second) :
    disk.SamePlace second first := by
  obtain ⟨location, hfirst, hsecond⟩ := same
  exact ⟨location, hsecond, hfirst⟩

theorem SamePlace.of_keeps {first second : String} (same : disk.SamePlace first second)
    (keeps : Keeps disk later) : later.SamePlace first second := by
  obtain ⟨location, hfirst, hsecond⟩ := same
  exact ⟨location, keeps.locate hfirst, keeps.locate hsecond⟩

/-! ## Finding, writing, making -/

private theorem bind_eq_ok_iff {E A B : Type} {first : Except E A} {next : A → Except E B}
    {result : B} :
    (first >>= next) = .ok result ↔ ∃ value, first = .ok value ∧ next value = .ok result := by
  cases first <;> simp [bind, Except.bind]

theorem find_eq_ok_iff {entry : Entry} :
    disk.find path = .ok entry ↔
      ∃ location, disk.locate path = .ok location ∧ disk.entry? location = some entry ∧
        (wantsDirectory path = true → entry = .directory) := by
  rw [find, bind_eq_ok_iff]
  refine exists_congr fun location => and_congr_right fun _ => ?_
  rcases disk.entry? location with _ | _ | found
  · simp
  · simp only [pure, Except.pure, Except.ok.injEq, Option.some.injEq]
    exact ⟨fun hentry => ⟨hentry, fun _ => hentry.symm⟩, And.left⟩
  · cases hwants : wantsDirectory path
    · simp [pure, Except.pure]
    · simp only [if_true, Option.some.injEq, true_implies]
      constructor
      · intro hfails
        contradiction
      · rintro ⟨rfl, hentry⟩
        contradiction

theorem find_eq_ok_file_iff {content : ByteArray} :
    disk.find path = .ok (.file content) ↔
      ∃ location, disk.locate path = .ok location ∧
        disk.entry? location = some (.file content) ∧ wantsDirectory path = false := by
  simp [find_eq_ok_iff]

theorem isDirectory_iff :
    disk.isDirectory path = true ↔
      ∃ location, disk.locate path = .ok location ∧ disk.entry? location = some .directory := by
  have hfind : disk.isDirectory path = true ↔ disk.find path = .ok .directory := by
    unfold isDirectory
    split <;> simp_all
  simp [hfind, find_eq_ok_iff]

theorem write_eq_ok_iff {text : String} :
    disk.write path text = .ok later ↔
      ∃ location, disk.locate path = .ok location ∧ wantsDirectory path = false ∧
        disk.entry? location ≠ some .directory ∧
        disk.put location (.file text.toUTF8) = later := by
  rw [write, bind_eq_ok_iff]
  refine exists_congr fun location => and_congr_right fun _ => ?_
  cases wantsDirectory path with
  | true => simp
  | false => rcases disk.entry? location with _ | _ | found <;> simp [pure, Except.pure]

theorem makeDirectory_eq_ok_iff :
    disk.makeDirectory path = .ok later ↔
      ∃ location, disk.locate path = .ok location ∧ disk.entry? location = none ∧
        disk.put location .directory = later := by
  rw [makeDirectory, bind_eq_ok_iff]
  refine exists_congr fun location => and_congr_right fun _ => ?_
  cases disk.entry? location <;> simp [pure, Except.pure]

theorem keeps_put_file (noDirectory : disk.entry? location ≠ some .directory)
    (content : ByteArray) : Keeps disk (disk.put location (.file content)) where
  home_eq := rfl
  directory other hother := by
    have hne : other ≠ location := by
      rintro rfl
      exact noDirectory hother
    rw [entry?_put_of_ne hne, hother]

theorem keeps_write {text : String} (wrote : disk.write path text = .ok later) :
    Keeps disk later := by
  obtain ⟨location, -, -, noDirectory, rfl⟩ := write_eq_ok_iff.1 wrote
  exact keeps_put_file noDirectory _

theorem find_write {text : String} (wrote : disk.write path text = .ok later) :
    later.find path = .ok (.file text.toUTF8) := by
  have keeps := keeps_write wrote
  obtain ⟨location, led, hwants, noDirectory, rfl⟩ := write_eq_ok_iff.1 wrote
  exact find_eq_ok_file_iff.2
    ⟨location, keeps.locate led, entry?_put_self (ne_nil_of_ne_directory noDirectory) _, hwants⟩

/-- Writing changes what is at one place, the one that the path leads to. -/
theorem entry?_write {text : String} (wrote : disk.write path text = .ok later)
    {other : Location} (elsewhere : later.locate path ≠ .ok other) :
    later.entry? other = disk.entry? other := by
  have keeps := keeps_write wrote
  obtain ⟨location, led, -, -, rfl⟩ := write_eq_ok_iff.1 wrote
  refine entry?_put_of_ne ?_ _
  rintro rfl
  exact elsewhere (keeps.locate led)

/-- A file keeps its text when another file is written, or the same text at its place. -/
theorem find_write_of_find {path other text : String} {content : ByteArray}
    (found : disk.find path = .ok (.file content))
    (wrote : disk.write other text = .ok later)
    (same : disk.SamePlace path other → text.toUTF8 = content) :
    later.find path = .ok (.file content) := by
  have keeps := keeps_write wrote
  obtain ⟨place, led, hentry, hwants⟩ := find_eq_ok_file_iff.1 found
  obtain ⟨location, hother, -, noDirectory, rfl⟩ := write_eq_ok_iff.1 wrote
  refine find_eq_ok_file_iff.2 ⟨place, keeps.locate led, ?_, hwants⟩
  by_cases hplace : place = location
  · subst hplace
    rw [entry?_put_self (ne_nil_of_ne_directory noDirectory), same ⟨place, led, hother⟩]
  · rw [entry?_put_of_ne hplace, hentry]

theorem SamePlace.content_eq {first second : String} {left right : ByteArray}
    (same : disk.SamePlace first second) (hfirst : disk.find first = .ok (.file left))
    (hsecond : disk.find second = .ok (.file right)) : left = right := by
  obtain ⟨location, ledFirst, ledSecond⟩ := same
  obtain ⟨place, hplace, hleft, -⟩ := find_eq_ok_file_iff.1 hfirst
  obtain ⟨place', hplace', hright, -⟩ := find_eq_ok_file_iff.1 hsecond
  obtain rfl := Except.ok.inj (ledFirst.symm.trans hplace)
  obtain rfl := Except.ok.inj (ledSecond.symm.trans hplace')
  simpa using hleft.symm.trans hright

/-- A file can be written to a path. -/
def Writable (disk : Disk) (path : String) : Prop :=
  ∃ location, disk.locate path = .ok location ∧ wantsDirectory path = false ∧
    disk.entry? location ≠ some .directory

theorem Writable.exists_write (writable : disk.Writable path) (text : String) :
    ∃ later, disk.write path text = .ok later := by
  obtain ⟨location, led, hwants, noDirectory⟩ := writable
  exact ⟨_, write_eq_ok_iff.2 ⟨location, led, hwants, noDirectory, rfl⟩⟩

theorem Writable.of_write {other text : String} (writable : disk.Writable other)
    (wrote : disk.write path text = .ok later) : later.Writable other := by
  have keeps := keeps_write wrote
  obtain ⟨location, led, hwants, noDirectory⟩ := writable
  obtain ⟨place, -, -, hplace, rfl⟩ := write_eq_ok_iff.1 wrote
  refine ⟨location, keeps.locate led, hwants, ?_⟩
  by_cases hsame : location = place
  · rw [hsame, entry?_put_self (ne_nil_of_ne_directory hplace)]
    nofun
  · rwa [entry?_put_of_ne hsame]

theorem run_write (disk : Disk) (path text : String) :
    (Files.write path text : StateM Disk _).run disk =
      match disk.write path text with
      | .ok later => (.ok (), later)
      | .error error => (.error error, disk) := rfl

/-! ## Making directories -/

/-- Directories were added where nothing was, and nothing else changed. -/
structure Grown (disk later : Disk) : Prop where
  home_eq : later.home = disk.home
  entry_eq : ∀ location, later.entry? location = disk.entry? location ∨
    disk.entry? location = none ∧ later.entry? location = some .directory

namespace Grown

theorem refl (disk : Disk) : Grown disk disk := ⟨rfl, fun _ => .inl rfl⟩

theorem trans {last : Disk} (first : Grown disk later) (second : Grown later last) :
    Grown disk last where
  home_eq := second.home_eq.trans first.home_eq
  entry_eq location := by
    rcases first.entry_eq location with hfirst | ⟨hnone, hfirst⟩ <;>
      rcases second.entry_eq location with hsecond | ⟨hempty, hsecond⟩
    · exact .inl (hsecond.trans hfirst)
    · exact .inr ⟨hfirst ▸ hempty, hsecond⟩
    · exact .inr ⟨hnone, hsecond.trans hfirst⟩
    · exact .inr ⟨hnone, hsecond⟩

theorem entry?_eq_some (grown : Grown disk later) {entry : Entry}
    (hentry : disk.entry? location = some entry) : later.entry? location = some entry := by
  rcases grown.entry_eq location with hsame | ⟨hnone, -⟩
  · exact hsame.trans hentry
  · simp [hnone] at hentry

theorem keeps (grown : Grown disk later) : Keeps disk later :=
  ⟨grown.home_eq, fun _ => grown.entry?_eq_some⟩

theorem find_file (grown : Grown disk later) {content : ByteArray}
    (found : disk.find path = .ok (.file content)) : later.find path = .ok (.file content) := by
  obtain ⟨location, led, hentry, hwants⟩ := find_eq_ok_file_iff.1 found
  exact find_eq_ok_file_iff.2
    ⟨location, grown.keeps.locate led, grown.entry?_eq_some hentry, hwants⟩

end Grown

theorem isDirectory_of_keeps (keeps : Keeps disk later) (there : disk.isDirectory path = true) :
    later.isDirectory path = true := by
  obtain ⟨location, led, hentry⟩ := isDirectory_iff.1 there
  exact isDirectory_iff.2 ⟨location, keeps.locate led, keeps.directory _ hentry⟩

theorem grown_makeDirectory (made : disk.makeDirectory path = .ok later) : Grown disk later := by
  obtain ⟨location, led, hnone, rfl⟩ := makeDirectory_eq_ok_iff.1 made
  refine ⟨rfl, fun other => ?_⟩
  by_cases hother : other = location
  · -- The root is a directory, so a place where nothing is lies inside it.
    subst hother
    have noDirectory : disk.entry? other ≠ some .directory := by simp [hnone]
    exact .inr ⟨hnone, entry?_put_self (ne_nil_of_ne_directory noDirectory) _⟩
  · exact .inl (entry?_put_of_ne hother _)

theorem isDirectory_makeDirectory (made : disk.makeDirectory path = .ok later) :
    later.isDirectory path = true := by
  have keeps := (grown_makeDirectory made).keeps
  obtain ⟨location, led, hnone, rfl⟩ := makeDirectory_eq_ok_iff.1 made
  have noDirectory : disk.entry? location ≠ some .directory := by simp [hnone]
  exact isDirectory_iff.2
    ⟨location, keeps.locate led, entry?_put_self (ne_nil_of_ne_directory noDirectory) _⟩

theorem makeDirectory_of_isDirectory (there : disk.isDirectory path = true) :
    disk.makeDirectory path = .error .exists := by
  obtain ⟨location, led, hentry⟩ := isDirectory_iff.1 there
  simp [makeDirectory, led, hentry, bind, Except.bind]

/-- What making one directory comes to, where a directory that is there will do. -/
def ensureDirectory (disk : Disk) (path : String) : Except SystemError Unit × Disk :=
  match disk.makeDirectory path with
  | .ok made => (.ok (), made)
  | .error error => (if disk.isDirectory path then .ok () else .error error, disk)

private theorem run_bind {S A B : Type} (program : StateM S A) (next : A → StateM S B)
    (state : S) :
    (program >>= next).run state = (next (program.run state).1).run (program.run state).2 := rfl

theorem grown_ensureDirectory (disk : Disk) (path : String) :
    Grown disk (disk.ensureDirectory path).2 := by
  unfold ensureDirectory
  split
  · exact grown_makeDirectory ‹_›
  · exact Grown.refl disk

theorem isDirectory_ensureDirectory (ensured : (disk.ensureDirectory path).1 = .ok ()) :
    (disk.ensureDirectory path).2.isDirectory path = true := by
  unfold ensureDirectory at ensured ⊢
  cases hmade : disk.makeDirectory path with
  | ok made => exact isDirectory_makeDirectory hmade
  | error error =>
    simp only [hmade] at ensured
    split_ifs at ensured with hthere
    exact hthere

/-- What making some directories, each in the next one, comes to on a disk. -/
theorem run_makeFirst_cons (disk : Disk) (path : String) (outer : List String) :
    (Files.makeFirst (path :: outer) : StateM Disk _).run disk =
      if path.isEmpty then (.ok (), disk)
      else match disk.makeDirectory path with
        | .error .notFound =>
          match (Files.makeFirst outer : StateM Disk _).run disk with
          | (.ok (), later) => later.ensureDirectory path
          | (.error error, later) => (.error error, later)
        | _ => disk.ensureDirectory path := by
  have hmake : ∀ disk : Disk, (Files.makeDirectory path : StateM Disk _).run disk =
      match disk.makeDirectory path with
      | .ok made => (.ok (), made)
      | .error error => (.error error, disk) := fun _ => rfl
  have hsettle : ∀ (disk : Disk) (error : SystemError),
      (Files.makeFirst.settle path (.error error) : StateM Disk _).run disk =
        (if disk.isDirectory path then .ok () else .error error, disk) := fun _ _ => rfl
  rw [Files.makeFirst]
  split_ifs with hempty
  · rfl
  · -- Only a missing outer directory asks for more; any other error settles the path itself.
    rw [run_bind, hmake]
    cases hmade : disk.makeDirectory path with
    | ok made =>
      simp only [ensureDirectory, hmade]
      rfl
    | error error =>
      by_cases hmissing : error = .notFound
      · subst hmissing
        simp only
        rw [run_bind]
        rcases (Files.makeFirst outer : StateM Disk _).run disk with ⟨_ | _, later⟩
        · rfl
        · simp only
          rw [run_bind, hmake, ensureDirectory]
          cases later.makeDirectory path <;> rfl
      · cases error <;> simp_all [ensureDirectory]

/-- Making directories adds directories, also when it fails. -/
theorem grown_makeFirst (disk : Disk) (paths : List String) :
    Grown disk ((Files.makeFirst paths : StateM Disk _).run disk).2 := by
  -- The directories further out are made first, and what they leave is then grown once more.
  induction paths with
  | nil => exact Grown.refl disk
  | cons path outer ih =>
    rw [run_makeFirst_cons]
    split_ifs with hempty
    · exact Grown.refl disk
    · split
      · split <;> rename_i hrun <;> rw [hrun] at ih
        · exact ih.trans (grown_ensureDirectory _ path)
        · exact ih
      · exact grown_ensureDirectory disk path

/-- What making a directory with all directories that lead to it comes to. -/
def makeDirectories (disk : Disk) (path : String) : Except SystemError Unit × Disk :=
  (Files.makeDirectories path : StateM Disk _).run disk

/-- A path is there as a directory; the empty path, which names the working directory, is
taken to be. -/
def Stands (disk : Disk) (path : String) : Prop :=
  path.isEmpty = true ∨ disk.isDirectory path = true

theorem Stands.of_keeps (stands : disk.Stands path) (keeps : Keeps disk later) :
    later.Stands path :=
  stands.imp_right (isDirectory_of_keeps keeps)

/-- The directories that lead to a path end with the path itself. -/
theorem ancestors_eq_cons (path : String) : ∃ outer, Path.ancestors path = path :: outer := by
  unfold Path.ancestors
  cases path.length with
  | zero => exact ⟨[], rfl⟩
  | succ bound => exact ⟨_, rfl⟩

theorem makeDirectories_eq (disk : Disk) (path : String) :
    ∃ outer, disk.makeDirectories path =
      (Files.makeFirst (path :: outer) : StateM Disk _).run disk := by
  obtain ⟨outer, houter⟩ := ancestors_eq_cons path
  exact ⟨outer, by rw [makeDirectories, Files.makeDirectories, houter]⟩

theorem grown_makeDirectories (disk : Disk) (path : String) :
    Grown disk (disk.makeDirectories path).2 :=
  grown_makeFirst disk (Path.ancestors path)

theorem stands_makeDirectories (made : (disk.makeDirectories path).1 = .ok ()) :
    (disk.makeDirectories path).2.Stands path := by
  obtain ⟨outer, hrun⟩ := makeDirectories_eq disk path
  rw [hrun, run_makeFirst_cons] at made ⊢
  split_ifs at made ⊢ with hempty
  · exact .inl hempty
  · refine .inr ?_
    split at made
    · split at made
      · exact isDirectory_ensureDirectory made
      · simp at made
    · exact isDirectory_ensureDirectory made

/-- What a directory that could be made leaves on the disk. -/
theorem grown_and_stands (made : disk.makeDirectories path = (.ok (), later)) :
    Grown disk later ∧ later.Stands path := by
  have grown := grown_makeDirectories disk path
  have stands : (disk.makeDirectories path).2.Stands path :=
    stands_makeDirectories (congrArg Prod.fst made)
  rw [made] at grown stands
  exact ⟨grown, stands⟩

/-- Making a directory that is there changes nothing. -/
theorem makeDirectories_again (stands : disk.Stands path) :
    disk.makeDirectories path = (.ok (), disk) := by
  obtain ⟨outer, hrun⟩ := makeDirectories_eq disk path
  rw [hrun, run_makeFirst_cons]
  rcases stands with hempty | hthere
  · rw [if_pos hempty]
  · simp [makeDirectory_of_isDirectory hthere, ensureDirectory, hthere]

end ProgramGraphs.Disk
