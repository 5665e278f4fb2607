import ProgramGraphs.Proofs.Class.History

/-!
# Class names and descriptors

Reading the names off a descriptor forgets the marker and at most one terminator, and
nothing else: a qualified name can be written as a descriptor again, with any marker, and
that descriptor has the same two names.  In a class file no part of a name holds a `.`,
so there the qualified name gives the body of the descriptor back
(`map_separatorToDot_inj`).

Different descriptors of this kind therefore stay different classes.  They are exported
under different names, and a class graph gives them different places, whatever it has
met before (`addVertex_snd_eq_iff`).
-/

namespace ProgramGraphs

namespace ClassName

/-! ## Writing descriptors -/

/-- The descriptor with a marker, a body and the terminator. -/
def descriptor (marker : Char) (body : List Char) : String :=
  String.ofList (marker :: (body ++ [';']))

/-- The separator of a qualified name becomes the separator of a descriptor. -/
def dotToSeparator (c : Char) : Char := if c = '.' then '/' else c

/-- Whether a text is what follows the last `.` of a name. -/
def IsLastPart (name part : List Char) : Prop :=
  '.' ∉ part ∧ (name = part ∨ ∃ before, name = before ++ '.' :: part)

/-- What is asked of the two names of a class, whatever its descriptor is. -/
structure Regular (name : ClassName) : Prop where
  slash_notMem : '/' ∉ name.qualified.toList
  short_plain : ∀ c ∈ name.short.toList, c ≠ '/' ∧ c ≠ '.' ∧ c ≠ '$'
  short_eq : ∃ part, IsLastPart name.qualified.toList part ∧
    name.short.toList = part.map nestingToUnderscore
  /-- Written as a descriptor, the qualified name has the same two names again. -/
  ofDescriptor_eq : ∀ marker,
    ofDescriptor (descriptor marker (name.qualified.toList.map dotToSeparator)) = name

/-! ## Separators -/

theorem separatorToDot_ne (c : Char) : separatorToDot c ≠ '/' := by
  unfold separatorToDot
  split
  · decide
  · assumption

theorem slash_notMem_map (text : List Char) : '/' ∉ text.map separatorToDot := by
  intro hmem
  obtain ⟨c, -, hc⟩ := List.mem_map.mp hmem
  exact separatorToDot_ne c hc

theorem map_separatorToDot_map {text : List Char} (hslash : '/' ∉ text) :
    (text.map dotToSeparator).map separatorToDot = text := by
  rw [List.map_map]
  conv_rhs => rw [← List.map_id text]
  refine List.map_congr_left fun c hc => ?_
  have hne : c ≠ '/' := fun heq => hslash (heq ▸ hc)
  by_cases hdot : c = '.' <;> simp [dotToSeparator, separatorToDot, hdot, hne]

theorem map_dotToSeparator_map {text : List Char} (hdot : '.' ∉ text) :
    (text.map separatorToDot).map dotToSeparator = text := by
  rw [List.map_map]
  conv_rhs => rw [← List.map_id text]
  refine List.map_congr_left fun c hc => ?_
  have hne : c ≠ '.' := fun heq => hdot (heq ▸ hc)
  by_cases hslash : c = '/' <;> simp [dotToSeparator, separatorToDot, hslash, hne]

/-- Bodies without a `.` are not mixed up. -/
theorem map_separatorToDot_inj {body other : List Char} (hbody : '.' ∉ body)
    (hother : '.' ∉ other) :
    body.map separatorToDot = other.map separatorToDot ↔ body = other := by
  constructor
  · intro hsame
    rw [← map_dotToSeparator_map hbody, hsame, map_dotToSeparator_map hother]
  · exact fun hsame => hsame ▸ rfl

/-! ## Reading descriptors -/

@[simp] theorem body_descriptor (marker : Char) (text : List Char) :
    body (descriptor marker text).toList = text := by
  simp [body, descriptor]

theorem ofDescriptor_descriptor (marker : Char) (text : List Char) :
    ofDescriptor (descriptor marker text) =
      ⟨String.ofList (text.map separatorToDot),
        String.ofList ((lastPart (text.map separatorToDot)).map nestingToUnderscore)⟩ := by
  simp [ofDescriptor]

theorem isLastPart_lastPart (name : List Char) : IsLastPart name (lastPart name) := by
  unfold IsLastPart lastPart
  constructor
  · intro hmem
    have hpass := List.mem_takeWhile_imp (List.mem_reverse.mp hmem)
    exact absurd hpass (by decide)
  · have hsplit := List.takeWhile_append_dropWhile (p := fun c => decide (c ≠ '.'))
      (l := name.reverse)
    have hname : name = (name.reverse.dropWhile fun c => decide (c ≠ '.')).reverse ++
        (name.reverse.takeWhile fun c => decide (c ≠ '.')).reverse := by
      rw [← List.reverse_append, hsplit, List.reverse_reverse]
    cases hrest : name.reverse.dropWhile fun c => decide (c ≠ '.') with
    | nil =>
        rw [hrest] at hname
        exact Or.inl hname
    | cons c rest =>
        -- the search from the end stopped at a dot
        have hdot : c = '.' := by
          have hhead := List.head?_dropWhile_not (fun c => decide (c ≠ '.')) name.reverse
          rw [hrest] at hhead
          simpa using hhead
        refine Or.inr ⟨rest.reverse, ?_⟩
        rw [hrest, hdot, List.reverse_cons, List.append_assoc, List.singleton_append] at hname
        exact hname

theorem lastPart_plain {name : List Char} (hslash : '/' ∉ name) :
    ∀ c ∈ (lastPart name).map nestingToUnderscore, c ≠ '/' ∧ c ≠ '.' ∧ c ≠ '$' := by
  obtain ⟨hdot, hname⟩ := isLastPart_lastPart name
  have hmem : ∀ c ∈ lastPart name, c ∈ name := by
    intro c hc
    rcases hname with hwhole | ⟨before, hsplit⟩
    · rwa [hwhole]
    · rw [hsplit]
      exact List.mem_append_right _ (List.mem_cons_of_mem _ hc)
  intro c hc
  obtain ⟨d, hd, rfl⟩ := List.mem_map.mp hc
  have hneSlash : d ≠ '/' := fun heq => hslash (heq ▸ hmem d hd)
  have hneDot : d ≠ '.' := fun heq => hdot (heq ▸ hd)
  unfold nestingToUnderscore
  split
  · decide
  · exact ⟨hneSlash, hneDot, by assumption⟩

/-- The names of every descriptor are as they should be. -/
theorem regular_ofDescriptor (raw : String) : (ofDescriptor raw).Regular := by
  have hslash := slash_notMem_map (body raw.toList)
  constructor
  · simpa [ofDescriptor] using hslash
  · simpa [ofDescriptor] using lastPart_plain hslash
  · refine ⟨_, isLastPart_lastPart _, ?_⟩
    simp [ofDescriptor]
  · intro marker
    rw [ofDescriptor_descriptor]
    simp only [ofDescriptor, String.toList_ofList, map_separatorToDot_map hslash]

theorem qualified_inj {marker mark : Char} {text other : List Char} (htext : '.' ∉ text)
    (hother : '.' ∉ other) :
    (ofDescriptor (descriptor marker text)).qualified =
      (ofDescriptor (descriptor mark other)).qualified ↔ text = other := by
  rw [ofDescriptor_descriptor, ofDescriptor_descriptor, String.ofList_inj,
    map_separatorToDot_inj htext hother]

end ClassName

/-! ## Places in a class graph -/

/-- Two classes that are added to a graph, one after the other, are given the same place
when they have the same name. -/
theorem ClassGraph.addVertex_snd_eq_iff (changes : List Change) (first second : ClassVertex) :
    ((after changes).addVertex first).2 =
        (((after changes).addVertex first).1.addVertex second).2 ↔ first.Same second := by
  have hlists := (tallies_after changes).lists
  have hfirst : first.className ∈ names (classesIn changes ++ [first]) :=
    className_mem_names (by simp)
  have hmem : first.className ∈ names (classesIn changes ++ [first] ++ [second]) :=
    className_mem_names (by simp)
  rw [hlists.addVertex_snd, (hlists.addVertex first).addVertex_snd,
    ← idxOf_names_concat hfirst second]
  exact List.idxOf_inj hmem

namespace ClassName

/-- **Class names are faithful to descriptors.**  The two names of every descriptor are
regular.  Descriptors whose bodies have no `.` have one qualified name only when they
have one body, and only then are their classes one vertex of a class graph, whatever the
graph has met before. -/
theorem ofDescriptor_faithful :
    (∀ raw, (ofDescriptor raw).Regular) ∧
    (∀ marker mark body other, '.' ∉ body → '.' ∉ other →
      (ofDescriptor (descriptor marker body)).qualified =
        (ofDescriptor (descriptor mark other)).qualified → body = other) ∧
    ∀ (first second : ClassInfo) (marker mark : Char) (body other : List Char),
      first.name = descriptor marker body → second.name = descriptor mark other →
      '.' ∉ body → '.' ∉ other → body ≠ other →
      first.exportedName.qualified ≠ second.exportedName.qualified ∧
      ∀ changes : List Change,
        let graph := ClassGraph.after changes
        (graph.addVertex (.ofClass first)).2 ≠
          ((graph.addVertex (.ofClass first)).1.addVertex (.ofClass second)).2 := by
  refine ⟨regular_ofDescriptor, fun marker mark body other hbody hother => ?_, ?_⟩
  · exact (qualified_inj hbody hother).mp
  · intro first second marker mark body other hfirst hsecond hbody hother hne
    have hnames : first.exportedName.qualified ≠ second.exportedName.qualified := by
      unfold ClassInfo.exportedName
      rw [hfirst, hsecond]
      exact fun hsame => hne ((qualified_inj hbody hother).mp hsame)
    refine ⟨hnames, fun changes => ?_⟩
    intro graph hplace
    exact hnames ((ClassGraph.addVertex_snd_eq_iff changes _ _).mp hplace)

/-- A class and one nested in it, whose short names differ by the nesting mark alone. -/
theorem ofDescriptor_nested :
    let first : ClassInfo := { name := "Lp/A$B;" }
    let second : ClassInfo := { name := "Lp/A_B;" }
    first.exportedName.short = second.exportedName.short ∧
      first.exportedName.qualified ≠ second.exportedName.qualified ∧
      (ofDescriptor "Lp/A$B;;").Regular ∧ (ofDescriptor "").Regular := by
  intro first second
  have hfirst : first.name = descriptor 'L' "p/A$B".toList := by decide
  have hsecond : second.name = descriptor 'L' "p/A_B".toList := by decide
  obtain ⟨hregular, -, hapart⟩ := ofDescriptor_faithful
  obtain ⟨hnames, -⟩ := hapart first second 'L' 'L' _ _ hfirst hsecond (by decide) (by decide)
    (by decide)
  exact ⟨by decide, hnames, hregular _, hregular _⟩

end ClassName

end ProgramGraphs
