import ProgramGraphs.Proofs.Class.Tally

/-!
# Class graphs along their history

A class graph starts empty and changes in two ways: a class is added, or a call is
observed.  After any history it shows the classes that were added or took part in a
call that left its class, each as it was first seen, and its edges count the calls
(`Represents`).  What it shows never changes later, except that weights grow
(`Continues`).

Both are read off the tally that every change keeps (`Tallies.apply`), so nothing
below looks at how a graph is updated.
-/

namespace ProgramGraphs

/-- A change to a class graph. -/
inductive Change where
  | add (vertex : ClassVertex)
  | observe (call : ObservedCall)

namespace Change

/-- The classes that a change brings in.  A call within one class brings in none. -/
def classes : Change → List ClassVertex
  | .add vertex => [vertex]
  | .observe call => if call.Crosses then [call.source, call.target] else []

/-- The call that a change observes, whether or not it leaves its class. -/
def call? : Change → Option ObservedCall
  | .add _ => none
  | .observe call => some call

end Change

/-- The classes that a history brings in. -/
def classesIn (changes : List Change) : List ClassVertex := changes.flatMap Change.classes

/-- The calls that a history observes, those within a class included. -/
def callsIn (changes : List Change) : List ObservedCall := changes.filterMap Change.call?

/-- The calls of a history that leave their classes. -/
def crossingsIn (changes : List Change) : List ObservedCall :=
  (callsIn changes).filter fun call => call.Crosses

namespace ClassGraph

/-- The graph after one more change. -/
def apply (graph : ClassGraph) : Change → ClassGraph
  | .add vertex => (graph.addVertex vertex).1
  | .observe call => graph.observe call

/-- The graph after a history. -/
def after (changes : List Change) : ClassGraph := changes.foldl apply empty

/-- The names at the two ends of an edge. -/
def endNames (edge : ClassVertex × ClassVertex × CallEdge) : String × String :=
  (edge.1.className, edge.2.1.className)

/-- What a class graph shows after a history. -/
structure Represents (changes : List Change) (graph : ClassGraph) : Prop where
  /-- The vertices are the classes that were brought in, each as it was first seen. -/
  vertices_eq : graph.vertices.toList = firstBy (·.className) (classesIn changes)
  nodup_names : (graph.vertices.toList.map (·.className)).Nodup
  /-- A name has a place exactly where the vertex of that name stands. -/
  places_iff : ∀ (name : String) (place : Nat), graph.places[name]? = some place ↔
    ∃ vertex, graph.vertices[place]? = some vertex ∧ vertex.className = name
  vertex?_iff : ∀ (name : String) (vertex : ClassVertex), graph.vertex? name = some vertex ↔
    vertex ∈ graph.vertices ∧ vertex.className = name
  length_edges : graph.edges.length = graph.links.size
  /-- No two edges run between the same classes in the same direction. -/
  nodup_endNames : (graph.edges.map endNames).Nodup
  /-- There is an edge where a call between two classes was observed. -/
  isSome_edge?_iff : ∀ source target, (graph.edge? source target).isSome ↔
    source ≠ target ∧ ∃ call ∈ callsIn changes, call.ends = (source, target)
  edge?_iff : ∀ source target edge, graph.edge? source target = some edge ↔
    ∃ sourceVertex targetVertex, (sourceVertex, targetVertex, edge) ∈ graph.edges ∧
      sourceVertex.className = source ∧ targetVertex.className = target
  /-- An edge joins two classes, counts the calls between them exactly, and shows the
  methods of the first one. -/
  edge_eq : ∀ source target edge, (source, target, edge) ∈ graph.edges →
    let ends := (source.className, target.className)
    let count := (callsIn changes).countP fun call => call.ends = ends
    ends.1 ≠ ends.2 ∧ 1 ≤ count ∧
      edge.weight = Float.ofNat count ∧ edge.weight.toUInt64.toNat = count ∧
      ∃ first, (callsIn changes).find? (fun call => call.ends = ends) = some first ∧
        edge.sourceMethod = first.sourceMethod ∧ edge.targetMethod = first.targetMethod

/-- A later graph shows everything that a graph shows, at the same places.  Only
weights may have grown. -/
structure Continues (graph later : ClassGraph) : Prop where
  vertices_prefix : graph.vertices.toList <+: later.vertices.toList
  places_eq : ∀ (name : String) (place : Nat),
    graph.places[name]? = some place → later.places[name]? = some place
  edges_eq : ∀ (index : Nat) (source target : ClassVertex) (edge : CallEdge),
    graph.edges[index]? = some (source, target, edge) →
    ∃ weight, edge.weight ≤ weight ∧
      later.edges[index]? = some (source, target, { edge with weight })

/-- What a change answers, beside the changed graph. -/
structure Answers (graph : ClassGraph) : Prop where
  /-- An added class is told the place that its name has from then on. -/
  places_addVertex : ∀ vertex, (graph.addVertex vertex).1.places[vertex.className]? =
    some (graph.addVertex vertex).2
  /-- A call is turned down exactly when it stays within one class. -/
  tryRecordCall_eq_false_iff : ∀ source target sourceMethod targetMethod,
    (graph.tryRecordCall source target sourceMethod targetMethod).2 = false ↔
      source.className = target.className
  /-- A call that is turned down changes nothing. -/
  unchanged : ∀ source target sourceMethod targetMethod,
    (graph.tryRecordCall source target sourceMethod targetMethod).2 = false →
      (graph.tryRecordCall source target sourceMethod targetMethod).1 = graph

/-! ## The tally of a history -/

section Tallies

variable {classes : List ClassVertex} {calls : List ObservedCall} {graph : ClassGraph}

theorem Tallies.apply (htallies : Tallies classes calls graph) (change : Change) :
    Tallies (classes ++ change.classes)
      (calls ++ change.call?.toList.filter fun call => call.Crosses) (graph.apply change) := by
  cases change with
  | add vertex =>
      have hnone : calls ++ (Change.add vertex).call?.toList.filter (fun call => call.Crosses) =
          calls := calls.append_nil
      rw [hnone]
      exact htallies.addVertex vertex
  | observe call =>
      by_cases hcrosses : call.Crosses
      · have hcall := htallies.observe hcrosses
        rw [List.append_assoc] at hcall
        simpa [Change.classes, Change.call?, hcrosses, ClassGraph.apply] using hcall
      · simpa [Change.classes, Change.call?, hcrosses, ClassGraph.apply,
          observe_of_not_crosses hcrosses] using htallies

theorem Tallies.foldl_apply (htallies : Tallies classes calls graph) (changes : List Change) :
    Tallies (classes ++ classesIn changes) (calls ++ crossingsIn changes)
      (changes.foldl ClassGraph.apply graph) := by
  induction changes generalizing classes calls graph with
  | nil =>
      rwa [classesIn, crossingsIn, callsIn, List.flatMap_nil, List.filterMap_nil, List.filter_nil,
        List.append_nil, List.append_nil]
  | cons change changes ih =>
      have hrest := ih (htallies.apply change)
      have hcalls : callsIn (change :: changes) = change.call?.toList ++ callsIn changes := by
        rw [callsIn, List.filterMap_cons]
        cases change.call? <;> rfl
      rw [classesIn, List.flatMap_cons, crossingsIn, hcalls, List.filter_append,
        ← List.append_assoc, ← List.append_assoc]
      exact hrest

/-- Every graph is the tally of its history. -/
theorem tallies_after (changes : List Change) :
    Tallies (classesIn changes) (crossingsIn changes) (after changes) := by
  have htallies := tallies_empty.foldl_apply changes
  rwa [List.nil_append, List.nil_append] at htallies

end Tallies

/-! ## Reading a graph -/

section Reading

variable {classes : List ClassVertex} {calls : List ObservedCall} {graph : ClassGraph}

theorem Lists.map_vertices (hlists : Lists classes graph) :
    graph.vertices.toList.map (·.className) = names classes := by
  rw [hlists.vertices_eq, map_firstBy, names]

theorem nodup_names (classes : List ClassVertex) : (names classes).Nodup := nodup_eraseDups _

theorem Lists.places_iff (hlists : Lists classes graph) (name : String) (place : Nat) :
    graph.places[name]? = some place ↔
      ∃ vertex, graph.vertices[place]? = some vertex ∧ vertex.className = name := by
  have hname : (∃ vertex, graph.vertices[place]? = some vertex ∧ vertex.className = name) ↔
      (names classes)[place]? = some name := by
    rw [← hlists.map_vertices, List.getElem?_map, Option.map_eq_some_iff, Array.getElem?_toList]
  rw [hname, hlists.places_eq]
  constructor
  · intro hplace
    split at hplace
    · rename_i hmem
      obtain rfl := Option.some.inj hplace
      exact List.getElem?_idxOf hmem
    · contradiction
  · intro hplace
    obtain ⟨hlt, hfound⟩ := List.getElem?_eq_some_iff.mp hplace
    have hindex := (nodup_names classes).idxOf_getElem place hlt
    rw [hfound] at hindex
    rw [if_pos (List.mem_of_getElem? hplace), hindex]

theorem Lists.places_addVertex (hlists : Lists classes graph) (vertex : ClassVertex) :
    (graph.addVertex vertex).1.places[vertex.className]? = some (graph.addVertex vertex).2 := by
  have hmem : vertex.className ∈ names (classes ++ [vertex]) :=
    className_mem_names (List.mem_append_right _ (List.mem_singleton_self _))
  rw [(hlists.addVertex vertex).places_eq, hlists.addVertex_snd, if_pos hmem]

theorem Tallies.vertex?_iff (htallies : Tallies classes calls graph) (name : String)
    (vertex : ClassVertex) :
    graph.vertex? name = some vertex ↔ vertex ∈ graph.vertices ∧ vertex.className = name := by
  refine ⟨htallies.vertex?_some, ?_⟩
  rintro ⟨hvertex, rfl⟩
  rw [← Array.mem_toList_iff, htallies.lists.vertices_eq] at hvertex
  rw [htallies.vertex?_eq]
  exact mem_firstBy.mp hvertex

theorem Tallies.edge?_iff (htallies : Tallies classes calls graph) (source target : String)
    (edge : CallEdge) :
    graph.edge? source target = some edge ↔
      ∃ sourceVertex targetVertex, (sourceVertex, targetVertex, edge) ∈ graph.edges ∧
        sourceVertex.className = source ∧ targetVertex.className = target := by
  constructor
  · intro hedge
    rw [htallies.edge?_eq, Option.map_eq_some_iff] at hedge
    obtain ⟨first, hfirst, rfl⟩ := hedge
    have hends := List.find?_some hfirst
    obtain ⟨rfl, rfl⟩ := Prod.mk.inj (of_decide_eq_true hends)
    obtain ⟨sourceVertex, targetVertex, hsource, htarget⟩ :=
      htallies.exists_vertices (List.mem_of_find?_eq_some hfirst)
    refine ⟨sourceVertex, targetVertex, ?_, (htallies.vertex?_some hsource).2,
      (htallies.vertex?_some htarget).2⟩
    rw [htallies.edges_eq]
    refine List.mem_filterMap.mpr ⟨first, mem_firstBy.mpr hfirst, ?_⟩
    simp only [hsource, htarget, Option.bind_eq_bind, Option.bind_some, Option.pure_def]
  · rintro ⟨sourceVertex, targetVertex, hmem, rfl, rfl⟩
    exact (htallies.mem_edges hmem).2.2

theorem Tallies.nodup_endNames (htallies : Tallies classes calls graph) :
    (graph.edges.map endNames).Nodup := by
  have hnames : graph.edges.map endNames = (calls.map ObservedCall.ends).eraseDups :=
    htallies.map_edges
  rw [hnames]
  exact nodup_eraseDups _

end Reading

/-! ## What a history amounts to -/

section History

variable {changes : List Change}

theorem mem_crossingsIn {call : ObservedCall} :
    call ∈ crossingsIn changes ↔ call ∈ callsIn changes ∧ call.Crosses := by
  rw [crossingsIn, List.mem_filter, decide_eq_true_iff]

/-- Calls between two classes are calls that leave their class. -/
theorem crosses_of_ends {call : ObservedCall} {ends : String × String} (hne : ends.1 ≠ ends.2)
    (hends : call.ends = ends) : call.Crosses := by
  subst hends
  exact hne

theorem find?_crossingsIn {ends : String × String} (hne : ends.1 ≠ ends.2) :
    (crossingsIn changes).find? (fun call => call.ends = ends) =
      (callsIn changes).find? fun call => call.ends = ends := by
  rw [crossingsIn, List.find?_filter]
  congr 1
  funext call
  rw [decide_eq_decide, decide_eq_true_iff, decide_eq_true_iff]
  exact and_iff_right_of_imp (crosses_of_ends hne)

theorem countCalls_crossingsIn {ends : String × String} (hne : ends.1 ≠ ends.2) :
    countCalls (crossingsIn changes) ends =
      (callsIn changes).countP fun call => call.ends = ends := by
  rw [countCalls, crossingsIn, List.countP_filter]
  refine List.countP_congr fun call _ => ?_
  rw [← Bool.decide_and, decide_eq_true_iff, decide_eq_true_iff]
  exact and_iff_left_of_imp (crosses_of_ends hne)

theorem edge_eq_of_mem_edges {source target : ClassVertex} {edge : CallEdge}
    (hlt : (callsIn changes).length < 2 ^ 53)
    (hmem : (source, target, edge) ∈ (after changes).edges) :
    let ends := (source.className, target.className)
    let count := (callsIn changes).countP fun call => call.ends = ends
    ends.1 ≠ ends.2 ∧ 1 ≤ count ∧
      edge.weight = Float.ofNat count ∧ edge.weight.toUInt64.toNat = count ∧
      ∃ first, (callsIn changes).find? (fun call => call.ends = ends) = some first ∧
        edge.sourceMethod = first.sourceMethod ∧ edge.targetMethod = first.targetMethod := by
  intro ends count
  have hedge := ((tallies_after changes).mem_edges hmem).2.2
  rw [(tallies_after changes).edge?_eq, Option.map_eq_some_iff] at hedge
  obtain ⟨first, hfirst, rfl⟩ := hedge
  have hends : first.ends = ends := by
    have hfound := List.find?_some hfirst
    exact of_decide_eq_true hfound
  have hne : ends.1 ≠ ends.2 := by
    rw [← hends]
    exact (mem_crossingsIn.mp (List.mem_of_find?_eq_some hfirst)).2
  -- The ends differ, so all calls between them are crossings, and the tally has them all.
  rw [find?_crossingsIn hne] at hfirst
  have hweight : (tally (crossingsIn changes) first).weight = Float.ofNat count := by
    rw [tally, hends, countCalls_crossingsIn hne]
    exact ones_eq_ofNat (Nat.lt_of_le_of_lt List.countP_le_length hlt)
  have hword : (Float.ofNat count).toUInt64.toNat = count :=
    toUInt64_ofNat (Nat.lt_of_le_of_lt List.countP_le_length hlt)
  have hcount : 1 ≤ count := List.countP_pos_iff.mpr
    ⟨first, List.mem_of_find?_eq_some hfirst, decide_eq_true hends⟩
  exact ⟨hne, hcount, hweight, hweight ▸ hword, first, hfirst, rfl, rfl⟩

theorem isSome_edge?_after (source target : String) :
    ((after changes).edge? source target).isSome ↔
      source ≠ target ∧ ∃ call ∈ callsIn changes, call.ends = (source, target) := by
  rw [(tallies_after changes).edge?_eq, Option.isSome_map, List.find?_isSome]
  constructor
  · rintro ⟨call, hcall, hends⟩
    have hends := of_decide_eq_true hends
    obtain ⟨hcall, hcrosses⟩ := mem_crossingsIn.mp hcall
    obtain ⟨rfl, rfl⟩ := Prod.mk.inj hends
    exact ⟨hcrosses, call, hcall, rfl⟩
  · rintro ⟨hne, call, hcall, hends⟩
    exact ⟨call, mem_crossingsIn.mpr ⟨hcall, crosses_of_ends hne hends⟩, decide_eq_true hends⟩

theorem represents (hlt : (callsIn changes).length < 2 ^ 53) :
    Represents changes (after changes) where
  vertices_eq := (tallies_after changes).lists.vertices_eq
  nodup_names := by
    rw [(tallies_after changes).lists.map_vertices]
    exact nodup_names _
  places_iff := (tallies_after changes).lists.places_iff
  vertex?_iff := (tallies_after changes).vertex?_iff
  length_edges := (tallies_after changes).length_edges
  nodup_endNames := (tallies_after changes).nodup_endNames
  isSome_edge?_iff := isSome_edge?_after
  edge?_iff := (tallies_after changes).edge?_iff
  edge_eq _ _ _ := edge_eq_of_mem_edges hlt

end History

/-! ## Later graphs -/

theorem getElem?_filterMap {A B : Type} {f : A → Option B} {list : List A}
    (hall : ∀ a ∈ list, (f a).isSome) (index : Nat) :
    (list.filterMap f)[index]? = list[index]?.bind f := by
  induction list generalizing index with
  | nil => rfl
  | cons a list ih =>
      obtain ⟨b, hb⟩ := Option.isSome_iff_exists.mp (hall a List.mem_cons_self)
      rw [List.filterMap_cons_some hb]
      cases index with
      | zero => exact hb.symm
      | succ index => exact ih (fun a ha => hall a (List.mem_cons_of_mem _ ha)) index

theorem getElem?_of_initial {A : Type} {list longer : List A} {index : Nat} {a : A}
    (hinitial : list <+: longer) (ha : list[index]? = some a) : longer[index]? = some a := by
  obtain ⟨hlt, rfl⟩ := List.getElem?_eq_some_iff.mp ha
  exact List.prefix_iff_getElem?.mp hinitial index hlt

section Later

variable {classes more : List ClassVertex} {calls others : List ObservedCall}
  {graph later : ClassGraph}

/-- The edge at some place, read off the first call between its classes. -/
theorem Tallies.getElem?_edges_iff (htallies : Tallies classes calls graph) (index : Nat)
    (source target : ClassVertex) (edge : CallEdge) :
    graph.edges[index]? = some (source, target, edge) ↔
      ∃ first, (firstBy ObservedCall.ends calls)[index]? = some first ∧
        graph.vertex? first.source.className = some source ∧
        graph.vertex? first.target.className = some target ∧ tally calls first = edge := by
  have hall : ∀ first ∈ firstBy ObservedCall.ends calls, (do
      let source ← graph.vertex? first.source.className
      let target ← graph.vertex? first.target.className
      return (source, target, tally calls first)).isSome := by
    intro first hfirst
    obtain ⟨source, target, hsource, htarget⟩ :=
      htallies.exists_vertices (mem_of_mem_firstBy hfirst)
    simp [hsource, htarget]
  rw [htallies.edges_eq, getElem?_filterMap hall, Option.bind_eq_some_iff]
  refine exists_congr fun first => and_congr_right fun _ => ?_
  simp [Option.bind_eq_some_iff]

theorem Tallies.vertex?_of_append (hgraph : Tallies classes calls graph)
    (hlater : Tallies (classes ++ more) (calls ++ others) later) {name : String}
    {vertex : ClassVertex} (hvertex : graph.vertex? name = some vertex) :
    later.vertex? name = some vertex := by
  rw [hgraph.vertex?_eq] at hvertex
  rw [hlater.vertex?_eq, List.find?_append, hvertex, Option.some_or]

/-- More classes and calls continue a graph. -/
theorem Tallies.continues (hgraph : Tallies classes calls graph)
    (hlater : Tallies (classes ++ more) (calls ++ others) later)
    (hlt : (calls ++ others).length < 2 ^ 53) : Continues graph later := by
  have hvertices : graph.vertices.toList <+: later.vertices.toList := by
    rw [hgraph.lists.vertices_eq, hlater.lists.vertices_eq]
    exact firstBy_prefix_append _ _ _
  refine ⟨hvertices, fun name place hplace => ?_, fun index source target edge hedge => ?_⟩
  -- The place of a name is read off the vertices, and those are a first part of the later ones.
  · obtain ⟨vertex, hvertex, hname⟩ := (hgraph.lists.places_iff name place).mp hplace
    rw [← Array.getElem?_toList] at hvertex
    refine (hlater.lists.places_iff name place).mpr ⟨vertex, ?_, hname⟩
    rw [← Array.getElem?_toList]
    exact getElem?_of_initial hvertices hvertex
  -- An edge shows the first call between its classes, which is the first one later, too.
  · obtain ⟨first, hfirst, hsource, htarget, rfl⟩ :=
      (hgraph.getElem?_edges_iff index source target edge).mp hedge
    have hcounts : countCalls calls first.ends ≤ countCalls (calls ++ others) first.ends := by
      rw [countCalls, countCalls, List.countP_append]
      exact Nat.le_add_right _ _
    have hbound : countCalls (calls ++ others) first.ends < 2 ^ 53 :=
      Nat.lt_of_le_of_lt List.countP_le_length hlt
    have hweight : (tally calls first).weight ≤ (tally (calls ++ others) first).weight := by
      rw [tally, tally, ones_eq_ofNat hbound, ones_eq_ofNat (Nat.lt_of_le_of_lt hcounts hbound)]
      exact ofNat_le_ofNat hcounts hbound
    refine ⟨_, hweight, (hlater.getElem?_edges_iff index source target _).mpr
      ⟨first, ?_, hgraph.vertex?_of_append hlater hsource,
        hgraph.vertex?_of_append hlater htarget, rfl⟩⟩
    exact getElem?_of_initial (firstBy_prefix_append _ _ _) hfirst

end Later

theorem answers_after (changes : List Change) : Answers (after changes) where
  places_addVertex := (tallies_after changes).lists.places_addVertex
  tryRecordCall_eq_false_iff source target sourceMethod targetMethod := by
    by_cases hsame : source.className = target.className
    · rw [tryRecordCall_of_same _ hsame]
      exact iff_of_true rfl hsame
    · rw [tryRecordCall_of_ne _ hsame]
      exact iff_of_false Bool.noConfusion hsame
  unchanged source target sourceMethod targetMethod hrefused := by
    by_cases hsame : source.className = target.className
    · rw [tryRecordCall_of_same _ hsame]
    · rw [tryRecordCall_of_ne _ hsame] at hrefused
      contradiction

/-- **Class graphs count the calls of their history**, as long as there are fewer than
`2 ^ 53`, and keep what they have once shown. -/
theorem represents_after (changes : List Change) (hlt : (callsIn changes).length < 2 ^ 53) :
    Represents changes (after changes) ∧
      (∀ earlier more, changes = earlier ++ more → Continues (after earlier) (after changes)) ∧
      Answers (after changes) := by
  refine ⟨represents hlt, fun earlier more hchanges => ?_, answers_after changes⟩
  subst hchanges
  have hlater := tallies_after (earlier ++ more)
  have hcalls : crossingsIn (earlier ++ more) = crossingsIn earlier ++ crossingsIn more := by
    rw [crossingsIn, callsIn, List.filterMap_append, List.filter_append]
    rfl
  have hfew : (crossingsIn (earlier ++ more)).length < 2 ^ 53 :=
    Nat.lt_of_le_of_lt (List.length_filter_le ..) hlt
  rw [hcalls] at hlater hfew
  rw [classesIn, List.flatMap_append] at hlater
  exact (tallies_after earlier).continues hlater hfew

/-- A private class is added, is called twice by another class, and is seen again as a
public one that calls itself and calls back. -/
def reunion : List Change :=
  let service : ClassVertex := { (default : ClassVertex) with className := "Service" }
  let hidden := { service with isPrivate := true }
  let client := { service with className := "Client" }
  [.add hidden, .observe ⟨client, service, "run", "serve"⟩,
    .observe ⟨client, hidden, "stop", "close"⟩, .observe ⟨service, hidden, "serve", "close"⟩,
    .add service, .observe ⟨service, client, "serve", "reply"⟩]

theorem represents_reunion :
    (callsIn reunion).length < 2 ^ 53 ∧ Represents reunion (after reunion) ∧
      Continues (after (reunion.take 3)) (after reunion) := by
  have hlt : (callsIn reunion).length < 2 ^ 53 := by decide
  obtain ⟨hrepresents, hcontinues, -⟩ := represents_after reunion hlt
  exact ⟨hlt, hrepresents, hcontinues (reunion.take 3) (reunion.drop 3) rfl⟩

end ClassGraph

end ProgramGraphs
