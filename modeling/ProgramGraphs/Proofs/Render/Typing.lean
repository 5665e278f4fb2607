import ProgramGraphs.Proofs.Record.Attributes
import ProgramGraphs.Proofs.Render.GraphMl
import ProgramGraphs.Proofs.Render.Keys
import ProgramGraphs.Record.Graphs

/-!
# Well-typed documents

The data of a GraphML document have no types of their own: each refers to a key, and the
key has one.  `TypedFacts.ofGraphMl?` reads a document in this way.  It gives nothing
unless every datum refers to exactly one of the keys that stand before the graph, and
this key is for elements of the datum's kind.

Every document can be read so, and what is read has the declared types
(`ofGraphMl?_eq`).  These are the types of the values themselves exactly when no name
has values of two types (`ofGraphMl?_eq_typedFacts_iff`).  The attributes of class graphs
and of canonical graphs have one type for each name, so their documents are well typed
(`graphMl_typed`).
-/

namespace ProgramGraphs

/-- What a document says, with the type of each datum after its name. -/
@[ext]
structure TypedFacts where
  /-- The declared names, each after the elements that it is declared for. -/
  declared : List (String × String)
  vertices : List (String × List (String × String × String))
  edges : List (String × String × List (String × String × String))
  deriving DecidableEq, Repr

namespace Render.GraphMl

/-! ## Keys and the data that refer to them -/

/-- Whether the item declares a key. -/
def Item.isKey : Item → Bool
  | .key .. => true
  | .element .. => false

/-- Whether the item declares the key with an id. -/
def Item.hasId (id : String) : Item → Bool
  | .key other .. => other = id
  | .element .. => false

/-- What a key is for and the name that it declares. -/
def Item.declares? : Item → Option (String × String)
  | .key _ domain name _ => some (domain, name)
  | .element .. => none

/-- A datum of an element, with the name and the type that its key declares. -/
def resolve? (keys : List Item) (domain : Domain) (datum : String × String) :
    Option (String × String × String) :=
  match keys.filter (·.hasId datum.1) with
  | [.key _ declaredFor name type] =>
    if declaredFor = domain.element then some (name, type, datum.2) else none
  | _ => none

end Render.GraphMl

open Render.GraphMl in
/-- What a GraphML document says when its data are read with their types. -/
def TypedFacts.ofGraphMl? (text : String) : Option TypedFacts := do
  let items ← items? text
  let keys := items.takeWhile (·.isKey)
  let vertices ← (items.filterMap (·.vertex?)).mapM fun (id, data) =>
    (data.mapM (resolve? keys .node)).map (id, ·)
  let edges ← (items.filterMap (·.edge?)).mapM fun (source, target, data) =>
    (data.mapM (resolve? keys .edge)).map (source, target, ·)
  return { declared := keys.filterMap (·.declares?), vertices, edges }

/-! ## The types of the values themselves -/

namespace Attributes

/-- The entries whose value is not missing. -/
def present (attributes : Attributes) : List (String × Attribute) :=
  attributes.toList.filter fun entry => !entry.2.isNull

/-- The texts of the values that are not missing, with a type for each name. -/
def typedBy (types : String → AttributeType) (attributes : Attributes) :
    List (String × String × String) :=
  attributes.present.map fun entry => (entry.1, (types entry.1).name, entry.2.display)

/-- The texts of the values that are not missing, each with its own type. -/
def typed (attributes : Attributes) : List (String × String × String) :=
  attributes.present.map fun entry => (entry.1, entry.2.type.name, entry.2.display)

/-- Whether values have the types that are given for their names. -/
def Follows (types : String → AttributeType) (attributes : Attributes) : Prop :=
  ∀ entry ∈ attributes.present, entry.2.type = types entry.1

end Attributes

namespace GraphRecord

open Render.GraphMl

/-- The attribute maps of the vertices or of the edges. -/
def maps (graph : GraphRecord) : Domain → List Attributes
  | .node => graph.vertices.map (·.attributes)
  | .edge => graph.edges.map (·.attributes)

/-- The names of the attributes of vertices and then of edges, each once. -/
def attributeNames (graph : GraphRecord) : List (String × String) :=
  (namesIn (entriesOf (graph.maps .node))).map ("node", ·) ++
    (namesIn (entriesOf (graph.maps .edge))).map ("edge", ·)

/-- What a well-typed document of a graph says. -/
def typedFacts (graph : GraphRecord) : TypedFacts where
  declared := graph.attributeNames
  vertices := graph.vertices.map fun vertex => (vertex.id, vertex.attributes.typed)
  edges := graph.edges.map fun edge => (edge.source, edge.target, edge.attributes.typed)

/-- What a document of a graph says when its names have the given types. -/
def typedFactsBy (types : Domain → String → AttributeType) (graph : GraphRecord) : TypedFacts where
  declared := graph.attributeNames
  vertices := graph.vertices.map fun vertex => (vertex.id, vertex.attributes.typedBy (types .node))
  edges := graph.edges.map fun edge =>
    (edge.source, edge.target, edge.attributes.typedBy (types .edge))

/-- The types that a document of a graph declares. -/
def declaredType (graph : GraphRecord) (domain : Domain) (name : String) : AttributeType :=
  typeOf (valuesIn (entriesOf (graph.maps domain)) name)

end GraphRecord

theorem AttributeType.name_injective : Function.Injective AttributeType.name := by
  intro type other
  cases type <;> cases other <;> decide

namespace Attributes

theorem shown_eq (attributes : Attributes) :
    attributes.shown = attributes.present.map fun entry => (entry.1, entry.2.display) := by
  unfold shown present
  induction attributes.toList with
  | nil => rfl
  | cons entry entries ih =>
      cases hnull : entry.2.isNull <;> simp [hnull, ih]

theorem typedBy_eq_typed_iff {types : String → AttributeType} {attributes : Attributes} :
    attributes.typedBy types = attributes.typed ↔ attributes.Follows types := by
  rw [typedBy, typed, List.map_inj_left]
  refine forall₂_congr fun entry _ => ?_
  rw [Prod.mk.injEq, Prod.mk.injEq, AttributeType.name_injective.eq_iff]
  simp [eq_comm]

end Attributes

namespace Render.GraphMl

/-! ## Resolving data -/

theorem hasId_keyItem (domain : Domain) (key : Key) (name : String) :
    (keyItem domain key).hasId (domain.mark ++ name) = decide (key.name = name) := by
  rw [keyItem, Item.hasId]
  exact decide_eq_decide.mpr (String.append_right_inj _)

theorem hasId_keyItem_of_ne {domain other : Domain} (hne : domain ≠ other) (key : Key)
    (name : String) : (keyItem other key).hasId (domain.mark ++ name) = false := by
  apply decide_eq_false
  intro hsame
  have htexts := congrArg String.toList hsame
  rw [String.toList_append, String.toList_append] at htexts
  -- the marks differ in their first letters
  cases domain <;> cases other <;> simp [Domain.mark] at hne htexts

/-- Of declarations with different names, one has a given name. -/
theorem filter_name {keys : List Key} (hnodup : (keys.map Key.name).Nodup) {key : Key}
    (hkey : key ∈ keys) : keys.filter (fun other => other.name = key.name) = [key] := by
  induction keys with
  | nil => exact absurd hkey List.not_mem_nil
  | cons first keys ih =>
      rw [List.map_cons, List.nodup_cons] at hnodup
      rcases List.mem_cons.mp hkey with rfl | hkey
      · have hnone : keys.filter (fun other => other.name = key.name) = [] := by
          refine List.filter_eq_nil_iff.mpr fun other hother hsame => hnodup.1 ?_
          exact List.mem_map.mpr ⟨other, hother, of_decide_eq_true hsame⟩
        rw [List.filter_cons_of_pos (by simp), hnone]
      · have hfirst : first.name ≠ key.name := fun hsame =>
          hnodup.1 (List.mem_map.mpr ⟨key, hkey, hsame.symm⟩)
        rw [List.filter_cons_of_neg (by simpa using hfirst), ih hnodup.2 hkey]

/-- The declarations of a document. -/
def keyItems (graph : GraphRecord) : List Item :=
  (collectKeys (graph.maps .node)).map (keyItem .node) ++
    (collectKeys (graph.maps .edge)).map (keyItem .edge)

/-- **A key is found by its id alone**: marks keep vertex keys and edge keys apart. -/
theorem filter_keyItems (graph : GraphRecord) {domain : Domain} {key : Key}
    (hkey : key ∈ collectKeys (graph.maps domain)) :
    (keyItems graph).filter (·.hasId (domain.mark ++ key.name)) = [keyItem domain key] := by
  have hsame : ((collectKeys (graph.maps domain)).map (keyItem domain)).filter
      (·.hasId (domain.mark ++ key.name)) = [keyItem domain key] := by
    have hnodup : ((collectKeys (graph.maps domain)).map Key.name).Nodup := by
      rw [map_name_collectKeys]
      exact nodup_namesIn _
    rw [List.filter_map]
    simp only [Function.comp_def, hasId_keyItem]
    rw [filter_name hnodup hkey, List.map_singleton]
  have hother : ∀ (other : Domain) (keys : List Key), domain ≠ other →
      (keys.map (keyItem other)).filter (·.hasId (domain.mark ++ key.name)) = [] := by
    intro other keys hne
    rw [List.filter_eq_nil_iff]
    intro item hitem
    obtain ⟨otherKey, -, rfl⟩ := List.mem_map.mp hitem
    rw [hasId_keyItem_of_ne hne]
    decide
  rw [keyItems, List.filter_append]
  cases domain with
  | node => rw [hsame, hother .edge _ (by decide), List.append_nil]
  | edge => rw [hsame, hother .node _ (by decide), List.nil_append]

theorem resolve?_keyItems (graph : GraphRecord) {domain : Domain} {name : String}
    (hname : name ∈ namesIn (entriesOf (graph.maps domain))) (content : String) :
    resolve? (keyItems graph) domain (domain.mark ++ name, content) =
      some (name, (graph.declaredType domain name).name, content) := by
  have hkey : (⟨name, graph.declaredType domain name⟩ : Key) ∈ collectKeys (graph.maps domain) :=
    mem_collectKeys.mpr ⟨hname, rfl⟩
  have hfilter := filter_keyItems graph hkey
  rw [resolve?, hfilter]
  exact if_pos rfl

theorem mapM_resolve? (graph : GraphRecord) {domain : Domain} {attributes : Attributes}
    (hmem : attributes ∈ graph.maps domain) :
    (dataOf domain attributes).mapM (resolve? (keyItems graph) domain) =
      some (attributes.typedBy (graph.declaredType domain)) := by
  rw [dataOf, Attributes.shown_eq, List.map_map, Attributes.typedBy]
  apply mapM_map_eq_some
  intro entry hentry
  apply resolve?_keyItems
  apply mem_namesIn.mpr
  exact ⟨entry.2, List.mem_flatMap.mpr ⟨attributes, hmem, List.mem_of_mem_filter hentry⟩⟩

/-! ## Reading documents with types -/

theorem takeWhile_items (graph : GraphRecord) :
    (items graph).takeWhile (·.isKey) = keyItems graph := by
  have hkeys : ∀ item ∈ keyItems graph, item.isKey = true := by
    intro item hitem
    rcases List.mem_append.mp hitem with hitem | hitem
    · obtain ⟨key, -, rfl⟩ := List.mem_map.mp hitem
      rfl
    · obtain ⟨key, -, rfl⟩ := List.mem_map.mp hitem
      rfl
  have helements : (graph.vertices.map vertexItem ++ graph.edges.zipIdx.map edgeItem).takeWhile
      (·.isKey) = [] := by
    cases graph.vertices with
    | nil => cases graph.edges <;> rfl
    | cons vertex vertices => rfl
  have hitems : items graph = keyItems graph ++
      (graph.vertices.map vertexItem ++ graph.edges.zipIdx.map edgeItem) :=
    (List.append_assoc _ _ _).symm
  rw [hitems, List.takeWhile_append_of_pos hkeys, helements, List.append_nil]

theorem filterMap_declares? (graph : GraphRecord) :
    (keyItems graph).filterMap (·.declares?) = graph.attributeNames := by
  have hkeys : ∀ (domain : Domain) (keys : List Key),
      (keys.map (keyItem domain)).filterMap (·.declares?) =
        (keys.map Key.name).map (domain.element, ·) := by
    intro domain keys
    have hkey : ∀ key, (keyItem domain key).declares? = some (domain.element, key.name) :=
      fun _ => rfl
    simp [List.filterMap_map, hkey]
  rw [keyItems, List.filterMap_append, hkeys, hkeys, map_name_collectKeys, map_name_collectKeys]
  rfl

/-- **Every document can be read with types**, and these are the declared ones. -/
theorem ofGraphMl?_eq (graph : GraphRecord) :
    TypedFacts.ofGraphMl? (graphMl graph) = some (graph.typedFactsBy graph.declaredType) := by
  have hvertices : ((items graph).filterMap (·.vertex?)).mapM (fun (id, data) =>
      (data.mapM (resolve? (keyItems graph) .node)).map (id, ·)) =
        some (graph.typedFactsBy graph.declaredType).vertices := by
    rw [filterMap_vertex?]
    refine mapM_map_eq_some fun vertex hvertex => ?_
    have hmem : vertex.attributes ∈ graph.maps .node := List.mem_map_of_mem hvertex
    exact congrArg (Option.map (vertex.id, ·)) (mapM_resolve? graph hmem)
  have hedges : ((items graph).filterMap (·.edge?)).mapM (fun (source, target, data) =>
      (data.mapM (resolve? (keyItems graph) .edge)).map (source, target, ·)) =
        some (graph.typedFactsBy graph.declaredType).edges := by
    rw [filterMap_edge?]
    refine mapM_map_eq_some fun edge hedge => ?_
    have hmem : edge.attributes ∈ graph.maps .edge := List.mem_map_of_mem hedge
    exact congrArg (Option.map (edge.source, edge.target, ·)) (mapM_resolve? graph hmem)
  rw [TypedFacts.ofGraphMl?, items?_graphMl]
  simp only [Option.bind_eq_bind, Option.bind_some, takeWhile_items, hvertices, hedges,
    filterMap_declares?]
  rfl

/-! ## Names with one type -/

/-- The declared types are those of the values when some types are. -/
theorem follows_declaredType {graph : GraphRecord} {domain : Domain}
    {types : String → AttributeType} (hfollows : ∀ attributes ∈ graph.maps domain,
      attributes.Follows types) :
    ∀ attributes ∈ graph.maps domain, attributes.Follows (graph.declaredType domain) := by
  have hpresent : ∀ {name value}, value ∈ valuesIn (entriesOf (graph.maps domain)) name →
      value.isNull = false → value.type = types name := by
    intro name value hvalue hnull
    obtain ⟨attributes, hmem, hentry⟩ := List.mem_flatMap.mp (mem_valuesIn.mp hvalue)
    exact hfollows attributes hmem (name, value)
      (List.mem_filter.mpr ⟨hentry, by rw [hnull]; rfl⟩)
  intro attributes hmem entry hentry
  obtain ⟨hlisted, hnull⟩ := List.mem_filter.mp hentry
  have hvalue : entry.2 ∈ valuesIn (entriesOf (graph.maps domain)) entry.1 :=
    mem_valuesIn.mpr (List.mem_flatMap.mpr ⟨attributes, hmem, hlisted⟩)
  by_cases hstring : graph.declaredType domain entry.1 = .string
  · rw [hstring]
    exact typeOf_eq_string_iff.mp hstring entry.2 hvalue
  · obtain ⟨other, hother, htype⟩ := exists_type_eq hstring
    have hotherPresent : other.isNull = false := by
      rw [Bool.eq_false_iff]
      intro hnull
      exact hstring (htype.symm.trans (type_of_isNull hnull))
    calc entry.2.type = types entry.1 := hpresent hvalue (by simpa using hnull)
      _ = other.type := (hpresent hother hotherPresent).symm
      _ = graph.declaredType domain entry.1 := htype

/-- **When a document is well typed**: no name has values of two types, among those of
the vertices and among those of the edges. -/
theorem ofGraphMl?_eq_typedFacts_iff (graph : GraphRecord) :
    TypedFacts.ofGraphMl? (graphMl graph) = some graph.typedFacts ↔
      ∀ domain, ∃ types, ∀ attributes ∈ graph.maps domain, attributes.Follows types := by
  rw [ofGraphMl?_eq, Option.some.injEq]
  constructor
  · intro hsame domain
    refine ⟨graph.declaredType domain, ?_⟩
    cases domain with
    | node =>
        refine List.forall_mem_map.mpr fun vertex hvertex => Attributes.typedBy_eq_typed_iff.mp ?_
        have hpair := List.map_inj_left.mp (congrArg TypedFacts.vertices hsame) vertex hvertex
        exact congrArg Prod.snd hpair
    | edge =>
        refine List.forall_mem_map.mpr fun edge hedge => Attributes.typedBy_eq_typed_iff.mp ?_
        have htriple := List.map_inj_left.mp (congrArg TypedFacts.edges hsame) edge hedge
        exact congrArg (·.2.2) htriple
  · intro htypes
    have htyped : ∀ domain, ∀ attributes ∈ graph.maps domain,
        attributes.typedBy (graph.declaredType domain) = attributes.typed := by
      intro domain attributes hmem
      obtain ⟨types, hfollows⟩ := htypes domain
      exact Attributes.typedBy_eq_typed_iff.mpr (follows_declaredType hfollows attributes hmem)
    have hvertices : (graph.typedFactsBy graph.declaredType).vertices = graph.typedFacts.vertices :=
      List.map_congr_left fun vertex hvertex =>
        congrArg (vertex.id, ·) (htyped .node _ (List.mem_map_of_mem hvertex))
    have hedges : (graph.typedFactsBy graph.declaredType).edges = graph.typedFacts.edges :=
      List.map_congr_left fun edge hedge =>
        congrArg (edge.source, edge.target, ·) (htyped .edge _ (List.mem_map_of_mem hedge))
    exact TypedFacts.ext rfl hvertices hedges

end Render.GraphMl

/-! ## Class graphs and canonical graphs -/

open Render.GraphMl

theorem Attributes.follows_ofList {types : String → AttributeType}
    {entries : List (String × Attribute)}
    (hentries : ∀ entry ∈ entries, entry.2.isNull = false → entry.2.type = types entry.1) :
    (ofList entries).Follows types := by
  intro entry hentry
  obtain ⟨hmem, hnull⟩ := List.mem_filter.mp hentry
  exact hentries entry (mem_of_mem_ofList hmem) (by simpa using hnull)

/-- A text that may be missing has no other type than text. -/
theorem Attribute.type_ofOption (text : Option String) : (ofOption text).type = .string := by
  cases text <;> rfl

/-- The types of the attributes of classes and of the calls between them. -/
def ClassGraph.attributeType : Domain → String → AttributeType
  | .node, name =>
    if name = "class_name" then .string else if name = "is_class_private" then .boolean else .long
  | .edge, name => if name = "weight" then .double else .string

/-- The types of the attributes of statements and of dependences. -/
def CanonicalGraph.attributeType : Domain → String → AttributeType
  | .node, name => if name = "position" then .long else .string
  | .edge, _ => .string

theorem ClassGraph.follows_attributeType (graph : ClassGraph) (domain : Domain) :
    ∀ attributes ∈ graph.toRecord.maps domain, attributes.Follows (attributeType domain) := by
  intro attributes hmem
  cases domain with
  | node =>
      obtain ⟨record, hrecord, rfl⟩ := List.mem_map.mp hmem
      obtain ⟨vertex, -, rfl⟩ := List.mem_map.mp hrecord
      exact Attributes.follows_ofList (by simp [attributeType, Attribute.type, Attribute.ofCount])
  | edge =>
      obtain ⟨record, hrecord, rfl⟩ := List.mem_map.mp hmem
      obtain ⟨⟨source, target, call⟩, -, rfl⟩ := List.mem_map.mp hrecord
      exact Attributes.follows_ofList (by simp [attributeType, Attribute.type])

theorem CanonicalGraph.follows_attributeType (graph : CanonicalGraph) (domain : Domain) :
    ∀ attributes ∈ graph.toRecord.maps domain, attributes.Follows (attributeType domain) := by
  intro attributes hmem
  cases domain with
  | node =>
      obtain ⟨record, hrecord, rfl⟩ := List.mem_map.mp hmem
      obtain ⟨vertex, -, rfl⟩ := List.mem_map.mp hrecord
      exact Attributes.follows_ofList (by simp [attributeType, Attribute.type])
  | edge =>
      obtain ⟨record, hrecord, rfl⟩ := List.mem_map.mp hmem
      obtain ⟨edge, -, rfl⟩ := List.mem_map.mp hrecord
      refine Attributes.follows_ofList fun entry hentry _ => ?_
      simp only [List.mem_cons, List.not_mem_nil, or_false] at hentry
      rcases hentry with rfl | rfl | rfl
      · exact Attribute.type_ofOption edge.edgeType
      · rfl
      · exact Attribute.type_ofOption edge.context

/-- **The documents of class graphs and of canonical graphs are well typed.**  Every
datum refers to exactly one key, which stands before the graph, is for elements of its
kind and has the type of the very value; and the keys declare exactly the names of the
attributes, each once. -/
theorem graphMl_typed :
    (∀ graph : ClassGraph,
      TypedFacts.ofGraphMl? (Render.graphMl graph.toRecord) = some graph.toRecord.typedFacts) ∧
    ∀ graph : CanonicalGraph,
      TypedFacts.ofGraphMl? (Render.graphMl graph.toRecord) = some graph.toRecord.typedFacts := by
  constructor
  · intro graph
    apply (ofGraphMl?_eq_typedFacts_iff graph.toRecord).mpr
    exact fun domain => ⟨_, graph.follows_attributeType domain⟩
  · intro graph
    apply (ofGraphMl?_eq_typedFacts_iff graph.toRecord).mpr
    exact fun domain => ⟨_, graph.follows_attributeType domain⟩

end ProgramGraphs
