import Mathlib.Algebra.BigOperators.Group.List.Lemmas
import Mathlib.Data.List.Dedup
import ProgramGraphs.Class.Graph
import ProgramGraphs.Proofs.Decimal.Whole
import ProgramGraphs.Proofs.FirstOccurrence

/-!
# The class graph as a tally

What a class graph holds can be read off the classes and calls it has met: its
vertices are the classes in the order in which they are first mentioned, its
edges the ordered pairs of classes in the order in which they first occur, and
each edge counts how often its pair occurs (`Tallies`).  Adding a vertex and
recording one more call keep this (`Tallies.addVertex`, `Tallies.observe`), and so
does a whole sequence of calls (`Tallies.foldl_observe`).

Weights are floating-point numbers.  They count correctly below `2 ^ 53`
(`ones_eq_ofNat`), and then so does their sum (`Tallies.totalWeight_eq`).
-/

namespace ProgramGraphs

/-- Every element has the key of exactly one first occurrence. -/
theorem sum_countP_firstBy {A B : Type} [DecidableEq B] (key : A → B) (list : List A) :
    ((firstBy key list).map fun first => list.countP fun a => key a = key first).sum =
      list.length := by
  have hcounts := List.sum_map_count_dedup_eq_length (list.map key)
  have hperm : ((firstBy key list).map key).Perm (list.map key).dedup := by
    refine (List.perm_ext_iff_of_nodup ?_ (List.nodup_dedup _)).mpr fun k => ?_
    · exact List.pairwise_map.mpr (pairwise_firstBy key list)
    · rw [List.mem_dedup, map_firstBy, List.mem_eraseDups]
  rw [← (hperm.map _).sum_eq, List.map_map, List.length_map] at hcounts
  rw [← hcounts]
  refine congrArg List.sum (List.map_congr_left fun first _ => ?_)
  rw [Function.comp_apply, List.count, List.countP_map]
  exact List.countP_congr fun a _ => by simp

theorem findIdx?_congr {A : Type} {p q : A → Bool} {list : List A}
    (hsame : ∀ a ∈ list, p a = q a) : list.findIdx? p = list.findIdx? q := by
  induction list with
  | nil => rfl
  | cons a list ih =>
      rw [List.findIdx?_cons, List.findIdx?_cons, hsame a List.mem_cons_self,
        ih fun b hb => hsame b (List.mem_cons_of_mem a hb)]

/-- Changing the one image whose origin a search finds. -/
theorem modify_map_findIdx? {A B : Type} {p : A → Bool} {g : A → B} {f : B → B} {list : List A}
    {place : Nat} (hfind : list.findIdx? p = some place)
    (hunique : list.Pairwise fun a b => p a = true → p b = false) :
    (list.map g).modify place f = list.map fun a => if p a then f (g a) else g a := by
  induction list generalizing place with
  | nil => contradiction
  | cons a list ih =>
      obtain ⟨hfirst, hunique⟩ := List.pairwise_cons.mp hunique
      rw [List.findIdx?_cons] at hfind
      cases hp : p a with
      | true =>
          simp only [hp, if_true, Option.some.injEq] at hfind
          subst hfind
          have hrest : list.map (fun b => if p b then f (g b) else g b) = list.map g := by
            refine List.map_congr_left fun b hb => ?_
            rw [hfirst b hb hp, if_neg Bool.false_ne_true]
          rw [List.map_cons, List.modify_zero_cons, List.map_cons, hp, if_pos rfl, hrest]
      | false =>
          simp only [hp, Bool.false_eq_true, if_false, Option.map_eq_some_iff] at hfind
          obtain ⟨place, hplace, rfl⟩ := hfind
          rw [List.map_cons, List.modify_succ_cons, List.map_cons, hp,
            if_neg Bool.false_ne_true, ih hplace hunique]

/-! ## Counting in floating point -/

/-- The weight after some number of calls, as it is counted. -/
def ones : Nat → Float
  | 0 => 0.0
  | n + 1 => ones n + 1.0

theorem ones_eq_ofNat {n : Nat} (hlt : n < 2 ^ 53) : ones n = Float.ofNat n := by
  induction n with
  | zero => rfl
  | succ n ih =>
      have hone : (1.0 : Float) = Float.ofNat 1 := rfl
      rw [ones, ih (by omega), hone, ofNat_add_ofNat hlt]

/-- Adding up weights that count counts everything. -/
theorem foldl_add_ones (counts : List Nat) (start : Nat) (hlt : start + counts.sum < 2 ^ 53) :
    counts.foldl (fun sum count => sum + ones count) (Float.ofNat start) =
      Float.ofNat (start + counts.sum) := by
  induction counts generalizing start with
  | nil => rfl
  | cons count counts ih =>
      rw [List.sum_cons] at hlt
      rw [List.foldl_cons, ones_eq_ofNat (by omega), ofNat_add_ofNat (by omega), ih _ (by omega),
        List.sum_cons, Nat.add_assoc]

/-! ## Calls -/

/-- A call as the class graph sees it. -/
structure ObservedCall where
  source : ClassVertex
  target : ClassVertex
  sourceMethod : String
  targetMethod : String
  deriving DecidableEq

namespace ObservedCall

/-- The classes between which the call was observed. -/
def ends (call : ObservedCall) : String × String := (call.source.className, call.target.className)

/-- Whether the call leaves its class. -/
def Crosses (call : ObservedCall) : Prop := call.source.className ≠ call.target.className

instance : DecidablePred Crosses := fun call =>
  inferInstanceAs (Decidable (call.source.className ≠ call.target.className))

end ObservedCall

/-- The classes that some calls mention, source before target. -/
def mentioned (calls : List ObservedCall) : List ClassVertex :=
  calls.flatMap fun call => [call.source, call.target]

/-- The names that occur in a list of classes, in the order in which they first occur. -/
def names (classes : List ClassVertex) : List String := (classes.map (·.className)).eraseDups

/-- How many of the calls run between two classes. -/
def countCalls (calls : List ObservedCall) (ends : String × String) : Nat :=
  calls.countP fun call => call.ends = ends

/-- What the calls between two classes amount to, the first of which is given. -/
def tally (calls : List ObservedCall) (first : ObservedCall) : CallEdge :=
  { sourceMethod := first.sourceMethod
    targetMethod := first.targetMethod
    weight := ones (countCalls calls first.ends) }

/-- The link that a first call stands for, under the places of some names. -/
def linkOf (places : List String) (calls : List ObservedCall) (first : ObservedCall) : ClassLink :=
  ⟨places.idxOf first.source.className, places.idxOf first.target.className, tally calls first⟩

namespace ClassGraph

/-- Records an observed call. -/
def observe (graph : ClassGraph) (call : ObservedCall) : ClassGraph :=
  graph.recordCall call.source call.target call.sourceMethod call.targetMethod

/-- The vertices are the classes that were mentioned, under the places of their names. -/
structure Lists (classes : List ClassVertex) (graph : ClassGraph) : Prop where
  vertices_eq : graph.vertices.toList = firstBy (·.className) classes
  places_eq : ∀ name, graph.places[name]? =
    if name ∈ names classes then some ((names classes).idxOf name) else none

/-- The names that calls mention are among some names. -/
def NamedIn (places : List String) (calls : List ObservedCall) : Prop :=
  ∀ call ∈ calls, call.source.className ∈ places ∧ call.target.className ∈ places

/-- The graph shows some classes, and is the tally of some calls between them that
leave their classes. -/
structure Tallies (classes : List ClassVertex) (calls : List ObservedCall) (graph : ClassGraph) :
    Prop where
  lists : Lists classes graph
  namedIn : NamedIn (names classes) calls
  links_eq : graph.links.toList =
    (firstBy ObservedCall.ends calls).map (linkOf (names classes) calls)

theorem tallies_empty : Tallies [] [] empty :=
  ⟨⟨rfl, fun name => by simp [empty, names]⟩, fun _ hcall => absurd hcall List.not_mem_nil, rfl⟩

/-! ## One more class -/

theorem names_concat (classes : List ClassVertex) (vertex : ClassVertex) :
    names (classes ++ [vertex]) =
      if vertex.className ∈ names classes then names classes
      else names classes ++ [vertex.className] := by
  rw [names, List.map_append, List.map_singleton, eraseDups_concat]
  simp only [names, List.mem_eraseDups]

theorem className_mem_names {classes : List ClassVertex} {vertex : ClassVertex}
    (hmem : vertex ∈ classes) : vertex.className ∈ names classes :=
  List.mem_eraseDups.mpr (List.mem_map_of_mem hmem)

/-- Names keep their places when more classes are mentioned. -/
theorem idxOf_names_concat {classes : List ClassVertex} {name : String}
    (hmem : name ∈ names classes) (vertex : ClassVertex) :
    (names (classes ++ [vertex])).idxOf name = (names classes).idxOf name := by
  rw [names_concat]
  split
  · rfl
  · exact List.idxOf_append_of_mem hmem

section AddVertex

variable {classes : List ClassVertex} {graph : ClassGraph} (vertex : ClassVertex)

theorem Lists.size_eq (hlists : Lists classes graph) :
    graph.vertices.size = (names classes).length := by
  rw [← Array.length_toList, hlists.vertices_eq, names, ← map_firstBy, List.length_map]

theorem Lists.addVertex_snd (hlists : Lists classes graph) :
    (graph.addVertex vertex).2 = (names (classes ++ [vertex])).idxOf vertex.className := by
  rw [addVertex, hlists.places_eq, names_concat]
  by_cases hmem : vertex.className ∈ names classes
  · simp only [if_pos hmem]
  · simp only [if_neg hmem]
    rw [List.idxOf_append_of_notMem hmem, List.idxOf_cons_self, hlists.size_eq]
    rfl

theorem Lists.addVertex (hlists : Lists classes graph) :
    Lists (classes ++ [vertex]) (graph.addVertex vertex).1 := by
  rw [ClassGraph.addVertex, hlists.places_eq]
  have hkey : vertex.className ∈ classes.map (·.className) ↔ vertex.className ∈ names classes :=
    List.mem_eraseDups.symm
  by_cases hmem : vertex.className ∈ names classes
  -- a class that was mentioned before
  · simp only [if_pos hmem]
    refine ⟨?_, fun name => ?_⟩
    · rw [firstBy_concat, if_pos (hkey.mpr hmem), hlists.vertices_eq]
    · rw [names_concat, if_pos hmem, hlists.places_eq]
  · simp only [if_neg hmem]
    refine ⟨?_, fun name => ?_⟩
    · rw [firstBy_concat, if_neg fun hin => hmem (hkey.mp hin), Array.toList_push,
        hlists.vertices_eq]
    · rw [names_concat, if_neg hmem, Std.HashMap.getElem?_insert, hlists.places_eq,
        hlists.size_eq]
      by_cases hname : vertex.className = name
      · subst hname
        rw [if_pos BEq.rfl, if_pos (by simp), List.idxOf_append_of_notMem hmem,
          List.idxOf_cons_self, Nat.add_zero]
      · rw [if_neg (by simpa using hname)]
        by_cases hold : name ∈ names classes
        · rw [if_pos hold, if_pos (List.mem_append_left _ hold), List.idxOf_append_of_mem hold]
        · rw [if_neg hold, if_neg (by simp [hold, Ne.symm hname])]

theorem Lists.countCall (hlists : Lists classes graph) (source target : Nat)
    (sourceMethod targetMethod : String) :
    Lists classes (graph.countCall source target sourceMethod targetMethod) := by
  rw [ClassGraph.countCall]
  split <;> exact ⟨hlists.vertices_eq, hlists.places_eq⟩

theorem links_addVertex (graph : ClassGraph) (vertex : ClassVertex) :
    (graph.addVertex vertex).1.links = graph.links := by
  rw [ClassGraph.addVertex]
  split <;> rfl

end AddVertex

/-! ## One more call -/

theorem countCalls_concat (calls : List ObservedCall) (call : ObservedCall)
    (ends : String × String) :
    countCalls (calls ++ [call]) ends =
      countCalls calls ends + if call.ends = ends then 1 else 0 := by
  simp [countCalls, List.countP_append, List.countP_singleton]

theorem tally_concat (calls : List ObservedCall) (call first : ObservedCall) :
    tally (calls ++ [call]) first =
      if first.ends = call.ends then (tally calls first).again else tally calls first := by
  rw [tally, countCalls_concat]
  by_cases hends : first.ends = call.ends
  · rw [if_pos hends.symm, if_pos hends]
    rfl
  · rw [if_neg (Ne.symm hends), if_neg hends]
    rfl

theorem tally_concat_self {calls : List ObservedCall} {call : ObservedCall}
    (hnew : call.ends ∉ calls.map ObservedCall.ends) :
    tally (calls ++ [call]) call = .first call.sourceMethod call.targetMethod := by
  have hnone : countCalls calls call.ends = 0 := by
    rw [countCalls, List.countP_eq_zero]
    exact fun other hother hends =>
      hnew (List.mem_map.mpr ⟨other, hother, of_decide_eq_true hends⟩)
  rw [tally, countCalls_concat, hnone, if_pos rfl]
  rfl

section CountCall

variable {calls : List ObservedCall} {graph : ClassGraph} {call : ObservedCall}

/-- Two places are joined by the link of the calls between the names at these
places. -/
theorem findLink?_eq {places : List String} (hnamed : NamedIn places calls)
    (hlinks : graph.links.toList = (firstBy ObservedCall.ends calls).map (linkOf places calls))
    (source target : String) :
    graph.findLink? (places.idxOf source) (places.idxOf target) =
      (firstBy ObservedCall.ends calls).findIdx? fun first => first.ends = (source, target) := by
  have harray : graph.links.toList.toArray = graph.links := Array.toArray_toList
  rw [findLink?, ← harray, List.findIdx?_toArray, hlinks, List.findIdx?_map]
  refine findIdx?_congr fun first hfirst => ?_
  obtain ⟨hsource, htarget⟩ := hnamed first (mem_of_mem_firstBy hfirst)
  rw [Function.comp_apply, Bool.eq_iff_iff, Bool.and_eq_true, beq_iff_eq, beq_iff_eq,
    decide_eq_true_eq, linkOf, List.idxOf_inj hsource, List.idxOf_inj htarget, ObservedCall.ends,
    Prod.mk.injEq]

theorem mem_map_ends_iff {ends : String × String} :
    ends ∈ calls.map ObservedCall.ends ↔
      ∃ first ∈ firstBy ObservedCall.ends calls, first.ends = ends := by
  rw [← List.mem_eraseDups, ← map_firstBy, List.mem_map]

/-- Counting one more call, where the vertices are there already. -/
theorem links_countCall {places : List String} (hnamed : NamedIn places calls)
    (hlinks : graph.links.toList = (firstBy ObservedCall.ends calls).map (linkOf places calls))
    (call : ObservedCall) :
    (graph.countCall (places.idxOf call.source.className) (places.idxOf call.target.className)
        call.sourceMethod call.targetMethod).links.toList =
      (firstBy ObservedCall.ends (calls ++ [call])).map (linkOf places (calls ++ [call])) := by
  have hfind : graph.findLink? (places.idxOf call.source.className)
      (places.idxOf call.target.className) =
      (firstBy ObservedCall.ends calls).findIdx? fun first => first.ends = call.ends :=
    findLink?_eq hnamed hlinks ..
  rw [countCall, hfind]
  cases hplace : (firstBy ObservedCall.ends calls).findIdx? fun first => first.ends = call.ends with
  | none =>
      -- the first call between the two classes
      have hnone : ∀ first ∈ firstBy ObservedCall.ends calls, first.ends ≠ call.ends :=
        fun first hfirst => of_decide_eq_false (List.findIdx?_eq_none_iff.mp hplace first hfirst)
      have hnew : call.ends ∉ calls.map ObservedCall.ends := by
        rw [mem_map_ends_iff]
        rintro ⟨first, hfirst, hends⟩
        exact hnone first hfirst hends
      rw [firstBy_concat, if_neg hnew, List.map_append, List.map_singleton, Array.toList_push,
        hlinks, linkOf, tally_concat_self hnew]
      refine congrArg (· ++ [_]) (List.map_congr_left fun first hfirst => ?_)
      rw [linkOf, linkOf, tally_concat, if_neg (hnone first hfirst)]
  | some place =>
      have hold : call.ends ∈ calls.map ObservedCall.ends := by
        obtain ⟨hlt, hends, -⟩ := List.findIdx?_eq_some_iff_getElem.mp hplace
        exact mem_map_ends_iff.mpr ⟨_, List.getElem_mem hlt, of_decide_eq_true hends⟩
      have hunique : (firstBy ObservedCall.ends calls).Pairwise fun first second =>
          decide (first.ends = call.ends) = true → decide (second.ends = call.ends) = false :=
        (pairwise_firstBy _ calls).imp fun hne hends => decide_eq_false fun hother =>
          hne ((of_decide_eq_true hends).trans hother.symm)
      rw [firstBy_concat, if_pos hold, Array.toList_modify, hlinks,
        modify_map_findIdx? hplace hunique]
      refine List.map_congr_left fun first _ => ?_
      rw [linkOf, linkOf, tally_concat]
      by_cases hends : first.ends = call.ends
      · rw [if_pos hends, if_pos (decide_eq_true hends)]
      · rw [if_neg hends, if_neg (by simpa using hends)]

end CountCall

/-- A call within one class is not recorded. -/
theorem tryRecordCall_of_same (graph : ClassGraph) {source target : ClassVertex}
    (hsame : source.className = target.className) (sourceMethod targetMethod : String) :
    graph.tryRecordCall source target sourceMethod targetMethod = (graph, false) :=
  if_pos hsame

theorem tryRecordCall_of_ne (graph : ClassGraph) {source target : ClassVertex}
    (hne : source.className ≠ target.className) (sourceMethod targetMethod : String) :
    graph.tryRecordCall source target sourceMethod targetMethod =
      (((graph.addVertex source).1.addVertex target).1.countCall (graph.addVertex source).2
        ((graph.addVertex source).1.addVertex target).2 sourceMethod targetMethod, true) :=
  if_neg hne

theorem observe_of_not_crosses {call : ObservedCall} (hwithin : ¬ call.Crosses)
    (graph : ClassGraph) : graph.observe call = graph :=
  congrArg Prod.fst (graph.tryRecordCall_of_same (not_not.mp hwithin) ..)

theorem observe_of_crosses {call : ObservedCall} (hcrosses : call.Crosses) (graph : ClassGraph) :
    graph.observe call =
      ((graph.addVertex call.source).1.addVertex call.target).1.countCall
        (graph.addVertex call.source).2
        ((graph.addVertex call.source).1.addVertex call.target).2
        call.sourceMethod call.targetMethod :=
  congrArg Prod.fst (graph.tryRecordCall_of_ne hcrosses ..)

namespace Tallies

variable {classes : List ClassVertex} {calls : List ObservedCall} {graph : ClassGraph}

/-- One more class.  The links that are there already keep their places. -/
theorem addVertex (htallies : Tallies classes calls graph) (vertex : ClassVertex) :
    Tallies (classes ++ [vertex]) calls (graph.addVertex vertex).1 := by
  refine ⟨htallies.lists.addVertex vertex, fun call hcall => ?_, ?_⟩
  · obtain ⟨hsource, htarget⟩ := htallies.namedIn call hcall
    rw [names_concat]
    split
    · exact ⟨hsource, htarget⟩
    · exact ⟨List.mem_append_left _ hsource, List.mem_append_left _ htarget⟩
  · rw [links_addVertex, htallies.links_eq]
    refine List.map_congr_left fun first hfirst => ?_
    obtain ⟨hsource, htarget⟩ := htallies.namedIn first (mem_of_mem_firstBy hfirst)
    rw [linkOf, linkOf, idxOf_names_concat hsource, idxOf_names_concat htarget]

/-- One more call that leaves its class. -/
theorem observe (htallies : Tallies classes calls graph) {call : ObservedCall}
    (hcrosses : call.Crosses) :
    Tallies (classes ++ [call.source] ++ [call.target]) (calls ++ [call]) (graph.observe call) := by
  have hsource := htallies.addVertex call.source
  have hboth := hsource.addVertex call.target
  have hknown : call.source.className ∈ names (classes ++ [call.source]) :=
    className_mem_names (List.mem_append_right _ (List.mem_singleton_self _))
  rw [observe_of_crosses hcrosses, htallies.lists.addVertex_snd, hsource.lists.addVertex_snd,
    ← idxOf_names_concat hknown call.target]
  refine ⟨hboth.lists.countCall .., fun other hother => ?_,
    links_countCall hboth.namedIn hboth.links_eq call⟩
  rcases List.mem_append.mp hother with hother | hother
  · exact hboth.namedIn other hother
  · obtain rfl := List.mem_singleton.mp hother
    exact ⟨className_mem_names (by simp), className_mem_names (by simp)⟩

/-- Many calls, of which those within one class leave no trace. -/
theorem foldl_observe (htallies : Tallies classes calls graph) (more : List ObservedCall) :
    Tallies (classes ++ mentioned (more.filter fun call => call.Crosses))
      (calls ++ more.filter fun call => call.Crosses) (more.foldl ClassGraph.observe graph) := by
  induction more generalizing classes calls graph with
  | nil =>
      rwa [List.filter_nil, mentioned, List.flatMap_nil, List.append_nil, List.append_nil]
  | cons call more ih =>
      rw [List.foldl_cons, List.filter_cons]
      by_cases hcrosses : call.Crosses
      · have hmore := ih (htallies.observe hcrosses)
        rw [if_pos (decide_eq_true hcrosses), List.append_cons calls, mentioned, List.flatMap_cons]
        rwa [List.append_assoc classes, List.append_assoc classes] at hmore
      · rw [if_neg (by simpa using hcrosses), observe_of_not_crosses hcrosses]
        exact ih htallies

/-! ## Reading the tally off the graph -/

theorem vertices_idxOf (htallies : Tallies classes calls graph) {name : String}
    (hmem : name ∈ names classes) :
    graph.vertices[(names classes).idxOf name]? = graph.vertex? name := by
  rw [vertex?, htallies.lists.places_eq, if_pos hmem]
  rfl

/-- Under a name the graph has the class that was first mentioned with it. -/
theorem vertex?_eq (htallies : Tallies classes calls graph) (name : String) :
    graph.vertex? name = classes.find? fun vertex => vertex.className = name := by
  by_cases hmem : name ∈ names classes
  · obtain ⟨vertex, hvertex⟩ : ∃ vertex,
        graph.vertices[(names classes).idxOf name]? = some vertex := by
      have hlt := List.idxOf_lt_length_of_mem hmem
      rw [← htallies.lists.size_eq] at hlt
      exact ⟨_, Array.getElem?_eq_getElem hlt⟩
    have hplace : (firstBy (·.className) classes)[(names classes).idxOf name]?
        = some vertex := by
      rw [← htallies.lists.vertices_eq, Array.getElem?_toList, hvertex]
    have hname : vertex.className = name := by
      have hnames := congrArg (Option.map ClassVertex.className) hplace
      rw [← List.getElem?_map, map_firstBy] at hnames
      exact (Option.some.inj ((List.getElem?_idxOf hmem).symm.trans hnames)).symm
    rw [← htallies.vertices_idxOf hmem, hvertex, ← hname]
    exact (mem_firstBy.mp (List.mem_of_getElem? hplace)).symm
  · rw [vertex?, htallies.lists.places_eq, if_neg hmem]
    refine (List.find?_eq_none.mpr fun vertex hvertex hname => hmem ?_).symm
    exact of_decide_eq_true hname ▸ className_mem_names hvertex

/-- Between two names the graph has what their calls amount to. -/
theorem edge?_eq (htallies : Tallies classes calls graph) (source target : String) :
    graph.edge? source target =
      (calls.find? fun call => call.ends = (source, target)).map (tally calls) := by
  cases hfind : calls.find? fun call => call.ends = (source, target) with
  | none =>
      have hnone : (firstBy ObservedCall.ends calls).findIdx?
          (fun first => first.ends = (source, target)) = none :=
        List.findIdx?_eq_none_iff.mpr fun first hfirst =>
          Bool.eq_false_iff.mpr (List.find?_eq_none.mp hfind first (mem_of_mem_firstBy hfirst))
      rw [edge?, htallies.lists.places_eq, htallies.lists.places_eq]
      by_cases hsource : source ∈ names classes
      · by_cases htarget : target ∈ names classes
        · simp [hsource, htarget, findLink?_eq htallies.namedIn htallies.links_eq, hnone]
        · simp [hsource, htarget]
      · simp [hsource]
  | some first =>
      have hends : first.ends = (source, target) := by
        have hfound := List.find?_some hfind
        exact of_decide_eq_true hfound
      obtain ⟨rfl, rfl⟩ := Prod.mk.inj hends
      have hmem : first ∈ firstBy ObservedCall.ends calls := mem_firstBy.mpr hfind
      obtain ⟨hsource, htarget⟩ := htallies.namedIn first (mem_of_mem_firstBy hmem)
      obtain ⟨place, hplace, hsame⟩ := findIdx?_firstBy hmem
      have hlink : graph.links[place]? =
          some (linkOf (names classes) calls first) := by
        rw [← Array.getElem?_toList, htallies.links_eq, List.getElem?_map, hsame]
        rfl
      have hindex : graph.findLink? ((names classes).idxOf first.source.className)
          ((names classes).idxOf first.target.className) = some place :=
        (findLink?_eq htallies.namedIn htallies.links_eq ..).trans hplace
      rw [edge?, htallies.lists.places_eq, htallies.lists.places_eq, if_pos hsource,
        if_pos htarget]
      simp only [Option.bind_eq_bind, Option.bind_some, hindex, hlink]
      rfl

theorem edges_eq (htallies : Tallies classes calls graph) :
    graph.edges = (firstBy ObservedCall.ends calls).filterMap fun first => do
      let source ← graph.vertex? first.source.className
      let target ← graph.vertex? first.target.className
      return (source, target, tally calls first) := by
  rw [edges, htallies.links_eq, List.filterMap_map]
  refine List.filterMap_congr fun first hfirst => ?_
  obtain ⟨hsource, htarget⟩ := htallies.namedIn first (mem_of_mem_firstBy hfirst)
  rw [Function.comp_apply, linkOf, htallies.vertices_idxOf hsource,
    htallies.vertices_idxOf htarget]

/-- A vertex that is found under a name is there and has the name. -/
theorem vertex?_some (htallies : Tallies classes calls graph) {name : String} {vertex : ClassVertex}
    (hvertex : graph.vertex? name = some vertex) :
    vertex ∈ graph.vertices ∧ vertex.className = name := by
  have hname : vertex.className = name := by
    rw [htallies.vertex?_eq] at hvertex
    have hfound := List.find?_some hvertex
    exact of_decide_eq_true hfound
  refine ⟨?_, hname⟩
  rw [vertex?, Option.bind_eq_bind, Option.bind_eq_some_iff] at hvertex
  obtain ⟨place, -, hplace⟩ := hvertex
  exact Array.mem_of_getElem? hplace

theorem exists_vertices (htallies : Tallies classes calls graph) {call : ObservedCall}
    (hcall : call ∈ calls) :
    ∃ source target, graph.vertex? call.source.className = some source ∧
      graph.vertex? call.target.className = some target := by
  have hfound : ∀ name ∈ names classes, ∃ vertex, graph.vertex? name = some vertex := by
    intro name hname
    obtain ⟨vertex, hvertex, rfl⟩ := List.mem_map.mp (List.mem_eraseDups.mp hname)
    rw [← Option.isSome_iff_exists, htallies.vertex?_eq, List.find?_isSome]
    exact ⟨vertex, hvertex, decide_eq_true rfl⟩
  obtain ⟨hsource, htarget⟩ := htallies.namedIn call hcall
  obtain ⟨source, hsource⟩ := hfound _ hsource
  obtain ⟨target, htarget⟩ := hfound _ htarget
  exact ⟨source, target, hsource, htarget⟩

/-- Links join vertices of the graph. -/
theorem link_lt (htallies : Tallies classes calls graph) {link : ClassLink}
    (hlink : link ∈ graph.links) :
    link.source < graph.vertices.size ∧ link.target < graph.vertices.size := by
  rw [← Array.mem_toList_iff, htallies.links_eq] at hlink
  obtain ⟨first, hfirst, rfl⟩ := List.mem_map.mp hlink
  obtain ⟨hsource, htarget⟩ := htallies.namedIn first (mem_of_mem_firstBy hfirst)
  rw [htallies.lists.size_eq]
  exact ⟨List.idxOf_lt_length_of_mem hsource, List.idxOf_lt_length_of_mem htarget⟩

/-- No link is left out of the list of edges. -/
theorem length_edges (htallies : Tallies classes calls graph) :
    graph.edges.length = graph.links.size := by
  rw [edges, ← Array.length_toList, List.filterMap_length_eq_length]
  intro link hlink
  obtain ⟨hsource, htarget⟩ := htallies.link_lt (Array.mem_toList_iff.mp hlink)
  simp [hsource, htarget]

theorem map_edges (htallies : Tallies classes calls graph) :
    graph.edges.map (fun edge => (edge.1.className, edge.2.1.className)) =
      (calls.map ObservedCall.ends).eraseDups := by
  rw [htallies.edges_eq, List.map_filterMap, ← map_firstBy, ← List.filterMap_eq_map]
  refine List.filterMap_congr fun first hfirst => ?_
  obtain ⟨source, target, hsource, htarget⟩ := htallies.exists_vertices (mem_of_mem_firstBy hfirst)
  have hsourceName := (htallies.vertex?_some hsource).2
  have htargetName := (htallies.vertex?_some htarget).2
  simp only [hsource, htarget, Option.bind_eq_bind, Option.bind_some, Option.pure_def,
    Option.map_some, hsourceName, htargetName]
  rfl

theorem mem_edges (htallies : Tallies classes calls graph) {source target : ClassVertex}
    {edge : CallEdge} (hmem : (source, target, edge) ∈ graph.edges) :
    source ∈ graph.vertices ∧ target ∈ graph.vertices ∧
      graph.edge? source.className target.className = some edge := by
  rw [htallies.edges_eq] at hmem
  obtain ⟨first, hfirst, hedge⟩ := List.mem_filterMap.mp hmem
  obtain ⟨firstSource, firstTarget, hsource, htarget⟩ :=
    htallies.exists_vertices (mem_of_mem_firstBy hfirst)
  simp only [hsource, htarget, Option.bind_eq_bind, Option.bind_some, Option.pure_def,
    Option.some.injEq, Prod.mk.injEq] at hedge
  obtain ⟨rfl, rfl, rfl⟩ := hedge
  obtain ⟨hsource, hsourceName⟩ := htallies.vertex?_some hsource
  obtain ⟨htarget, htargetName⟩ := htallies.vertex?_some htarget
  refine ⟨hsource, htarget, ?_⟩
  rw [htallies.edge?_eq, hsourceName, htargetName]
  exact congrArg (Option.map (tally calls)) (mem_firstBy.mp hfirst)

end Tallies

/-! ## The sum of the weights -/

/-- **The weights add up** to the number of calls, as long as there are fewer
than `2 ^ 53`. -/
theorem Tallies.totalWeight_eq {classes : List ClassVertex} {calls : List ObservedCall}
    {graph : ClassGraph} (htallies : Tallies classes calls graph) (hlt : calls.length < 2 ^ 53) :
    graph.totalWeight = Float.ofNat calls.length := by
  have hzero : (0.0 : Float) = Float.ofNat 0 := rfl
  have hcounts : ((firstBy ObservedCall.ends calls).map fun first =>
      countCalls calls first.ends).sum = calls.length := sum_countP_firstBy ..
  have hadd := foldl_add_ones
    ((firstBy ObservedCall.ends calls).map fun first => countCalls calls first.ends)
    0 (by rwa [hcounts, Nat.zero_add])
  rw [hcounts, Nat.zero_add, List.foldl_map] at hadd
  rw [totalWeight, ← Array.foldl_toList, htallies.links_eq, List.foldl_map, hzero]
  exact hadd

end ClassGraph

end ProgramGraphs
