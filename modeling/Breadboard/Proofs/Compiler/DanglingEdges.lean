import Breadboard.Proofs.Compiler.NodeOrder

/-!
# Dangling edges

An edge dangles when its source or its target names no node of the graph. Compiling keeps such
an edge in every lookup over the edges: it can be the first edge into a handle, and one that
leaves an output of a node counts as a data edge read from that output. A dangling edge
behaves as if it were absent only where it takes part in none of these lookups.

The comparison runs through `Graph.ReadsAlike`: two graphs with the same nodes whose edges,
looked up from any node, lead to the same nodes. Compiling gives the same result for two such
graphs (`compile_eq_of_readsAlike`): discovery and dependency ordering pass over ids that name
no node, and an argument read through an edge from a missing node falls back to the port's
own value, because every bound expression belongs to a node of the graph
(`Graph.BindsNodes`).

Main statements:

* `compile_insert_inert_edge`: inserting a dangling edge at any position leaves the compiled
  result and the sketch text as they were, provided the edge does not become the first edge
  into a handle that an edge of the graph already feeds, and does not give an output of a node
  its first data edge;
* `compile_dangling_feed_shadows`: a dangling edge placed before the edge that feeds a port
  takes that edge's place, and the call reads the port's zero value instead of its producer.
-/

namespace Breadboard

open Compiler

/-- Inserting into a list at a position within it puts the element between the two parts. -/
theorem insertIdx_eq_take_append_drop {α : Type} (a : α) :
    ∀ {l : List α} {i : Nat}, i ≤ l.length → l.insertIdx i a = l.take i ++ a :: l.drop i
  | _, 0, _ => rfl
  | [], _ + 1, h => absurd h (by simp)
  | x :: l, i + 1, h => by
    rw [List.insertIdx_succ_cons, insertIdx_eq_take_append_drop a (by simpa using h)]
    rfl

namespace Graph

/-- Whether a node of the graph carries the id. -/
def hasNode (g : Graph) (id : String) : Bool :=
  (g.find? id).isSome

/-- The graph with edge `e` inserted into its edges at position `i`. -/
def insertEdge (g : Graph) (i : Nat) (e : Edge) : Graph :=
  { g with edges := g.edges.insertIdx i e }

/-- Every output that has an expression bound to it is an output of a node of the graph. -/
def BindsNodes (g : Graph) (b : Built) : Prop :=
  ∀ nodeId portId x, b.lookup nodeId portId = some x → g.hasNode nodeId = true

/-- Two graphs with the same nodes whose edges, looked up from a node of the first, lead to the
same nodes: the first edge into a handle is the same edge when it comes from a node, the
execution successors and the producers of a node are the same ids of nodes in the same order,
and the same outputs of nodes start data edges. -/
structure ReadsAlike (g g' : Graph) : Prop where
  nodes_eq : g.nodes = g'.nodes
  feed?_eq : ∀ nodeId portId, g.hasNode nodeId = true →
    (g.feed? nodeId portId).filter (fun e => g.hasNode e.source) =
      (g'.feed? nodeId portId).filter (fun e => g.hasNode e.source)
  successors_eq : ∀ id, g.hasNode id = true →
    (g.successors id).filter g.hasNode = (g'.successors id).filter g.hasNode
  producers_eq : ∀ id, g.hasNode id = true →
    (g.producers id).filter g.hasNode = (g'.producers id).filter g.hasNode
  isRead_eq : ∀ nodeId portId, g.hasNode nodeId = true →
    g.isRead nodeId portId = g'.isRead nodeId portId
  feedsData_eq : ∀ id, g.hasNode id = true → g.feedsData id = g'.feedsData id

variable {g g' : Graph}

theorem hasNode_of_mem {n : Node} (hn : n ∈ g.nodes) : g.hasNode n.id = true :=
  Option.isSome_iff_exists.mpr
    (Option.isSome_iff_exists.mp (List.find?_isSome.mpr ⟨n, hn, by simp⟩))

theorem hasNode_of_find? {id : String} {n : Node} (h : g.find? id = some n) :
    g.hasNode n.id = true := by
  rw [(find?_spec h).2, hasNode, h]
  rfl

theorem find?_eq_none_of_hasNode {id : String} (h : g.hasNode id = false) : g.find? id = none := by
  simpa [hasNode] using h

theorem ReadsAlike.find?_eq (h : g.ReadsAlike g') (id : String) : g.find? id = g'.find? id := by
  simp only [Graph.find?, h.nodes_eq]

theorem ReadsAlike.hasNode_eq (h : g.ReadsAlike g') (id : String) : g.hasNode id = g'.hasNode id := by
  simp only [hasNode, h.find?_eq]

/-! ## Discovery passes over ids that name no node -/

section Discovery

theorem discoverFrom_nil (fuel : Nat) (visited found : List String) :
    g.discoverFrom fuel [] visited found = found.reverse := by
  cases fuel <;> rfl

/-- Popping an id that names no node at most marks it visited. -/
theorem discoverFrom_cons_of_missing {x : String} (hx : g.hasNode x = false) (k : Nat)
    (stack visited found : List String) :
    g.discoverFrom (k + 1) (x :: stack) visited found =
      g.discoverFrom k stack (if visited.contains x then visited else x :: visited) found := by
  by_cases hv : visited.contains x = true
  · simp only [discoverFrom, hv, if_true]
  · simp only [discoverFrom, hv, Bool.false_eq_true, if_false, find?_eq_none_of_hasNode hx]

theorem discoverMeasure_skip {x : String} {stack visited : List String} :
    g.discoverMeasure stack (if visited.contains x then visited else x :: visited) + 1 ≤
      g.discoverMeasure (x :: stack) visited := by
  by_cases hv : visited.contains x = true
  · simp only [hv, if_true, discoverMeasure, List.length_cons]
    omega
  · simp only [hv, Bool.false_eq_true, if_false]
    exact discoverMeasure_pop

/-- A run of discovery below its fuel with an id on its stack has fuel for one more step. -/
theorem exists_fuel_succ {x : String} {stack visited : List String} {fuel : Nat}
    (h : g.discoverMeasure (x :: stack) visited < fuel) : ∃ k, fuel = k + 1 :=
  ⟨fuel - 1, by simp only [discoverMeasure, List.length_cons] at h; omega⟩

/-- Marking an id that names no node visited changes nothing about the ids of nodes. -/
theorem contains_skip {x : String} (hx : g.hasNode x = false) {visited : List String} {id : String}
    (hid : g.hasNode id = true) :
    (if visited.contains x then visited else x :: visited).contains id = visited.contains id := by
  have hne : id ≠ x := fun h => by rw [h, hx] at hid; cases hid
  split <;> simp [hne]

/-- Two runs of discovery whose stacks hold the same ids of nodes in the same order, and whose
visited lists agree on the ids of nodes, discover the same ids, whatever ids naming no node
their stacks hold besides, as long as neither run is short of fuel. The induction is on the sum
of the two fuels: popping an id that names no node is a step of one run alone, an id of a node
is popped by both runs at once. -/
theorem discoverFrom_readsAlike (h : g.ReadsAlike g') :
    ∀ (n fuel fuel' : Nat) (stack stack' visited visited' found : List String),
      fuel + fuel' ≤ n →
      stack.filter g.hasNode = stack'.filter g.hasNode →
      (∀ id, g.hasNode id = true → visited.contains id = visited'.contains id) →
      g.discoverMeasure stack visited < fuel → g'.discoverMeasure stack' visited' < fuel' →
      g.discoverFrom fuel stack visited found = g'.discoverFrom fuel' stack' visited' found
  | 0, fuel, _, _, _, _, _, _, hn, _, _, hm, _ => by omega
  | n + 1, fuel, fuel', stack, stack', visited, visited', found, hn, hs, hv, hm, hm' => by
    have hnode := h.hasNode_eq
    -- a run whose next id names no node steps alone
    by_cases hj : ∃ x rest, stack = x :: rest ∧ g.hasNode x = false
    · obtain ⟨x, rest, rfl, hx⟩ := hj
      obtain ⟨k, rfl⟩ := exists_fuel_succ hm
      rw [discoverFrom_cons_of_missing hx]
      exact discoverFrom_readsAlike h n k fuel' rest stack' _ visited' found (by omega)
        (by simpa [hx] using hs) (fun id hid => (contains_skip hx hid).trans (hv id hid))
        (Nat.lt_of_succ_le (Nat.le_trans discoverMeasure_skip (Nat.le_of_lt_succ hm))) hm'
    by_cases hj' : ∃ x rest', stack' = x :: rest' ∧ g.hasNode x = false
    · obtain ⟨x, rest', rfl, hx⟩ := hj'
      have hx' : g'.hasNode x = false := by rw [← hnode]; exact hx
      obtain ⟨k', rfl⟩ := exists_fuel_succ hm'
      rw [discoverFrom_cons_of_missing hx']
      exact discoverFrom_readsAlike h n fuel k' stack rest' visited _ found (by omega)
        (by simpa [hx] using hs)
        (fun id hid => (hv id hid).trans (contains_skip hx' (by rw [← hnode]; exact hid)).symm)
        hm (Nat.lt_of_succ_le (Nat.le_trans discoverMeasure_skip (Nat.le_of_lt_succ hm')))
    -- otherwise both stacks are empty, or both start with the same id of a node
    push Not at hj hj'
    rcases stack with _ | ⟨x, rest⟩ <;> rcases stack' with _ | ⟨x', rest'⟩
    · rw [discoverFrom_nil, discoverFrom_nil]
    · have hx' : g.hasNode x' = true := by simpa using hj' x' rest' rfl
      simp [hx'] at hs
    · have hx : g.hasNode x = true := by simpa using hj x rest rfl
      simp [hx] at hs
    · have hx : g.hasNode x = true := by simpa using hj x rest rfl
      have hx' : g.hasNode x' = true := by simpa using hj' x' rest' rfl
      simp only [List.filter_cons, hx, hx', if_true, List.cons.injEq] at hs
      obtain ⟨rfl, hrest⟩ := hs
      obtain ⟨k, rfl⟩ := exists_fuel_succ hm
      obtain ⟨k', rfl⟩ := exists_fuel_succ hm'
      have hpop : g.discoverMeasure rest (x :: visited) + 1 ≤
          g.discoverMeasure (x :: rest) visited := discoverMeasure_pop
      have hpop' : g'.discoverMeasure rest' (x :: visited') + 1 ≤
          g'.discoverMeasure (x :: rest') visited' := discoverMeasure_pop
      by_cases hvis : visited.contains x = true
      · have hvis' : visited'.contains x = true := (hv x hx) ▸ hvis
        simp only [discoverFrom, hvis, hvis', if_true]
        exact discoverFrom_readsAlike h n k k' rest rest' visited visited' found (by omega) hrest hv
          (by simp [discoverMeasure] at hm ⊢; omega) (by simp [discoverMeasure] at hm' ⊢; omega)
      · have hvis' : visited'.contains x = false := by
          rw [← hv x hx]
          simpa using hvis
        obtain ⟨nd, hnd⟩ := Option.isSome_iff_exists.mp hx
        have hnd' : g'.find? x = some nd := by rw [← h.find?_eq]; exact hnd
        have hv' : ∀ id, g.hasNode id = true →
            (x :: visited).contains id = (x :: visited').contains id := fun id hid => by
          rw [List.contains_cons, List.contains_cons, hv id hid]
        simp only [discoverFrom, hvis, hvis', Bool.false_eq_true, if_false, hnd, hnd']
        split
        · have hvisit : g.discoverMeasure (g.successors x ++ rest) (x :: visited) + 1 =
              g.discoverMeasure (x :: rest) visited := discoverMeasure_visit (Bool.eq_false_iff.mpr hvis)
          have hvisit' : g'.discoverMeasure (g'.successors x ++ rest') (x :: visited') + 1 =
              g'.discoverMeasure (x :: rest') visited' := discoverMeasure_visit hvis'
          exact discoverFrom_readsAlike h n k k' _ _ _ _ _ (by omega)
            (by rw [List.filter_append, List.filter_append, h.successors_eq x hx, hrest]) hv'
            (by omega) (by omega)
        · exact discoverFrom_readsAlike h n k k' rest rest' _ _ found (by omega) hrest hv'
            (by omega) (by omega)

/-- Discovery only collects ids of nodes. -/
theorem hasNode_of_mem_discoverFrom :
    ∀ (fuel : Nat) (stack visited found : List String), (∀ x ∈ found, g.hasNode x = true) →
      ∀ x ∈ g.discoverFrom fuel stack visited found, g.hasNode x = true
  | 0, _, _, found, hf => by simpa [discoverFrom] using hf
  | _ + 1, [], _, found, hf => by simpa [discoverFrom] using hf
  | fuel + 1, id :: stack, visited, found, hf => by
    simp only [discoverFrom]
    split
    · exact hasNode_of_mem_discoverFrom fuel stack visited found hf
    · rcases hfind : g.find? id with _ | n
      · exact hasNode_of_mem_discoverFrom fuel stack _ found hf
      · dsimp only
        split
        · refine hasNode_of_mem_discoverFrom fuel _ _ _ fun x hx => ?_
          rcases List.mem_cons.mp hx with rfl | hx
          · simp [hasNode, hfind]
          · exact hf x hx
        · exact hasNode_of_mem_discoverFrom fuel stack _ found hf

theorem discover_readsAlike (h : g.ReadsAlike g') {entry : String} (he : g.hasNode entry = true) :
    g.discover entry = g'.discover entry :=
  discoverFrom_readsAlike h _ _ _ _ _ [] [] [] (Nat.le_refl _) (h.successors_eq entry he)
    (fun _ _ => rfl) (discoverMeasure_start entry) (discoverMeasure_start entry)

end Discovery

/-! ## Ordering looks only at producers that are members -/

section Ordering

/-- Producers that are members are ids of nodes, so filtering by either keeps them. -/
theorem filter_members_eq {members : List String} (hm : ∀ m ∈ members, g.hasNode m = true)
    (l : List String) : l.filter members.contains = (l.filter g.hasNode).filter members.contains := by
  rw [List.filter_filter]
  apply List.filter_congr
  intro x _
  cases hx : members.contains x
  · simp
  · simp [hm x (by simpa using hx)]

theorem place_readsAlike (h : g.ReadsAlike g') {members : List String}
    (hm : ∀ m ∈ members, g.hasNode m = true) :
    ∀ (fuel : Nat) (id : String) (st : List String × List String), id ∈ members →
      g.place members fuel id st = g'.place members fuel id st
  | 0, _, _, _ => rfl
  | fuel + 1, id, (placed, ordered), hid => by
    have hprod : (g.producers id).filter members.contains =
        (g'.producers id).filter members.contains := by
      rw [filter_members_eq hm (g.producers id), filter_members_eq hm (g'.producers id),
        h.producers_eq id (hm id hid)]
    -- only members are placed, and the two graphs place each member alike
    have hfold : (g.producers id).foldl
          (fun st src => if members.contains src then g.place members fuel src st else st)
          (id :: placed, ordered) =
        (g'.producers id).foldl
          (fun st src => if members.contains src then g'.place members fuel src st else st)
          (id :: placed, ordered) := by
      rw [← List.foldl_filter, ← List.foldl_filter, hprod]
      exact foldl_congr_of_inv (P := fun _ => True) trivial fun src hsrc c _ =>
        ⟨place_readsAlike h hm fuel src c (by simpa using (List.mem_filter.mp hsrc).2), trivial⟩
    simp only [Graph.place, hfold]

theorem dependencyOrder_readsAlike (h : g.ReadsAlike g') {ids : List String}
    (hm : ∀ m ∈ ids, g.hasNode m = true) : g.dependencyOrder ids = g'.dependencyOrder ids := by
  unfold dependencyOrder
  rw [foldl_congr_of_inv (P := fun _ => True) trivial fun id hid st _ =>
    ⟨place_readsAlike h hm _ id st hid, trivial⟩]

theorem procedure_readsAlike (h : g.ReadsAlike g') {entry : String} (he : g.hasNode entry = true) :
    g.procedure entry = g'.procedure entry := by
  unfold procedure
  rw [← discover_readsAlike h he]
  exact dependencyOrder_readsAlike h
    (hasNode_of_mem_discoverFrom _ _ _ _ fun _ hx => absurd hx List.not_mem_nil)

theorem hasNode_of_entryPoint {kind : NodeKind} {conventional id : String}
    (h : g.entryPoint kind conventional = some id) : g.hasNode id = true := by
  simp only [entryPoint] at h
  split at h
  · rename_i n hn
    cases h
    exact hasNode_of_mem (List.mem_filter.mp (List.mem_of_find?_eq_some hn)).1
  · obtain ⟨n, hn, rfl⟩ := Option.map_eq_some_iff.mp h
    exact hasNode_of_mem (List.mem_filter.mp (List.mem_of_mem_head? hn)).1

theorem entryPoint_readsAlike (h : g.ReadsAlike g') (kind : NodeKind) (conventional : String) :
    g.entryPoint kind conventional = g'.entryPoint kind conventional := by
  simp only [entryPoint, h.nodes_eq]

/-- The statement ids of the procedure of an entry kind are the same in both graphs. -/
theorem procedureIds_readsAlike (h : g.ReadsAlike g') (kind : NodeKind) (conventional : String) :
    ((g.entryPoint kind conventional).map g.procedure).getD [] =
      ((g'.entryPoint kind conventional).map g'.procedure).getD [] := by
  rw [← entryPoint_readsAlike h]
  rcases he : g.entryPoint kind conventional with _ | entry
  · simp
  · simp [procedure_readsAlike h (hasNode_of_entryPoint he)]

end Ordering

/-! ## Expressions read the same in both graphs -/

section Expressions

theorem BindsNodes.of_bound {b b' : Built} (hb : g.BindsNodes b) (h : b'.bound = b.bound) :
    g.BindsNodes b' := by
  intro k p x hx
  exact hb k p x (by rw [Built.lookup, h] at hx; exact hx)

theorem BindsNodes.bind {b : Built} {k p x : String} (hb : g.BindsNodes b)
    (hk : g.hasNode k = true) : g.BindsNodes (b.bind k p x) := by
  intro k' p' x' hx'
  by_cases hkp : (k', p') = (k, p)
  · obtain ⟨rfl, rfl⟩ := Prod.mk.inj hkp
    exact hk
  · rw [Built.lookup_bind_of_ne hkp] at hx'
    exact hb k' p' x' hx'

theorem bindsNodes_empty : g.BindsNodes {} := by
  intro k p x hx
  simp [Built.lookup] at hx

theorem ReadsAlike.bindsNodes (h : g.ReadsAlike g') {b : Built} (hb : g.BindsNodes b) :
    g'.BindsNodes b :=
  fun k p x hx => (h.hasNode_eq k) ▸ hb k p x hx

variable {node : Node} {path : List String} {b : Built}
  {rebuild rebuild' : Node → Call → Built → Option (String × Built)}

theorem bound_argument (hr : ∀ src sc b r, rebuild src sc b = some r → r.2.bound = b.bound)
    (b : Built) (p : Port) : (argument g node path rebuild b p).2.bound = b.bound := by
  unfold argument
  -- every branch answers with `b` itself, but a rebuild
  rcases g.feed? node.id p.id with _ | e
  · rfl
  · dsimp only
    rcases b.lookup e.source e.sourceHandle with _ | x
    · rcases g.find? e.source with _ | src
      · rfl
      · dsimp only
        rcases src.kind with _ | _ | sc | v
        · rfl
        · rfl
        · dsimp only
          split
          · rfl
          · rcases hre : rebuild src sc b with _ | r
            · rfl
            · exact hr src sc b r hre
        · rfl
    · rfl

theorem bound_arguments (hr : ∀ src sc b r, rebuild src sc b = some r → r.2.bound = b.bound) :
    ∀ (b : Built) (ps : List Port), (arguments g node path rebuild b ps).2.bound = b.bound
  | _, [] => rfl
  | b, p :: ps => by
    simp only [arguments]
    rw [bound_arguments hr _ ps, bound_argument hr b p]

/-- Rebuilding an expression binds nothing. -/
theorem bound_callText :
    ∀ (fuel : Nat) (node : Node) (c : Call) (path : List String) (b : Built),
      (callText g fuel node c path b).2.bound = b.bound
  | 0, node, c, path, b => by
    rw [callText_zero]
    simp only [callWith]
    rw [bound_arguments (fun _ _ _ _ hr => by cases hr), Built.bound_noteInclude]
  | k + 1, node, c, path, b => by
    rw [callText_succ]
    simp only [callWith]
    rw [bound_arguments (fun src sc b r hr => by cases hr; exact bound_callText k src sc _ b),
      Built.bound_noteInclude]

/-- An argument read through an edge from a missing node is the port's own value, since no
expression is bound to an output of such a node. -/
theorem argument_of_feed_missing (hb : g.BindsNodes b) {p : Port} {e : Edge}
    (hf : g.feed? node.id p.id = some e) (hs : g.hasNode e.source = false) :
    argument g node path rebuild b p = (fallbackArgument p, b) := by
  have hlook : b.lookup e.source e.sourceHandle = none := by
    rcases hl : b.lookup e.source e.sourceHandle with _ | x
    · rfl
    · exact absurd (hb _ _ _ hl) (by simp [hs])
  simp only [argument, hf, hlook, find?_eq_none_of_hasNode hs]

theorem argument_of_filter_none (hb : g.BindsNodes b) {p : Port}
    (hf : (g.feed? node.id p.id).filter (fun e => g.hasNode e.source) = none) :
    argument g node path rebuild b p = (fallbackArgument p, b) := by
  rcases hfe : g.feed? node.id p.id with _ | e
  · simp only [argument, hfe]
  · rw [hfe, Option.filter_some] at hf
    exact argument_of_feed_missing hb hfe (by simpa using hf)

/-- Reading a port of a node in two graphs that read alike gives the same argument. -/
theorem argument_readsAlike (h : g.ReadsAlike g') (hb : g.BindsNodes b)
    (hn : g.hasNode node.id = true) (p : Port) :
    argument g node path rebuild b p = argument g' node path rebuild b p := by
  have hfeed := h.feed?_eq node.id p.id hn
  have hsrc : (fun e : Edge => g.hasNode e.source) = fun e => g'.hasNode e.source :=
    funext fun e => h.hasNode_eq e.source
  by_cases hnone : (g.feed? node.id p.id).filter (fun e => g.hasNode e.source) = none
  · rw [argument_of_filter_none hb hnone, argument_of_filter_none (h.bindsNodes hb)]
    rw [← hsrc, ← hfeed]
    exact hnone
  · -- both graphs feed the port by the same edge, from a node
    obtain ⟨e, he⟩ := Option.ne_none_iff_exists'.mp hnone
    obtain ⟨hf, -⟩ := Option.filter_eq_some_iff.mp he
    obtain ⟨hf', -⟩ := Option.filter_eq_some_iff.mp (hfeed ▸ he)
    simp only [argument, hf, hf', h.find?_eq]

/-- An argument only asks to rebuild calls of nodes of the graph, with the expressions bound so
far. -/
theorem argument_eq_of_rebuild
    (hr : ∀ src sc, g.hasNode src.id = true → rebuild src sc b = rebuild' src sc b) (p : Port) :
    argument g node path rebuild b p = argument g node path rebuild' b p := by
  unfold argument
  rcases g.feed? node.id p.id with _ | e
  · rfl
  · dsimp only
    rcases b.lookup e.source e.sourceHandle with _ | x
    · rcases hf : g.find? e.source with _ | src
      · rfl
      · dsimp only
        rcases hk : src.kind with _ | _ | sc | v
        · rfl
        · rfl
        · dsimp only
          split
          · rfl
          · rw [hr src sc (hasNode_of_find? hf)]
        · rfl
    · rfl

theorem arguments_readsAlike (h : g.ReadsAlike g') (hn : g.hasNode node.id = true)
    (hpres : ∀ src sc b r, rebuild src sc b = some r → r.2.bound = b.bound)
    (hr : ∀ src sc b, g.BindsNodes b → g.hasNode src.id = true →
      rebuild src sc b = rebuild' src sc b) :
    ∀ (b : Built) (ps : List Port), g.BindsNodes b →
      arguments g node path rebuild b ps = arguments g' node path rebuild' b ps
  | _, [], _ => rfl
  | b, p :: ps, hb => by
    have harg : argument g node path rebuild b p = argument g' node path rebuild' b p :=
      (argument_eq_of_rebuild (fun src sc hs => hr src sc b hb hs) p).trans
        (argument_readsAlike h hb hn p)
    have hb' : g.BindsNodes (argument g node path rebuild b p).2 :=
      hb.of_bound (bound_argument hpres b p)
    simp only [arguments, ← harg, arguments_readsAlike h hn hpres hr _ ps hb']

/-- Rebuilding the expression of a node gives the same text and includes in both graphs. -/
theorem callText_readsAlike (h : g.ReadsAlike g') :
    ∀ (fuel : Nat) (node : Node) (c : Call) (path : List String) (b : Built),
      g.BindsNodes b → g.hasNode node.id = true →
      callText g fuel node c path b = callText g' fuel node c path b
  | 0, node, c, path, b, hb, hn => by
    have hargs : arguments g node path (fun _ _ _ => none) (b.noteInclude c) node.inputs =
        arguments g' node path (fun _ _ _ => none) (b.noteInclude c) node.inputs :=
      arguments_readsAlike h hn (fun _ _ _ _ hr => by cases hr) (fun _ _ _ _ _ => rfl) _ _
        (hb.of_bound (Built.bound_noteInclude b c))
    rw [callText_zero, callText_zero, callWith, callWith, hargs]
  | k + 1, node, c, path, b, hb, hn => by
    have hargs : arguments g node path (fun src sc b => some (callText g k src sc (src.id :: path) b))
          (b.noteInclude c) node.inputs =
        arguments g' node path (fun src sc b => some (callText g' k src sc (src.id :: path) b))
          (b.noteInclude c) node.inputs :=
      arguments_readsAlike h hn
        (fun src sc b r hr => by cases hr; exact bound_callText k src sc _ b)
        (fun src sc b hb hs => by rw [callText_readsAlike h k src sc _ b hb hs]) _ _
        (hb.of_bound (Built.bound_noteInclude b c))
    rw [callText_succ, callText_succ, callWith, callWith, hargs]

end Expressions

end Graph

/-! ## Each phase of compiling agrees -/

namespace Compiler

open Breadboard.Graph

variable {g g' : Graph}

/-- Compiling, phase by phase: declaring the variables, the statements of `setup` and then of
`loop`, and last the calls outside both procedures. -/
theorem compile_stages (g : Graph) (o : Options) :
    compile g o =
      { includes := ((byId g).foldl
            (orphanStep g (g.nodes.length + 1)
              (((g.entryPoint .setup "setup").map g.procedure).getD [])
              (((g.entryPoint .loop "loop").map g.procedure).getD []))
            (statements g (g.nodes.length + 1)
              (((g.entryPoint .loop "loop").map g.procedure).getD [])
              (statements g (g.nodes.length + 1)
                (((g.entryPoint .setup "setup").map g.procedure).getD [])
                (declareVariables g).2).2).2).includes,
        globals := (declareVariables g).1,
        setup := (statements g (g.nodes.length + 1)
          (((g.entryPoint .setup "setup").map g.procedure).getD []) (declareVariables g).2).1,
        loop := (statements g (g.nodes.length + 1)
          (((g.entryPoint .loop "loop").map g.procedure).getD [])
          (statements g (g.nodes.length + 1)
            (((g.entryPoint .setup "setup").map g.procedure).getD [])
            (declareVariables g).2).2).1,
        expressions := ((byId g).foldl
            (orphanStep g (g.nodes.length + 1)
              (((g.entryPoint .setup "setup").map g.procedure).getD [])
              (((g.entryPoint .loop "loop").map g.procedure).getD []))
            (statements g (g.nodes.length + 1)
              (((g.entryPoint .loop "loop").map g.procedure).getD [])
              (statements g (g.nodes.length + 1)
                (((g.entryPoint .setup "setup").map g.procedure).getD [])
                (declareVariables g).2).2).2).bound,
        options := o } :=
  rfl

theorem bindsNodes_declareVariables (g : Graph) : g.BindsNodes (declareVariables g).2 := by
  unfold declareVariables
  apply List.foldlRecOn (motive := fun (st : List String × Built) => g.BindsNodes st.2)
  · exact bindsNodes_empty
  · rintro ⟨globals, b⟩ hb n hn
    unfold declareStep
    dsimp only
    rcases n.kind with _ | _ | c | v
    · exact hb
    · exact hb
    · exact hb
    · dsimp only
      split
      · exact hb
      · exact hb.bind (hasNode_of_mem (List.mem_mergeSort.mp hn))

theorem bindsNodes_callStatement {fuel : Nat} {n : Node} {c : Call} {b : Built}
    (hb : g.BindsNodes b) (hn : g.hasNode n.id = true) :
    g.BindsNodes (callStatement g fuel n c b).2 := by
  have hb' : g.BindsNodes (callText g fuel n c [n.id] b).2 :=
    hb.of_bound (bound_callText fuel n c [n.id] b)
  unfold callStatement
  rcases hct : callText g fuel n c [n.id] b with ⟨expr, b'⟩
  rw [hct] at hb'
  dsimp only
  apply List.foldlRecOn (motive := g.BindsNodes)
  · exact hb'
  · intro b'' hb'' p _
    split
    · exact hb''.bind hn
    · exact hb''

theorem statementStep_readsAlike (h : g.ReadsAlike g') (fuel : Nat) (acc : List String × Built)
    (id : String) (hb : g.BindsNodes acc.2) :
    statementStep g fuel acc id = statementStep g' fuel acc id ∧
      g.BindsNodes (statementStep g fuel acc id).2 := by
  obtain ⟨out, b⟩ := acc
  unfold statementStep
  rw [← h.find?_eq id]
  rcases hf : g.find? id with _ | n
  · exact ⟨rfl, hb⟩
  · have hn := hasNode_of_find? hf
    dsimp only
    rcases n.kind with _ | _ | c | v
    · exact ⟨rfl, hb⟩
    · exact ⟨rfl, hb⟩
    · have hread : ∀ portId, g.isRead n.id portId = g'.isRead n.id portId :=
        fun portId => h.isRead_eq n.id portId hn
      have hcall : callStatement g fuel n c b = callStatement g' fuel n c b := by
        simp only [callStatement, callText_readsAlike h fuel n c [n.id] b hb hn, hread]
      dsimp only
      rw [← hcall]
      exact ⟨rfl, bindsNodes_callStatement hb hn⟩
    · dsimp only
      split
      · exact ⟨rfl, hb⟩
      · exact ⟨rfl, hb⟩

theorem statements_readsAlike (h : g.ReadsAlike g') (fuel : Nat) (ids : List String) {b : Built}
    (hb : g.BindsNodes b) :
    statements g fuel ids b = statements g' fuel ids b ∧
      g.BindsNodes (statements g fuel ids b).2 := by
  refine ⟨foldl_congr_of_inv (P := fun acc => g.BindsNodes acc.2) hb
    fun id _ acc hacc => statementStep_readsAlike h fuel acc id hacc, ?_⟩
  apply List.foldlRecOn (motive := fun (acc : List String × Built) => g.BindsNodes acc.2)
  · exact hb
  · intro acc hacc id _
    exact (statementStep_readsAlike h fuel acc id hacc).2

theorem orphanStep_readsAlike (h : g.ReadsAlike g') (fuel : Nat) (setupIds loopIds : List String)
    {b : Built} (hb : g.BindsNodes b) {n : Node} (hn : n ∈ g.nodes) :
    orphanStep g fuel setupIds loopIds b n = orphanStep g' fuel setupIds loopIds b n ∧
      g.BindsNodes (orphanStep g fuel setupIds loopIds b n) := by
  have hid := hasNode_of_mem hn
  unfold orphanStep
  rcases n.kind with _ | _ | c | v
  · exact ⟨rfl, hb⟩
  · exact ⟨rfl, hb⟩
  · dsimp only
    rw [← h.feedsData_eq n.id hid, ← callText_readsAlike h fuel n c [n.id] b hb hid]
    split
    · exact ⟨rfl, hb⟩
    · refine ⟨rfl, ?_⟩
      have hb' : g.BindsNodes (callText g fuel n c [n.id] b).2 :=
    hb.of_bound (bound_callText fuel n c [n.id] b)
      rcases hct : callText g fuel n c [n.id] b with ⟨expr, b'⟩
      rw [hct] at hb'
      exact hb'.bind hid
  · exact ⟨rfl, hb⟩

theorem orphans_readsAlike (h : g.ReadsAlike g') (fuel : Nat) (setupIds loopIds : List String)
    {b : Built} (hb : g.BindsNodes b) :
    (byId g).foldl (orphanStep g fuel setupIds loopIds) b =
      (byId g).foldl (orphanStep g' fuel setupIds loopIds) b :=
  foldl_congr_of_inv (P := g.BindsNodes) hb fun _ hn _ hc =>
    orphanStep_readsAlike h fuel setupIds loopIds hc (List.mem_mergeSort.mp hn)

/-- **Compiling reads a graph only through what `ReadsAlike` keeps.** Two graphs with the same
nodes whose edges lead to the same nodes compile to the same result. -/
theorem compile_eq_of_readsAlike (h : g.ReadsAlike g') (o : Options) : compile g o = compile g' o := by
  have hby : byId g = byId g' := by simp only [byId, h.nodes_eq]
  have hdecl : declareVariables g = declareVariables g' := by simp only [declareVariables, hby]
  have hfuel : g.nodes.length + 1 = g'.nodes.length + 1 := by rw [h.nodes_eq]
  have hsetup := procedureIds_readsAlike h .setup "setup"
  have hloop := procedureIds_readsAlike h .loop "loop"
  obtain ⟨h₁, hb₁⟩ := statements_readsAlike h (g.nodes.length + 1)
    (((g.entryPoint .setup "setup").map g.procedure).getD []) (bindsNodes_declareVariables g)
  obtain ⟨h₂, hb₂⟩ := statements_readsAlike h (g.nodes.length + 1)
    (((g.entryPoint .loop "loop").map g.procedure).getD []) hb₁
  have h₃ := orphans_readsAlike h (g.nodes.length + 1)
    (((g.entryPoint .setup "setup").map g.procedure).getD [])
    (((g.entryPoint .loop "loop").map g.procedure).getD []) hb₂
  rw [compile_stages g o, compile_stages g' o, ← hfuel, ← hsetup, ← hloop, ← hdecl, ← h₁, ← h₂,
    ← hby, ← h₃]

end Compiler

/-! ## Inserting a dangling edge -/

namespace Graph

/-- An edge that dangles and that, inserted into the edges of `g` at position `i`, neither
becomes the first edge into a handle of a node that an edge of `g` already feeds, nor starts the
first data edge from an output of a node. -/
structure InertEdge (g : Graph) (i : Nat) (e : Edge) : Prop where
  dangling : g.hasNode e.source = false ∨ g.hasNode e.target = false
  unshadowing : g.hasNode e.target = false ∨ g.feed? e.target e.targetHandle = none ∨
    ∃ e' ∈ g.edges.take i, e'.target = e.target ∧ e'.targetHandle = e.targetHandle
  unread : g.hasNode e.source = false ∨ e.kind = .execution ∨
    g.isRead e.source e.sourceHandle = true

variable {g : Graph} {i : Nat} {e : Edge}

theorem insertEdge_edges (hi : i ≤ g.edges.length) :
    (g.insertEdge i e).edges = g.edges.take i ++ e :: g.edges.drop i :=
  insertIdx_eq_take_append_drop e hi

theorem feedsData_of_isRead {nodeId portId : String} (h : g.isRead nodeId portId = true) :
    g.feedsData nodeId = true := by
  obtain ⟨e, he, hp⟩ := List.any_eq_true.mp h
  exact List.any_eq_true.mpr ⟨e, he, by simp_all⟩

/-- An inserted edge from a node leads to a missing node. -/
theorem InertEdge.target_missing (h : g.InertEdge i e) (hs : g.hasNode e.source = true) :
    g.hasNode e.target = false := by
  rcases h.dangling with h | h
  · rw [hs] at h
    cases h
  · exact h

/-- An inserted edge into a node comes from a missing node. -/
theorem InertEdge.source_missing (h : g.InertEdge i e) (ht : g.hasNode e.target = true) :
    g.hasNode e.source = false := by
  rcases h.dangling with h | h
  · exact h
  · rw [ht] at h
    cases h

/-- An inserted data edge from an output of a node leaves an output that is read already. -/
theorem InertEdge.isRead (h : g.InertEdge i e) (hs : g.hasNode e.source = true)
    (hk : e.kind = .data) : g.isRead e.source e.sourceHandle = true := by
  rcases h.unread with h | h | h
  · rw [hs] at h
    cases h
  · rw [hk] at h
    cases h
  · exact h

theorem readsAlike_insertEdge (hi : i ≤ g.edges.length) (h : g.InertEdge i e) :
    g.ReadsAlike (g.insertEdge i e) where
  nodes_eq := rfl
  feed?_eq nodeId portId hn := by
    simp only [Graph.feed?, insertEdge_edges hi, List.find?_append, List.find?_cons]
    conv_lhs => rw [← List.take_append_drop i g.edges, List.find?_append]
    by_cases hp : (e.target == nodeId && e.targetHandle == portId) = true
    · -- the inserted edge leads into this very handle, so it comes from a missing node
      have ht : e.target = nodeId ∧ e.targetHandle = portId := by simpa using hp
      have hs := h.source_missing (ht.1 ▸ hn)
      rcases h.unshadowing with hmiss | hnone | ⟨e', he', hkey⟩
      · rw [ht.1, hn] at hmiss
        cases hmiss
      · rw [ht.1, ht.2, Graph.feed?, ← List.take_append_drop i g.edges, List.find?_append,
          Option.or_eq_none_iff] at hnone
        simp [hp, hnone.1, hnone.2, Option.filter_some, hs]
      · -- an earlier edge into the same handle is found first in both lists
        obtain ⟨x, hx⟩ : ∃ x, (g.edges.take i).find?
            (fun e => e.target == nodeId && e.targetHandle == portId) = some x :=
          Option.isSome_iff_exists.mp (List.find?_isSome.mpr ⟨e', he', by simp [hkey, ht]⟩)
        simp [hx]
    · simp [hp]
  successors_eq id hid := by
    simp only [Graph.successors, insertEdge_edges hi, List.filterMap_append, List.filterMap_cons,
      List.filter_append]
    conv_lhs => rw [← List.take_append_drop i g.edges, List.filterMap_append, List.filter_append]
    by_cases hp : (e.kind == .execution && e.source == id) = true
    · -- an execution edge from this node leads to a missing node
      have hs : e.source = id := by simp_all
      have ht := h.target_missing (hs ▸ hid)
      simp [hp, ht]
    · simp [hp]
  producers_eq id hid := by
    simp only [Graph.producers, insertEdge_edges hi, List.filterMap_append, List.filterMap_cons,
      List.filter_append]
    conv_lhs => rw [← List.take_append_drop i g.edges, List.filterMap_append, List.filter_append]
    by_cases hp : (e.targetHandle != execIn && e.target == id) = true
    · -- an edge into this node comes from a missing node
      have ht : e.target = id := by simp_all
      have hs := h.source_missing (ht ▸ hid)
      simp [hp, hs]
    · simp [hp]
  isRead_eq nodeId portId hn := by
    have hsplit : g.edges = g.edges.take i ++ g.edges.drop i := (List.take_append_drop i g.edges).symm
    simp only [Graph.isRead, insertEdge_edges hi, List.any_append, List.any_cons]
    conv_lhs => rw [hsplit, List.any_append]
    by_cases hp : (e.kind == .data && e.source == nodeId && e.sourceHandle == portId) = true
    · -- a data edge from this output: the output is read in `g` already
      have hk : e.kind = .data ∧ e.source = nodeId ∧ e.sourceHandle = portId := by
        simp only [Bool.and_eq_true, beq_iff_eq] at hp
        exact ⟨hp.1.1, hp.1.2, hp.2⟩
      have hread := h.isRead (hk.2.1 ▸ hn) hk.1
      rw [hk.2.1, hk.2.2, Graph.isRead, hsplit, List.any_append] at hread
      simp [hp, hread]
    · simp [hp]
  feedsData_eq id hid := by
    have hsplit : g.edges = g.edges.take i ++ g.edges.drop i := (List.take_append_drop i g.edges).symm
    simp only [Graph.feedsData, insertEdge_edges hi, List.any_append, List.any_cons]
    conv_lhs => rw [hsplit, List.any_append]
    by_cases hp : (e.kind == .data && e.source == id) = true
    · have hk : e.kind = .data ∧ e.source = id := by simpa using hp
      have hfeeds := feedsData_of_isRead (h.isRead (hk.2 ▸ hid) hk.1)
      rw [hk.2, Graph.feedsData, hsplit, List.any_append] at hfeeds
      simp [hp, hfeeds]
    · simp [hp]

end Graph

namespace Compiler

open Breadboard.Graph

/-- **A dangling edge that takes part in no lookup behaves as if absent.** Inserting, at any
position, an edge whose source or target names no node leaves the compiled result (includes,
globals, both procedures and the expression table) and the sketch text as they were, provided
the edge neither becomes the first edge into a handle of a node that an edge already feeds nor
starts the first data edge from an output of a node. -/
theorem compile_insert_inert_edge {g : Graph} {i : Nat} {e : Edge} (hi : i ≤ g.edges.length)
    (h : g.InertEdge i e) (o : Options) :
    compile (g.insertEdge i e) o = compile g o ∧
      (compile (g.insertEdge i e) o).source = (compile g o).source := by
  have heq : compile (g.insertEdge i e) o = compile g o :=
    (compile_eq_of_readsAlike (readsAlike_insertEdge hi h) o).symm
  exact ⟨heq, congrArg Compiled.source heq⟩

/-- A `loop` that runs `blink`, whose input has the literal `7`, and an execution edge into a
node that does not exist. -/
def blinkGraph : Graph where
  nodes := [Node.setupEntry, Node.loopEntry,
    { id := "p", inputs := [⟨"input-0", "arg0", .int, some "7", false⟩],
      kind := .call ⟨"blink", "", none⟩ }]
  edges := [Edge.exec "loop" "ghost", Edge.exec "loop" "p"]

/-- A data edge from a missing node into the input of `blink`, appended last, is ignored. -/
theorem compile_insert_inert_edge_blink :
    2 ≤ blinkGraph.edges.length ∧ blinkGraph.InertEdge 2 ⟨"missing", "output", "p", "input-0"⟩ ∧
      compile (blinkGraph.insertEdge 2 ⟨"missing", "output", "p", "input-0"⟩) = compile blinkGraph ∧
      (compile (blinkGraph.insertEdge 2 ⟨"missing", "output", "p", "input-0"⟩)).source =
        (compile blinkGraph).source :=
  have hi : 2 ≤ blinkGraph.edges.length := by decide
  have h : blinkGraph.InertEdge 2 ⟨"missing", "output", "p", "input-0"⟩ :=
    ⟨Or.inl (by decide), Or.inr (Or.inl (by decide)), Or.inl (by decide)⟩
  ⟨hi, h, compile_insert_inert_edge hi h {}⟩

/-- A call `f` in `setup` whose input reads the result of a call `h` outside both procedures,
with the nodes in id order. -/
def feedGraph : Graph where
  nodes := [{ id := "f", inputs := [⟨"a", "a", .int, none, false⟩], kind := .call ⟨"f", "", none⟩ },
    { id := "h", outputs := [⟨"out", "out", .int, none, false⟩], kind := .call ⟨"h", "", none⟩ },
    Node.setupEntry]
  edges := [Edge.exec "setup" "f", ⟨"h", "out", "f", "a"⟩]

/-- An edge from a node that does not exist into the input of `f`. -/
def ghostFeed : Edge := ⟨"ghost", "out", "f", "a"⟩

/-- A dangling edge placed first takes the place of the edge that feeds `f`: `f` then reads
the zero value of its port instead of the result of `h`. -/
theorem compile_dangling_feed_shadows :
    feedGraph.hasNode ghostFeed.source = false ∧
      (compile feedGraph).setup = ["f(h());"] ∧
      (compile (feedGraph.insertEdge 0 ghostFeed)).setup = ["f(0);"] := by
  -- sorting by id is the only step that evaluation cannot run, and the nodes are sorted
  have hby : byId feedGraph = feedGraph.nodes :=
    byId_eq_of_perm_of_sorted (by decide) (List.Perm.refl _) (by decide)
  have hby' : byId (feedGraph.insertEdge 0 ghostFeed) = feedGraph.nodes := hby
  refine ⟨by decide, ?_, ?_⟩
  · rw [compile_stages]
    simp only [declareVariables, hby]
    decide
  · rw [compile_stages]
    simp only [declareVariables, hby']
    decide

end Compiler

end Breadboard
