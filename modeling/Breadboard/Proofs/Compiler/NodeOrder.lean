import Mathlib.Data.List.Find
import Mathlib.Data.String.Basic
import Breadboard.Proofs.Compiler.Unfolding

/-!
# Node order: what compiling reads of it

Compiling looks at a graph through its edges, through the first node carrying an id, through
the nodes sorted by id, through the number of nodes, and through the entry points. With
distinct ids the first four do not change when the nodes are listed in another order. The
entry point of a kind does not change either when a node of that kind carries the
conventional id, or when there is at most one node of that kind; otherwise the first one
listed is taken, and reordering the nodes can change the sketch.

Main statements: `compile_node_order_irrelevant` (with distinct ids and unambiguous entry
points, every reordering of the nodes compiles to the same result and the same text) and
`compile_two_setups_order_matters` (two `setup` entry points, neither with the conventional
id, give different sketches in the two orders).
-/

namespace Breadboard

open Compiler

namespace Graph

/-! ## Graphs that look the same to the compiler -/

section Lookups

/-- Two graphs with the same edges and the same first node for every id. -/
structure SameLookups (g g' : Graph) : Prop where
  edges_eq : g.edges = g'.edges
  find?_eq : ∀ id, g.find? id = g'.find? id

variable {g g' : Graph}

theorem SameLookups.feed? (h : g.SameLookups g') : g.feed? = g'.feed? := by
  funext nodeId portId
  simp only [Graph.feed?, h.edges_eq]

theorem SameLookups.successors (h : g.SameLookups g') : g.successors = g'.successors := by
  funext id
  simp only [Graph.successors, h.edges_eq]

theorem SameLookups.producers (h : g.SameLookups g') : g.producers = g'.producers := by
  funext id
  simp only [Graph.producers, h.edges_eq]

theorem SameLookups.isRead (h : g.SameLookups g') : g.isRead = g'.isRead := by
  funext nodeId portId
  simp only [Graph.isRead, h.edges_eq]

theorem SameLookups.feedsData (h : g.SameLookups g') : g.feedsData = g'.feedsData := by
  funext id
  simp only [Graph.feedsData, h.edges_eq]

theorem SameLookups.discoverFrom (h : g.SameLookups g') :
    ∀ (fuel : Nat) (stack visited found : List String),
      g.discoverFrom fuel stack visited found = g'.discoverFrom fuel stack visited found
  | 0, _, _, _ => rfl
  | _ + 1, [], _, _ => rfl
  | fuel + 1, id :: stack, visited, found => by
    simp only [Graph.discoverFrom, h.find?_eq, h.successors, h.discoverFrom fuel]

theorem SameLookups.place (h : g.SameLookups g') (members : List String) :
    ∀ (fuel : Nat) (id : String) (st : List String × List String),
      g.place members fuel id st = g'.place members fuel id st
  | 0, _, _ => rfl
  | fuel + 1, id, (placed, ordered) => by
    simp only [Graph.place, h.producers, h.place members fuel]

theorem SameLookups.procedure (h : g.SameLookups g') : g.procedure = g'.procedure := by
  funext entry
  simp only [Graph.procedure, Graph.dependencyOrder, Graph.discover, h.discoverFrom, h.successors,
    h.edges_eq, h.place]

theorem SameLookups.argument (h : g.SameLookups g') (node : Node) (path : List String)
    (rebuild : Node → Call → Built → Option (String × Built)) (b : Built) (p : Port) :
    argument g node path rebuild b p = argument g' node path rebuild b p := by
  simp only [Compiler.argument, h.feed?, h.find?_eq]

theorem SameLookups.arguments (h : g.SameLookups g') (node : Node) (path : List String)
    (rebuild : Node → Call → Built → Option (String × Built)) :
    ∀ (b : Built) (ps : List Port),
      arguments g node path rebuild b ps = arguments g' node path rebuild b ps
  | _, [] => rfl
  | b, p :: ps => by
    simp only [Compiler.arguments, h.argument, h.arguments node path rebuild _ ps]

theorem SameLookups.callText (h : g.SameLookups g') :
    ∀ (fuel : Nat) (node : Node) (c : Call) (path : List String) (b : Built),
      callText g fuel node c path b = callText g' fuel node c path b
  | 0, node, c, path, b => by
    simp only [callText_zero, callWith, h.arguments]
  | k + 1, node, c, path, b => by
    simp only [callText_succ, callWith, h.arguments, h.callText k]

theorem SameLookups.statements (h : g.SameLookups g') (fuel : Nat) :
    statements g fuel = statements g' fuel := by
  have hstep : statementStep g fuel = statementStep g' fuel := by
    funext acc id
    simp only [statementStep, callStatement, h.find?_eq, h.callText, h.isRead]
  funext ids b
  simp only [Compiler.statements, hstep]

theorem SameLookups.orphanStep (h : g.SameLookups g') (fuel : Nat) :
    orphanStep g fuel = orphanStep g' fuel := by
  funext setupIds loopIds b n
  simp only [Compiler.orphanStep, h.feedsData, h.callText]

end Lookups

/-! ## Reordering the nodes -/

/-- The entry point of a kind is fixed by the nodes as a set: a node of that kind carries the
conventional id, or there is at most one node of that kind. -/
def EntryUnambiguous (g : Graph) (kind : NodeKind) (conventional : String) : Prop :=
  (∃ n ∈ g.nodes, n.kind = kind ∧ n.id = conventional) ∨
    (g.nodes.filter (·.kind == kind)).length ≤ 1

section Reorder

variable {g : Graph} {ns : List Node}

theorem NodupIds.perm (hp : ns.Perm g.nodes) (hd : g.NodupIds) :
    NodupIds { g with nodes := ns } :=
  (hp.map Node.id).nodup_iff.mpr hd

/-- With distinct ids, a node of any reordering is determined by its id. -/
theorem eq_of_id_eq_of_perm (hp : ns.Perm g.nodes) (hd : g.NodupIds) {a b : Node} (ha : a ∈ ns)
    (hb : b ∈ ns) (h : a.id = b.id) : a = b :=
  List.inj_on_of_nodup_map (NodupIds.perm hp hd) ha hb h

/-- Among nodes of a reordering, at most one carries a given id. -/
theorem subsingleton_id_of_perm (hp : ns.Perm g.nodes) (hd : g.NodupIds) {l : List Node}
    (hl : l ⊆ ns) (id : String) : {x ∈ l | x.id == id}.Subsingleton := by
  rintro a ⟨ha, hida⟩ b ⟨hb, hidb⟩
  rw [beq_iff_eq] at hida hidb
  exact eq_of_id_eq_of_perm hp hd (hl ha) (hl hb) (hida.trans hidb.symm)

theorem find?_perm (hp : ns.Perm g.nodes) (hd : g.NodupIds) (id : String) :
    Graph.find? { g with nodes := ns } id = g.find? id :=
  List.find?_eq_find?_of_perm hp (subsingleton_id_of_perm hp hd (List.Subset.refl ns) id)

theorem sameLookups_perm (hp : ns.Perm g.nodes) (hd : g.NodupIds) :
    SameLookups { g with nodes := ns } g :=
  ⟨rfl, find?_perm hp hd⟩

theorem byId_sorted (g : Graph) : (byId g).Pairwise fun a b => a.id ≤ b.id := by
  have h : (byId g).Pairwise fun a b => decide (a.id ≤ b.id) = true :=
    List.pairwise_mergeSort
      (fun a b c hab hbc => by
        rw [decide_eq_true_eq] at hab hbc ⊢
        exact le_trans hab hbc)
      (fun a b => by simpa using le_total a.id b.id) g.nodes
  simpa using h

/-- With distinct ids, sorting by id leaves one possible order. -/
theorem byId_eq_of_perm_of_sorted (hd : g.NodupIds) {l : List Node} (hp : l.Perm g.nodes)
    (hs : l.Pairwise fun a b => a.id ≤ b.id) : byId g = l := by
  have hperm : (byId g).Perm l := (List.mergeSort_perm _ _).trans hp.symm
  refine List.Perm.eq_of_pairwise ?_ (byId_sorted g) hs hperm
  intro a b ha hb hab hba
  have ha' : a ∈ g.nodes := (List.mergeSort_perm _ _).subset ha
  exact List.inj_on_of_nodup_map hd ha' (hp.subset hb) (le_antisymm hab hba)

theorem byId_perm (hp : ns.Perm g.nodes) (hd : g.NodupIds) : byId { g with nodes := ns } = byId g :=
  byId_eq_of_perm_of_sorted (NodupIds.perm hp hd) ((List.mergeSort_perm _ _).trans hp.symm)
    (byId_sorted g)

/-- Lists of at most one element are equal once they are reorderings of each other. -/
theorem eq_of_perm_of_length_le_one {α : Type} {l l' : List α} (hp : l.Perm l')
    (h : l'.length ≤ 1) : l = l' := by
  match l', h with
  | [], _ => exact hp.eq_nil
  | [a], _ => exact List.perm_singleton.mp hp

theorem entryPoint_perm (hp : ns.Perm g.nodes) (hd : g.NodupIds) {kind : NodeKind}
    {conventional : String} (hu : g.EntryUnambiguous kind conventional) :
    Graph.entryPoint { g with nodes := ns } kind conventional = g.entryPoint kind conventional := by
  have hpf : (ns.filter (·.kind == kind)).Perm (g.nodes.filter (·.kind == kind)) := hp.filter _
  -- distinct ids leave at most one entry with the conventional id, whatever the order
  have hfind : (ns.filter (·.kind == kind)).find? (·.id == conventional) =
      (g.nodes.filter (·.kind == kind)).find? (·.id == conventional) :=
    List.find?_eq_find?_of_perm hpf
      (subsingleton_id_of_perm hp hd (List.filter_subset_self _) conventional)
  simp only [entryPoint, hfind]
  cases hf : (g.nodes.filter (·.kind == kind)).find? (·.id == conventional) with
  | some n => rfl
  | none =>
    rcases hu with ⟨n, hn, hk, hid⟩ | hle
    · -- the conventional entry is there, so the search cannot miss it
      have hmem : n ∈ g.nodes.filter (·.kind == kind) := List.mem_filter.mpr ⟨hn, by simp [hk]⟩
      exact absurd (List.find?_eq_none.mp hf n hmem) (by simp [hid])
    · rw [eq_of_perm_of_length_le_one hpf hle]

end Reorder

end Graph

namespace Compiler

open Breadboard.Graph

/-- Compiling reads a graph only through its lookups, its nodes in id order, its entry points
and its number of nodes. -/
theorem compile_eq_of_sameLookups {g g' : Graph} (h : g.SameLookups g') (hby : byId g = byId g')
    (hsetup : g.entryPoint .setup "setup" = g'.entryPoint .setup "setup")
    (hloop : g.entryPoint .loop "loop" = g'.entryPoint .loop "loop")
    (hlen : g.nodes.length = g'.nodes.length) (o : Options) :
    compile g o = compile g' o := by
  simp only [compile, declareVariables, hby, hsetup, hloop, hlen, h.procedure, h.statements,
    h.orphanStep]

/-- With distinct ids and unambiguous entry points, listing the nodes in another order compiles
to the same result, and so to the same sketch text. -/
theorem compile_node_order_irrelevant {g : Graph} {ns : List Node} (hp : ns.Perm g.nodes)
    (hd : g.NodupIds) (hsetup : g.EntryUnambiguous .setup "setup")
    (hloop : g.EntryUnambiguous .loop "loop") (o : Options) :
    compile { g with nodes := ns } o = compile g o ∧
      (compile { g with nodes := ns } o).source = (compile g o).source := by
  have h : compile { g with nodes := ns } o = compile g o :=
    compile_eq_of_sameLookups (sameLookups_perm hp hd) (byId_perm hp hd)
      (entryPoint_perm hp hd hsetup) (entryPoint_perm hp hd hloop) hp.length_eq o
  exact ⟨h, congrArg Compiled.source h⟩

/-- A sketch whose `setup` runs one call, with its nodes listed entry points first. -/
def setupCallGraph : Graph where
  nodes := [Node.setupEntry, Node.loopEntry, { id := "f", kind := .call ⟨"f", "", none⟩ }]
  edges := [Edge.exec "setup" "f"]

/-- Listing the call first changes nothing in the compiled `setupCallGraph`. -/
theorem compile_node_order_irrelevant_setupCall :
    [{ id := "f", kind := .call ⟨"f", "", none⟩ }, Node.loopEntry, Node.setupEntry].Perm
        setupCallGraph.nodes ∧
      setupCallGraph.NodupIds ∧ setupCallGraph.EntryUnambiguous .setup "setup" ∧
      setupCallGraph.EntryUnambiguous .loop "loop" ∧
      compile { setupCallGraph with
          nodes := [{ id := "f", kind := .call ⟨"f", "", none⟩ }, Node.loopEntry, Node.setupEntry] } =
        compile setupCallGraph ∧
      (compile { setupCallGraph with
          nodes := [{ id := "f", kind := .call ⟨"f", "", none⟩ }, Node.loopEntry,
            Node.setupEntry] }).source = (compile setupCallGraph).source :=
  have hp : [{ id := "f", kind := .call ⟨"f", "", none⟩ }, Node.loopEntry, Node.setupEntry].Perm
      setupCallGraph.nodes := by decide
  have hd : setupCallGraph.NodupIds := by decide
  have hs : setupCallGraph.EntryUnambiguous .setup "setup" := Or.inr (by decide)
  have hl : setupCallGraph.EntryUnambiguous .loop "loop" := Or.inr (by decide)
  ⟨hp, hd, hs, hl, compile_node_order_irrelevant hp hd hs hl {}⟩

/-- Two `setup` nodes, neither with the conventional id; only the first listed reaches a call. -/
def twoSetupsGraph : Graph where
  nodes := [{ id := "s2", kind := .setup }, { id := "s1", kind := .setup },
    { id := "f", kind := .call ⟨"f", "", none⟩ }]
  edges := [Edge.exec "s2" "f"]

/-- Without an unambiguous entry point, distinct ids do not make node order irrelevant: the
first `setup` node listed is the one that runs. -/
theorem compile_two_setups_order_matters :
    [{ id := "s1", kind := .setup }, { id := "s2", kind := .setup },
        { id := "f", kind := .call ⟨"f", "", none⟩ }].Perm twoSetupsGraph.nodes ∧
      twoSetupsGraph.NodupIds ∧
      (compile twoSetupsGraph).setup = ["f();"] ∧
      (compile { twoSetupsGraph with
          nodes := [{ id := "s1", kind := .setup }, { id := "s2", kind := .setup },
            { id := "f", kind := .call ⟨"f", "", none⟩ }] }).setup = [] :=
  ⟨by decide, by decide, by decide, by decide⟩

end Compiler

end Breadboard
