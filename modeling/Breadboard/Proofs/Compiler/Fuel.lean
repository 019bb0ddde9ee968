import Mathlib.Data.List.Dedup
import Breadboard.Compiler.Compile

/-!
# Compiling terminates: the compiler's fuel is never used up

Compiling runs three recursions, each with a fuel argument: discovery of a procedure (a
depth-first walk with an explicit stack), dependency ordering (a recursive placing), and the
rebuilding of call expressions (argument resolution calling back into expression building).
A fuel argument only bounds a recursion; the statements here say that the bound compiling
passes is never reached, so giving more fuel changes nothing and the results are those of the
unbounded recursions.

Each recursion has a measure that every step lowers:

* discovery: the ids on the stack plus the execution edges leaving ids not yet visited; a pop
  either skips an id, or visits it and trades its outgoing execution edges for stack entries;
* ordering: the members not yet placed; each nested placing places a new member;
* rebuilding: the distinct call-node ids not on the path; each nested rebuild puts a call
  that is not on the path onto it, so the depth of rebuilding is at most the number of
  distinct call-node ids. The path is an argument, so every argument of a call is resolved
  under the path that call was given: what a nested rebuild adds is gone on return.

Main statement: `compile_fuel_suffices`.
-/

namespace Breadboard

/-- Counting along a predicate that holds exactly when one of two exclusive predicates does. -/
theorem countP_eq_add {α : Type} {p q r : α → Bool} (l : List α)
    (h : ∀ a, p a = (q a || r a)) (hqr : ∀ a, q a = true → r a = false) :
    l.countP p = l.countP q + l.countP r := by
  induction l with
  | nil => rfl
  | cons a l ih =>
    simp only [List.countP_cons, ih, h a]
    cases hq : q a
    · simp [Nat.add_assoc]
    · simp [hqr a hq]; omega

/-- Marking one more member of a list lowers the count of unmarked members. -/
theorem countP_not_contains_cons_lt {l marked : List String} {x : String} (hx : x ∈ l)
    (hm : marked.contains x = false) :
    (l.countP fun i => !(x :: marked).contains i) < l.countP fun i => !marked.contains i := by
  have hsplit := countP_eq_add l
    (p := fun i => !marked.contains i) (q := fun i => i == x)
    (r := fun i => !(x :: marked).contains i)
    (fun i => by by_cases hi : i = x <;> simp_all)
    (fun i hi => by simp_all)
  have hpos : 0 < l.countP fun i => i == x := List.countP_pos_iff.mpr ⟨x, hx, by simp⟩
  omega

/-- Two folds agree when their steps agree on every accumulator an invariant admits, and the
steps keep the invariant. -/
theorem foldl_congr_of_inv {α β : Type} {l : List α} {f f' : β → α → β} {P : β → Prop} {b : β}
    (hb : P b) (h : ∀ a ∈ l, ∀ c, P c → f c a = f' c a ∧ P (f c a)) :
    l.foldl f b = l.foldl f' b :=
  (List.foldl_rel (r := fun c c' => c = c' ∧ P c) ⟨rfl, hb⟩ fun a ha c c' ⟨hc, hp⟩ => by
    subst hc
    obtain ⟨heq, hp'⟩ := h a ha c hp
    exact ⟨heq, hp'⟩).1

/-- A fuel-indexed result that one more round of fuel leaves unchanged beyond a bound is the
same for every fuel beyond it. -/
theorem fuel_add_of_succ {α : Type} {f : Nat → α} {m : Nat}
    (h : ∀ fuel, m < fuel → f (fuel + 1) = f fuel) {fuel : Nat} (hf : m < fuel) (k : Nat) :
    f (fuel + k) = f fuel := by
  induction k with
  | zero => rfl
  | succ k ih => rw [← Nat.add_assoc, h (fuel + k) (by omega), ih]

namespace Graph

variable (g : Graph)

/-! ### Discovery -/

/-- What discovery still has to do: the ids on its stack, and the execution edges leaving ids
it has not visited yet. -/
def discoverMeasure (stack visited : List String) : Nat :=
  stack.length + g.edges.countP fun e => e.kind == .execution && !visited.contains e.source

theorem length_successors (id : String) :
    (g.successors id).length = g.edges.countP fun e => e.kind == .execution && e.source == id := by
  rw [successors, List.length_filterMap_eq_countP]
  congr 1
  funext e
  by_cases hk : e.kind = .execution <;> by_cases hs : e.source = id <;> simp [hk, hs]

variable {g}

/-- Visiting a new id hands its execution edges to the stack and pops the id. -/
theorem discoverMeasure_visit {id : String} {stack visited : List String}
    (h : visited.contains id = false) :
    g.discoverMeasure (g.successors id ++ stack) (id :: visited) + 1 =
      g.discoverMeasure (id :: stack) visited := by
  have hid : id ∉ visited := by simpa using h
  have hsplit := countP_eq_add g.edges
    (p := fun e => e.kind == .execution && !visited.contains e.source)
    (q := fun e => e.kind == .execution && e.source == id)
    (r := fun e => e.kind == .execution && !(id :: visited).contains e.source)
    (fun e => by by_cases he : e.source = id <;> simp [he, hid])
    (fun e he => by simp_all)
  simp only [discoverMeasure, List.length_append, List.length_cons, hsplit, length_successors]
  omega

/-- Popping an id without following it lowers the measure. -/
theorem discoverMeasure_pop {id : String} {stack visited : List String} :
    g.discoverMeasure stack (id :: visited) + 1 ≤ g.discoverMeasure (id :: stack) visited := by
  have hle : (g.edges.countP fun e => e.kind == .execution && !(id :: visited).contains e.source)
      ≤ g.edges.countP fun e => e.kind == .execution && !visited.contains e.source :=
    List.countP_mono_left fun e _ he => by simp_all
  simp only [discoverMeasure, List.length_cons]
  omega

/-- One more round of fuel does not change discovery once the fuel exceeds the measure. -/
theorem discoverFrom_succ {fuel : Nat} {stack visited found : List String}
    (h : g.discoverMeasure stack visited < fuel) :
    g.discoverFrom (fuel + 1) stack visited found = g.discoverFrom fuel stack visited found := by
  induction fuel generalizing stack visited found with
  | zero => omega
  | succ k ih =>
    cases stack with
    | nil => simp [discoverFrom]
    | cons id stack =>
      have hpop : g.discoverMeasure stack (id :: visited) + 1 ≤
          g.discoverMeasure (id :: stack) visited := discoverMeasure_pop
      simp only [discoverFrom]
      by_cases hv : visited.contains id = true
      · have hlt : g.discoverMeasure stack visited < k := by
          simp only [discoverMeasure, List.length_cons] at h ⊢
          omega
        simp only [hv, if_true]
        exact ih hlt
      · simp only [hv, Bool.false_eq_true, if_false]
        cases hf : g.find? id with
        | none => exact ih (by omega)
        | some n =>
          simp only
          split
          · have hvisit : g.discoverMeasure (g.successors id ++ stack) (id :: visited) + 1 =
                g.discoverMeasure (id :: stack) visited :=
              discoverMeasure_visit (Bool.eq_false_iff.mpr hv)
            exact ih (by omega)
          · exact ih (by omega)

/-- Discovery with any fuel beyond its measure gives the same ids. -/
theorem discoverFrom_fuel_add {fuel : Nat} {stack visited found : List String}
    (h : g.discoverMeasure stack visited < fuel) (k : Nat) :
    g.discoverFrom (fuel + k) stack visited found = g.discoverFrom fuel stack visited found :=
  fuel_add_of_succ (f := fun fuel => g.discoverFrom fuel stack visited found)
    (fun _ hm => discoverFrom_succ hm) h k

/-- Discovery starts below its fuel: each execution edge is pushed at most twice, once as a
successor of the entry point and once as a successor of the id it leaves. -/
theorem discoverMeasure_start (entry : String) :
    g.discoverMeasure (g.successors entry) [] < 2 * g.edges.length + 1 := by
  have h1 := List.countP_le_length (l := g.edges)
    (p := fun e => e.kind == .execution && e.source == entry)
  have h2 := List.countP_le_length (l := g.edges)
    (p := fun e => e.kind == .execution && !([] : List String).contains e.source)
  simp only [discoverMeasure, length_successors]
  omega

/-! ### Dependency ordering -/

/-- The members not placed yet. -/
def placeMeasure (members placed : List String) : Nat :=
  members.countP fun m => !placed.contains m

theorem placeMeasure_anti {members placed placed' : List String} (h : placed ⊆ placed') :
    placeMeasure members placed' ≤ placeMeasure members placed :=
  List.countP_mono_left fun m _ hm => by
    simp only [Bool.not_eq_eq_eq_not, Bool.not_true, Bool.eq_false_iff, ne_eq,
      List.contains_iff_mem] at hm ⊢
    exact fun hp => hm (h hp)

/-- Placing never takes an id back: what was placed before is placed after. -/
theorem subset_place {members : List String} :
    ∀ (fuel : Nat) (id : String) (st : List String × List String),
      st.1 ⊆ (g.place members fuel id st).1
  | 0, _, _ => List.Subset.refl _
  | fuel + 1, id, (placed, ordered) => by
    simp only [place]
    split
    · exact List.Subset.refl _
    · dsimp only
      refine List.Subset.trans (List.subset_cons_self id placed) ?_
      apply List.foldlRecOn (motive := fun (st : List String × List String) => id :: placed ⊆ st.1)
      · exact List.Subset.refl _
      · intro st hst src _
        split
        · exact List.Subset.trans hst (subset_place fuel src st)
        · exact hst

/-- One more round of fuel does not change a placing once the fuel exceeds the measure. -/
theorem place_succ {members : List String} {fuel : Nat} {id : String}
    {st : List String × List String} (hid : id ∈ members)
    (h : placeMeasure members st.1 < fuel) :
    g.place members (fuel + 1) id st = g.place members fuel id st := by
  induction fuel generalizing id st with
  | zero => omega
  | succ k ih =>
    obtain ⟨placed, ordered⟩ := st
    simp only [place]
    split
    · rfl
    · rename_i hp
      dsimp only at h ⊢
      -- every nested placing starts with `id` already placed, so below the fuel `k`
      have hlt : placeMeasure members (id :: placed) < k := by
        have := countP_not_contains_cons_lt hid (Bool.eq_false_iff.mpr hp)
        simp only [placeMeasure] at h ⊢
        omega
      rw [foldl_congr_of_inv (P := fun c => id :: placed ⊆ c.1) (List.Subset.refl _)
        (fun src _ c hsub => ?_)]
      split
      · rename_i hsrc
        have hm : placeMeasure members c.1 < k := Nat.lt_of_le_of_lt (placeMeasure_anti hsub) hlt
        exact ⟨ih (by simpa using hsrc) hm, List.Subset.trans hsub (subset_place (k + 1) src c)⟩
      · exact ⟨rfl, hsub⟩

/-- A placing with any fuel beyond its measure gives the same order. -/
theorem place_fuel_add {members : List String} {fuel : Nat} {id : String}
    {st : List String × List String} (hid : id ∈ members)
    (h : placeMeasure members st.1 < fuel) (k : Nat) :
    g.place members (fuel + k) id st = g.place members fuel id st :=
  fuel_add_of_succ (f := fun fuel => g.place members fuel id st) (fun _ hm => place_succ hid hm) h k

/-! ### Rebuilding call expressions -/

variable (g) in
/-- The distinct ids of the graph's call nodes. -/
def callIds : List String :=
  (g.nodes.filterMap fun n => match n.kind with
    | .call _ => some n.id
    | _ => none).dedup

variable (g) in
/-- The calls that rebuilding may still put on the path. -/
def rebuildMeasure (path : List String) : Nat :=
  g.callIds.countP fun i => !path.contains i

theorem mem_callIds {n : Node} {c : Call} (hn : n ∈ g.nodes) (hk : n.kind = .call c) :
    n.id ∈ g.callIds :=
  List.mem_dedup.mpr (List.mem_filterMap.mpr ⟨n, hn, by simp [hk]⟩)

theorem length_callIds_le : g.callIds.length ≤ g.nodes.length :=
  Nat.le_trans (List.dedup_sublist _).length_le (List.length_filterMap_le _ _)

/-- A nested rebuild puts a call not yet on the path onto it. -/
theorem rebuildMeasure_cons_lt {path : List String} {src : Node} {sc : Call}
    (hsrc : src ∈ g.nodes) (hk : src.kind = .call sc) (hp : path.contains src.id = false) :
    g.rebuildMeasure (src.id :: path) < g.rebuildMeasure path :=
  countP_not_contains_cons_lt (mem_callIds hsrc hk) hp

end Graph

namespace Compiler

variable {g : Graph} {node : Node} {path : List String}

/-- An argument only asks to rebuild calls of the graph that are not on the path. -/
theorem argument_congr {rebuild rebuild' : Node → Call → Built → Option (String × Built)}
    (h : ∀ src sc b, src ∈ g.nodes → src.kind = .call sc → path.contains src.id = false →
      rebuild src sc b = rebuild' src sc b) (b : Built) (p : Port) :
    argument g node path rebuild b p = argument g node path rebuild' b p := by
  unfold argument
  rcases g.feed? node.id p.id with _ | e
  · rfl
  · simp only
    rcases b.lookup e.source e.sourceHandle with _ | x
    · rcases hf : g.find? e.source with _ | src
      · rfl
      · simp only
        rcases hk : src.kind with _ | _ | sc | v
        · rfl
        · rfl
        · simp only
          split
          · rfl
          · rename_i hp
            rw [h src sc b (Graph.find?_spec hf).1 hk (by simpa using hp)]
        · rfl
    · rfl

theorem arguments_congr {rebuild rebuild' : Node → Call → Built → Option (String × Built)}
    (h : ∀ src sc b, src ∈ g.nodes → src.kind = .call sc → path.contains src.id = false →
      rebuild src sc b = rebuild' src sc b) :
    ∀ (b : Built) (ps : List Port),
      arguments g node path rebuild b ps = arguments g node path rebuild' b ps
  | _, [] => rfl
  | b, p :: ps => by
    simp only [arguments, argument_congr h b p, arguments_congr h _ ps]

theorem callWith_congr {c : Call} {rebuild rebuild' : Node → Call → Built → Option (String × Built)}
    (h : ∀ src sc b, src ∈ g.nodes → src.kind = .call sc → path.contains src.id = false →
      rebuild src sc b = rebuild' src sc b) (b : Built) :
    callWith g node c path rebuild b = callWith g node c path rebuild' b := by
  simp only [callWith, arguments_congr h]

/-- One more level of fuel does not change a rebuild once the fuel exceeds the measure. -/
theorem callText_fuel_succ {fuel : Nat} {c : Call} {b : Built} (h : g.rebuildMeasure path < fuel) :
    callText g (fuel + 1) node c path b = callText g fuel node c path b := by
  induction fuel generalizing node c path b with
  | zero => omega
  | succ k ih =>
    rw [callText_succ g (k + 1), callText_succ g k]
    refine callWith_congr (fun src sc b hsrc hk hp => ?_) b
    have hlt := Graph.rebuildMeasure_cons_lt hsrc hk hp
    rw [ih (by omega)]

/-- Rebuilding with any fuel beyond the measure gives the same expression. -/
theorem callText_fuel_add {fuel : Nat} {c : Call} {b : Built} (h : g.rebuildMeasure path < fuel)
    (k : Nat) : callText g (fuel + k) node c path b = callText g fuel node c path b :=
  fuel_add_of_succ (f := fun fuel => callText g fuel node c path b)
    (fun _ hm => callText_fuel_succ hm) h k

/-! ### Compiling -/

/-- **Compiling terminates.** Every recursion that compiling runs gives, from where compiling
starts it, the same result with any larger fuel: discovery from an entry point (fuel twice the
number of edges, plus one), the placing of each member when a procedure is ordered (fuel one
more than the number of members), and the rebuilding of call expressions, which never nests
deeper than the number of distinct call-node ids, a number compiling's own fuel (one more than
the number of nodes) exceeds. -/
theorem compile_fuel_suffices (g : Graph) :
    (∀ entry k, g.discoverFrom (2 * g.edges.length + 1 + k) (g.successors entry) [] [] =
      g.discover entry) ∧
    (∀ ids : List String, ∀ id ∈ ids, ∀ st k,
      g.place ids (ids.length + 1 + k) id st = g.place ids (ids.length + 1) id st) ∧
    (∀ fuel, g.callIds.length < fuel → ∀ n c path b k,
      callText g (fuel + k) n c path b = callText g fuel n c path b) ∧
    g.callIds.length < g.nodes.length + 1 := by
  refine ⟨fun entry k => ?_, fun ids id hid st k => ?_, fun fuel hfuel n c path b k => ?_, ?_⟩
  · exact Graph.discoverFrom_fuel_add (Graph.discoverMeasure_start entry) k
  · have hle : Graph.placeMeasure ids st.1 ≤ ids.length := List.countP_le_length
    exact Graph.place_fuel_add hid (by omega) k
  · have hle : g.rebuildMeasure path ≤ g.callIds.length := List.countP_le_length
    exact callText_fuel_add (by omega) k
  · have hle := g.length_callIds_le
    omega

end Compiler

end Breadboard
