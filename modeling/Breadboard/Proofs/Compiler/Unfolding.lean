import Mathlib.Logic.Relation
import Breadboard.Proofs.Compiler.Fuel

/-!
# The memoised expressions are the plain unfoldings

Compiling builds the expression of a call node once and binds it to the outputs a data edge
reads, so later readers reuse it; a call that is not bound yet is rebuilt inline, under a path
that cuts data cycles. This file compares that with the plain recursive reading of a graph:

* `Graph.Unfolds n s`: the expression of call node `n` is `s`: its call name applied to one
  argument per input port, read from the source of the first edge into the port — the unfolding
  of a call, the name of a named variable, or else the port's literal or zero value;
* `Graph.Emits ids out`: the statements of the procedure `ids` are `out`: a call's unfolding
  followed by `;`, a local named variable's declaration, nothing for any other id.

Main statement (`compile_agrees_with_unfolding`): when node ids are distinct and no call reads
itself through a chain of reads, the `setup` and `loop` statements are what `Emits` says, and
every expression bound to an output of a call node is that call's unfolding. The invariant
behind it, `Graph.Sound`, says every bound expression is what reading its node gives; binding
a variable's name, a call statement and an orphan call each keep it, and rebuilding never
binds.
-/

namespace Breadboard

open Compiler

namespace Graph

variable (g : Graph)

/-! ## Reading a graph -/

section Spec

/-- The node an input port reads from: the source of the first edge into it, when that source
is a node of the graph. -/
def source? (n : Node) (p : Port) : Option Node :=
  (g.feed? n.id p.id).bind fun e => g.find? e.source

/-- Call node `n` reads call node `s` through the first edge into one of its input ports. -/
def Reads (n s : Node) : Prop :=
  (∃ c, n.kind = .call c) ∧ (∃ sc, s.kind = .call sc) ∧ ∃ p ∈ n.inputs, g.source? n p = some s

/-- No call reads itself through a chain of reads. -/
def ReadsAcyclic : Prop :=
  ∀ n, ¬ Relation.TransGen g.Reads n n

/-- The node ids of the graph are pairwise distinct. -/
def NodupIds : Prop :=
  (g.nodes.map (·.id)).Nodup

instance : Decidable g.NodupIds :=
  inferInstanceAs (Decidable (g.nodes.map (·.id)).Nodup)

mutual

/-- `g.Unfolds n s`: the plain recursive expression of call node `n` is `s`. -/
inductive Unfolds (g : Graph) : Node → String → Prop
  | call {n : Node} {c : Call} {args : List String} (hk : n.kind = .call c)
      (hargs : UnfoldsArgs g n n.inputs args) :
      Unfolds g n (c.callName ++ "(" ++ ", ".intercalate args ++ ")")

/-- `g.UnfoldsArgs n ps args`: the ports `ps` of node `n` read as `args`, in order. -/
inductive UnfoldsArgs (g : Graph) : Node → List Port → List String → Prop
  | nil {n : Node} : UnfoldsArgs g n [] []
  | cons {n : Node} {p : Port} {ps : List Port} {a : String} {as : List String}
      (hp : UnfoldsArg g n p a) (hps : UnfoldsArgs g n ps as) : UnfoldsArgs g n (p :: ps) (a :: as)

/-- `g.UnfoldsArg n p a`: input port `p` of node `n` reads as `a`: the unfolding of the call
it reads from, the name of the named variable it reads from, or else its literal or the zero
value of its type (no edge, a missing source, an entry point, an unnamed variable). -/
inductive UnfoldsArg (g : Graph) : Node → Port → String → Prop
  | call {n s : Node} {p : Port} {x : String} (hs : g.source? n p = some s)
      (hx : Unfolds g s x) : UnfoldsArg g n p x
  | named {n s : Node} {p : Port} {v : Variable} (hs : g.source? n p = some s)
      (hk : s.kind = .variable v) (hv : v.name ≠ "") : UnfoldsArg g n p v.name
  | fallback {n : Node} {p : Port}
      (h : ∀ s, g.source? n p = some s → s.isEntryPoint ∨ ∃ v, s.kind = .variable v ∧ v.name = "") :
      UnfoldsArg g n p (fallbackArgument p)

end

/-- `g.Emits ids out`: the statements of the nodes with ids `ids` are `out`: a call makes its
unfolding followed by `;`, a local named variable its declaration, any other id nothing. -/
inductive Emits (g : Graph) : List String → List String → Prop
  | nil : Emits g [] []
  | call {id : String} {ids out : List String} {n : Node} {c : Call} {s : String}
      (hn : g.find? id = some n) (hk : n.kind = .call c) (hs : g.Unfolds n s)
      (hrest : Emits g ids out) : Emits g (id :: ids) ((s ++ ";") :: out)
  | declare {id : String} {ids out : List String} {n : Node} {v : Variable}
      (hn : g.find? id = some n) (hk : n.kind = .variable v) (hloc : v.isGlobal = false)
      (hv : v.name ≠ "") (hrest : Emits g ids out) : Emits g (id :: ids) (v.declaration :: out)
  | skip {id : String} {ids out : List String}
      (h : ∀ n, g.find? id = some n → n.isEntryPoint ∨
        ∃ v, n.kind = .variable v ∧ (v.isGlobal = true ∨ v.name = ""))
      (hrest : Emits g ids out) : Emits g (id :: ids) out

end Spec

/-! ## The unfolding is a function -/

section Unique

variable {g}

/-- An id whose node is an entry point or a variable that is global or unnamed emits
nothing. -/
theorem Emits.skip_of_find? {id : String} {n : Node} {ids out : List String}
    (hn : g.find? id = some n)
    (h : n.isEntryPoint ∨ ∃ v, n.kind = .variable v ∧ (v.isGlobal = true ∨ v.name = ""))
    (hrest : g.Emits ids out) : g.Emits (id :: ids) out :=
  .skip (fun m hm => by
    rw [hn] at hm
    cases hm
    exact h) hrest

theorem Unfolds.kind {n : Node} {s : String} (h : g.Unfolds n s) : ∃ c, n.kind = .call c := by
  cases h with
  | call hk _ => exact ⟨_, hk⟩

theorem UnfoldsArg.fallback_of_call {n s : Node} {p : Port} {x : String}
    (hs : g.source? n p = some s) (hx : g.Unfolds s x)
    (h : ∀ s, g.source? n p = some s → s.isEntryPoint ∨ ∃ v, s.kind = .variable v ∧ v.name = "") :
    False := by
  obtain ⟨c, hc⟩ := hx.kind
  rcases h s hs with he | ⟨v, hv, -⟩
  · simp [Node.isEntryPoint, hc] at he
  · rw [hc] at hv
    cases hv

/-- A port whose source is an entry point or an unnamed variable reads as its fallback. -/
theorem UnfoldsArg.fallback_of_source {n s : Node} {p : Port} (hs : g.source? n p = some s)
    (h : s.isEntryPoint ∨ ∃ v, s.kind = .variable v ∧ v.name = "") :
    g.UnfoldsArg n p (fallbackArgument p) :=
  .fallback fun s' hs' => by
    rw [hs] at hs'
    cases hs'
    exact h

theorem UnfoldsArg.named_not_fallback {n s : Node} {p : Port} {v : Variable} {a b : String}
    (hs : g.source? n p = some s) (hk : s.kind = .variable v) (hv : v.name ≠ "")
    (h : ∀ s, g.source? n p = some s → s.isEntryPoint ∨ ∃ v, s.kind = .variable v ∧ v.name = "") :
    a = b := by
  rcases h s hs with he | ⟨v', hv', hname⟩
  · simp [Node.isEntryPoint, hk] at he
  · rw [hk] at hv'
    cases hv'
    exact (hv hname).elim

mutual

/-- A call node has one unfolding. -/
theorem Unfolds.unique : ∀ {n : Node} {s t : String}, g.Unfolds n s → g.Unfolds n t → s = t
  | _, _, _, .call hk hargs, .call hk' hargs' => by
    rw [hk] at hk'
    cases hk'
    rw [UnfoldsArgs.unique hargs hargs']

theorem UnfoldsArgs.unique : ∀ {n : Node} {ps : List Port} {as bs : List String},
    g.UnfoldsArgs n ps as → g.UnfoldsArgs n ps bs → as = bs
  | _, _, _, _, .nil, .nil => rfl
  | _, _, _, _, .cons hp hps, .cons hp' hps' => by
    rw [UnfoldsArg.unique hp hp', UnfoldsArgs.unique hps hps']

theorem UnfoldsArg.unique : ∀ {n : Node} {p : Port} {a b : String},
    g.UnfoldsArg n p a → g.UnfoldsArg n p b → a = b
  | _, _, _, _, .call hs hx, .call hs' hx' => by
    rw [hs] at hs'
    cases hs'
    exact Unfolds.unique hx hx'
  | _, _, _, _, .call hs hx, .named hs' hk _ => by
    rw [hs] at hs'
    cases hs'
    obtain ⟨c, hc⟩ := hx.kind
    rw [hc] at hk
    cases hk
  | _, _, _, _, .call hs hx, .fallback h => (UnfoldsArg.fallback_of_call hs hx h).elim
  | _, _, _, _, .named hs hk _, .call hs' hx' => by
    rw [hs] at hs'
    cases hs'
    obtain ⟨c, hc⟩ := hx'.kind
    rw [hc] at hk
    cases hk
  | _, _, _, _, .named hs hk _, .named hs' hk' _ => by
    rw [hs] at hs'
    cases hs'
    rw [hk] at hk'
    cases hk'
    rfl
  | _, _, _, _, .named hs hk hv, .fallback h => UnfoldsArg.named_not_fallback hs hk hv h
  | _, _, _, _, .fallback h, .call hs' hx' => (UnfoldsArg.fallback_of_call hs' hx' h).elim
  | _, _, _, _, .fallback h, .named hs' hk' hv' => UnfoldsArg.named_not_fallback hs' hk' hv' h
  | _, _, _, _, .fallback _, .fallback _ => rfl

end

end Unique

/-! ## The bound expressions -/

section Sound

/-- Reading node `s` gives `x`: `s` is a call unfolding to `x`, or a named variable called `x`. -/
def ReadsAs (s : Node) (x : String) : Prop :=
  g.Unfolds s x ∨ ∃ v, s.kind = .variable v ∧ v.name ≠ "" ∧ x = v.name

/-- Every expression bound to an output of a node is what reading that node gives. -/
def Sound (b : Built) : Prop :=
  ∀ k h x, b.lookup k h = some x → ∃ s, g.find? k = some s ∧ g.ReadsAs s x

variable {g}

theorem sound_empty : g.Sound {} := by
  intro k h x hx
  simp [Built.lookup] at hx

/-- Soundness only looks at the bindings. -/
theorem Sound.of_bound {b b' : Built} (hb : g.Sound b) (h : b'.bound = b.bound) : g.Sound b' := by
  intro k p x hx
  exact hb k p x (by rw [Built.lookup, h] at hx; exact hx)

theorem Sound.bind {b : Built} {k h x : String} {s : Node} (hb : g.Sound b)
    (hs : g.find? k = some s) (hx : g.ReadsAs s x) : g.Sound (b.bind k h x) := by
  intro k' h' x' hx'
  by_cases hk : (k', h') = (k, h)
  · obtain ⟨rfl, rfl⟩ := Prod.mk.inj hk
    rw [Built.lookup_bind_self] at hx'
    cases hx'
    exact ⟨s, hs, hx⟩
  · rw [Built.lookup_bind_of_ne hk] at hx'
    exact hb k' h' x' hx'

/-- With distinct ids, a node of the graph is the node found by its id. -/
theorem find?_of_mem (hd : g.NodupIds) {n : Node} (hn : n ∈ g.nodes) : g.find? n.id = some n := by
  have hsome : (g.find? n.id).isSome := List.find?_isSome.mpr ⟨n, hn, by simp⟩
  obtain ⟨m, hm⟩ := Option.isSome_iff_exists.mp hsome
  obtain ⟨hmem, hid⟩ := find?_spec hm
  rw [hm, List.inj_on_of_nodup_map hd hmem hn hid]

end Sound

/-! ## Rebuilding follows the unfolding -/

section Rebuild

variable {g}

/-- Every id on a rebuilding path names a node from which `node` is read. -/
def PathTo (path : List String) (node : Node) : Prop :=
  ∀ x ∈ path, ∃ m, g.find? x = some m ∧ Relation.ReflTransGen g.Reads m node

theorem PathTo.cons {path : List String} {node src : Node} (hp : g.PathTo path node)
    (hsrc : g.find? src.id = some src) (hr : g.Reads node src) : g.PathTo (src.id :: path) src := by
  intro x hx
  rcases List.mem_cons.mp hx with rfl | hx
  · exact ⟨src, hsrc, .refl⟩
  · obtain ⟨m, hm, hmn⟩ := hp x hx
    exact ⟨m, hm, hmn.tail hr⟩

/-- What a rebuild promises: a call that `node` reads and that is not on the path is rebuilt to
its unfolding, without new bindings. -/
def RebuildsAs (path : List String) (node : Node)
    (rebuild : Node → Call → Built → Option (String × Built)) : Prop :=
  ∀ src sc b, g.Sound b → g.find? src.id = some src → src.kind = .call sc → g.Reads node src →
    path.contains src.id = false →
    ∃ r, rebuild src sc b = some r ∧ g.Unfolds src r.1 ∧ r.2.bound = b.bound

variable {path : List String} {node : Node} {c : Call}
  {rebuild : Node → Call → Built → Option (String × Built)}

theorem argument_unfolds (ha : g.ReadsAcyclic) (hk : node.kind = .call c) {p : Port}
    (hp : p ∈ node.inputs) {b : Built} (hb : g.Sound b) (hpath : g.PathTo path node)
    (hre : g.RebuildsAs path node rebuild) :
    g.UnfoldsArg node p (argument g node path rebuild b p).1 ∧
      (argument g node path rebuild b p).2.bound = b.bound := by
  unfold argument
  rcases hfeed : g.feed? node.id p.id with _ | e
  · -- no edge into the port
    refine ⟨.fallback fun s hs => ?_, rfl⟩
    simp [source?, hfeed] at hs
  · have hsrc : g.source? node p = g.find? e.source := by simp [source?, hfeed]
    dsimp only
    rcases hlook : b.lookup e.source e.sourceHandle with _ | x
    · dsimp only
      rcases hfind : g.find? e.source with _ | src
      · refine ⟨.fallback fun s hs => ?_, rfl⟩
        rw [hsrc, hfind] at hs
        cases hs
      · have hid : src.id = e.source := (find?_spec hfind).2
        have hsrc' : g.source? node p = some src := by rw [hsrc, hfind]
        dsimp only
        rcases hkind : src.kind with _ | _ | sc | v
        · exact ⟨.fallback_of_source hsrc' (by simp [Node.isEntryPoint, hkind]), rfl⟩
        · exact ⟨.fallback_of_source hsrc' (by simp [Node.isEntryPoint, hkind]), rfl⟩
        · have hreads : g.Reads node src := ⟨⟨c, hk⟩, ⟨sc, hkind⟩, p, hp, hsrc'⟩
          dsimp only
          split
          · -- a call on the path would read itself
            rename_i hin
            obtain ⟨m, hm, hmn⟩ := hpath src.id (by simpa using hin)
            rw [hid, hfind] at hm
            cases hm
            exact (ha src (Relation.TransGen.tail' hmn hreads)).elim
          · rename_i hnin
            obtain ⟨r, hr, hu, hbound⟩ := hre src sc b hb (by rw [hid]; exact hfind) hkind hreads
              (by simpa using hnin)
            rw [hr]
            exact ⟨.call hsrc' hu, hbound⟩
        · dsimp only
          split
          · rename_i hemp
            exact ⟨.fallback_of_source hsrc' (.inr ⟨v, hkind, by simpa using hemp⟩), rfl⟩
          · rename_i hname
            exact ⟨.named hsrc' hkind (by simpa using hname), rfl⟩
    · -- a bound expression is what reading its node gives
      obtain ⟨s, hs, hread⟩ := hb _ _ _ hlook
      refine ⟨?_, rfl⟩
      rcases hread with hu | ⟨v, hkv, hv, rfl⟩
      · exact .call (by rw [hsrc, hs]) hu
      · exact .named (by rw [hsrc, hs]) hkv hv

theorem arguments_unfolds (ha : g.ReadsAcyclic) (hk : node.kind = .call c)
    (hpath : g.PathTo path node) (hre : g.RebuildsAs path node rebuild) :
    ∀ (ps : List Port), (∀ p ∈ ps, p ∈ node.inputs) → ∀ b, g.Sound b →
      g.UnfoldsArgs node ps (arguments g node path rebuild b ps).1 ∧
        (arguments g node path rebuild b ps).2.bound = b.bound
  | [], _, _, _ => ⟨.nil, rfl⟩
  | p :: ps, hps, b, hb => by
    obtain ⟨harg, hbound⟩ := argument_unfolds ha hk (hps p (List.mem_cons_self ..)) hb hpath hre
    obtain ⟨hrest, hbound'⟩ := arguments_unfolds ha hk hpath hre ps
      (fun q hq => hps q (List.mem_cons_of_mem p hq)) _ (hb.of_bound hbound)
    exact ⟨.cons harg hrest, hbound'.trans hbound⟩

theorem callWith_unfolds (ha : g.ReadsAcyclic) (hk : node.kind = .call c) {b : Built}
    (hb : g.Sound b) (hpath : g.PathTo path node) (hre : g.RebuildsAs path node rebuild) :
    g.Unfolds node (callWith g node c path rebuild b).1 ∧
      (callWith g node c path rebuild b).2.bound = b.bound := by
  have hb' : g.Sound (b.noteInclude c) := hb.of_bound (Built.bound_noteInclude b c)
  obtain ⟨hargs, hbound⟩ := arguments_unfolds ha hk hpath hre node.inputs (fun _ hp => hp) _ hb'
  exact ⟨.call hk hargs, hbound.trans (Built.bound_noteInclude b c)⟩

/-- Rebuilding a call whose path leads to it gives its unfolding and binds nothing. The
induction is on the fuel; the measure keeps the fuel from running out on the way. -/
theorem callText_unfolds (ha : g.ReadsAcyclic) :
    ∀ (fuel : Nat) {node : Node} {c : Call} {path : List String} {b : Built},
      node.kind = .call c → g.Sound b → g.PathTo path node → g.rebuildMeasure path < fuel →
      g.Unfolds node (callText g fuel node c path b).1 ∧
        (callText g fuel node c path b).2.bound = b.bound
  | 0, _, _, _, _, _, _, _, hfuel => absurd hfuel (Nat.not_lt_zero _)
  | k + 1, node, c, path, b, hk, hb, hpath, hfuel => by
    rw [callText_succ]
    refine callWith_unfolds ha hk hb hpath fun src sc b' hb' hsrc hks hreads hnin => ⟨_, rfl, ?_⟩
    have hlt := rebuildMeasure_cons_lt (find?_spec hsrc).1 hks hnin
    exact callText_unfolds ha k hks hb' (hpath.cons hsrc hreads) (by omega)

end Rebuild

/-! ## Each phase of compiling keeps the bindings sound -/

section Phases

variable {g} {fuel : Nat}

theorem callStatement_sound (hd : g.NodupIds) (ha : g.ReadsAcyclic)
    (hfuel : g.callIds.length < fuel) {n : Node} {c : Call} {b : Built} (hn : n ∈ g.nodes)
    (hk : n.kind = .call c) (hb : g.Sound b) :
    g.Unfolds n (callText g fuel n c [n.id] b).1 ∧ g.Sound (callStatement g fuel n c b).2 := by
  have hfind := find?_of_mem hd hn
  have hpath : g.PathTo [n.id] n := fun x hx => by
    rw [List.mem_singleton.mp hx]
    exact ⟨n, hfind, .refl⟩
  have hm : g.rebuildMeasure [n.id] < fuel := Nat.lt_of_le_of_lt List.countP_le_length hfuel
  obtain ⟨hu, hbound⟩ := callText_unfolds ha fuel hk hb hpath hm
  refine ⟨hu, ?_⟩
  unfold callStatement
  rcases hct : callText g fuel n c [n.id] b with ⟨expr, b'⟩
  rw [hct] at hu hbound
  dsimp only
  -- binding the call's expression to the outputs that a data edge reads
  apply List.foldlRecOn (motive := g.Sound)
  · exact hb.of_bound hbound
  · intro b'' hb'' p _
    split
    · exact hb''.bind hfind (.inl hu)
    · exact hb''

/-- One step of emitting: the statements it appends are what `Emits` says for the id. -/
theorem statementStep_emits (hd : g.NodupIds) (ha : g.ReadsAcyclic)
    (hfuel : g.callIds.length < fuel) (out : List String) {b : Built} (hb : g.Sound b)
    (id : String) :
    ∃ extra, (statementStep g fuel (out, b) id).1 = out ++ extra ∧
      g.Sound (statementStep g fuel (out, b) id).2 ∧
      ∀ ids rest, g.Emits ids rest → g.Emits (id :: ids) (extra ++ rest) := by
  unfold statementStep
  dsimp only
  rcases hf : g.find? id with _ | n
  · refine ⟨[], by simp, hb, fun ids rest h => .skip (fun m hm => ?_) h⟩
    rw [hf] at hm
    cases hm
  · have hn := (find?_spec hf).1
    dsimp only
    rcases hk : n.kind with _ | _ | c | v
    · exact ⟨[], by simp, hb, fun ids rest h =>
        .skip_of_find? hf (by simp [Node.isEntryPoint, hk]) h⟩
    · exact ⟨[], by simp, hb, fun ids rest h =>
        .skip_of_find? hf (by simp [Node.isEntryPoint, hk]) h⟩
    · obtain ⟨hu, hs⟩ := callStatement_sound hd ha hfuel hn hk hb
      have hst : (callStatement g fuel n c b).1 = (callText g fuel n c [n.id] b).1 ++ ";" := rfl
      dsimp only
      exact ⟨[(callStatement g fuel n c b).1], rfl, hs, fun ids rest h => by
        rw [hst]
        exact .call hf hk hu h⟩
    · dsimp only
      split
      · rename_i hloc
        simp only [Bool.and_eq_true, Bool.not_eq_true', String.isEmpty_eq_false_iff] at hloc
        exact ⟨[v.declaration], rfl, hb, fun ids rest h => .declare hf hk hloc.1 hloc.2 h⟩
      · rename_i hnot
        -- a variable without a declaration here is global or unnamed
        have hskip : v.isGlobal = true ∨ v.name = "" := by
          by_cases hg : v.isGlobal = true
          · exact .inl hg
          · simp_all
        exact ⟨[], by simp, hb, fun ids rest h => .skip_of_find? hf (.inr ⟨v, hk, hskip⟩) h⟩

theorem foldl_statementStep_emits (hd : g.NodupIds) (ha : g.ReadsAcyclic)
    (hfuel : g.callIds.length < fuel) :
    ∀ (ids out : List String) (b : Built), g.Sound b →
      ∃ out', (ids.foldl (statementStep g fuel) (out, b)).1 = out ++ out' ∧ g.Emits ids out' ∧
        g.Sound (ids.foldl (statementStep g fuel) (out, b)).2
  | [], out, b, hb => ⟨[], by simp, .nil, hb⟩
  | id :: ids, out, b, hb => by
    obtain ⟨extra, hout, hs, hemit⟩ := statementStep_emits hd ha hfuel out hb id
    obtain ⟨out', hout', hemits, hs'⟩ := foldl_statementStep_emits hd ha hfuel ids
      (statementStep g fuel (out, b) id).1 (statementStep g fuel (out, b) id).2 hs
    refine ⟨extra ++ out', ?_, hemit ids out' hemits, hs'⟩
    rw [List.foldl_cons, hout', hout, List.append_assoc]

theorem declareVariables_sound (hd : g.NodupIds) : g.Sound (declareVariables g).2 := by
  unfold declareVariables
  apply List.foldlRecOn (motive := fun (st : List String × Built) => g.Sound st.2)
  · exact sound_empty
  · rintro ⟨globals, b⟩ hb n hn
    have hmem : n ∈ g.nodes := List.mem_mergeSort.mp hn
    unfold declareStep
    dsimp only
    rcases hk : n.kind with _ | _ | c | v
    · exact hb
    · exact hb
    · exact hb
    · dsimp only
      split
      · exact hb
      · rename_i hname
        exact hb.bind (find?_of_mem hd hmem) (.inr ⟨v, hk, by simpa using hname, rfl⟩)

theorem orphans_sound (hd : g.NodupIds) (ha : g.ReadsAcyclic) (hfuel : g.callIds.length < fuel)
    (setupIds loopIds : List String) {b : Built} (hb : g.Sound b) :
    g.Sound ((byId g).foldl (orphanStep g fuel setupIds loopIds) b) := by
  apply List.foldlRecOn (motive := g.Sound)
  · exact hb
  · intro b' hb' n hn
    have hmem : n ∈ g.nodes := List.mem_mergeSort.mp hn
    unfold orphanStep
    rcases hk : n.kind with _ | _ | c | v
    · exact hb'
    · exact hb'
    · dsimp only
      split
      · exact hb'
      · have hfind := find?_of_mem hd hmem
        have hpath : g.PathTo [n.id] n := fun x hx => by
          rw [List.mem_singleton.mp hx]
          exact ⟨n, hfind, .refl⟩
        have hm : g.rebuildMeasure [n.id] < fuel := Nat.lt_of_le_of_lt List.countP_le_length hfuel
        obtain ⟨hu, hbound⟩ := callText_unfolds ha fuel hk hb' hpath hm
        rcases hct : callText g fuel n c [n.id] b' with ⟨expr, b''⟩
        rw [hct] at hu hbound
        exact (hb'.of_bound hbound).bind hfind (.inl hu)
    · exact hb'

end Phases

/-- A rank that every read lowers rules out cycles of reads. -/
theorem readsAcyclic_of_rank {g : Graph} (r : Node → Nat) (h : ∀ n s, g.Reads n s → r s < r n) :
    g.ReadsAcyclic := by
  have hlt : ∀ n s, Relation.TransGen g.Reads n s → r s < r n := by
    intro n s hns
    induction hns with
    | single hr => exact h _ _ hr
    | tail _ hr ih => exact Nat.lt_trans (h _ _ hr) ih
  exact fun n hn => Nat.lt_irrefl _ (hlt n n hn)

end Graph

namespace Compiler

open Breadboard.Graph

/-- **The memoised expressions are the plain unfoldings.** When node ids are distinct and no
call reads itself through a chain of reads, the statements of `setup` and of `loop` are a call's
unfolding followed by `;` and a local named variable's declaration, procedure id by procedure
id; every expression bound to an output of a call node is that call's unfolding, and every one
bound to an output of a variable node is the variable's name. -/
theorem compile_agrees_with_unfolding {g : Graph} (hd : g.NodupIds) (ha : g.ReadsAcyclic)
    (o : Options) :
    g.Emits (((g.entryPoint .setup "setup").map g.procedure).getD []) (compile g o).setup ∧
    g.Emits (((g.entryPoint .loop "loop").map g.procedure).getD []) (compile g o).loop ∧
    (∀ n ∈ g.nodes, ∀ c, n.kind = .call c → ∀ port x,
      (compile g o).expression? n.id port = some x → g.Unfolds n x) ∧
    (∀ n ∈ g.nodes, ∀ v, n.kind = .variable v → ∀ port x,
      (compile g o).expression? n.id port = some x → x = v.name) := by
  have hfuel : g.callIds.length < g.nodes.length + 1 := Nat.lt_succ_of_le g.length_callIds_le
  obtain ⟨setup, hsetup, hemit₁, hb₁⟩ := foldl_statementStep_emits hd ha hfuel
    (((g.entryPoint .setup "setup").map g.procedure).getD []) [] _ (declareVariables_sound hd)
  obtain ⟨loop, hloop, hemit₂, hb₂⟩ := foldl_statementStep_emits hd ha hfuel
    (((g.entryPoint .loop "loop").map g.procedure).getD []) [] _ hb₁
  have hb₃ := orphans_sound hd ha hfuel (((g.entryPoint .setup "setup").map g.procedure).getD [])
    (((g.entryPoint .loop "loop").map g.procedure).getD []) hb₂
  -- every entry of the expression table is a binding of the last phase
  have hread : ∀ n ∈ g.nodes, ∀ port x, (compile g o).expression? n.id port = some x →
      g.ReadsAs n x := by
    intro n hn port x hx
    obtain ⟨s, hs, hsx⟩ := hb₃ n.id port x hx
    rw [find?_of_mem hd hn] at hs
    cases hs
    exact hsx
  refine ⟨?_, ?_, fun n hn c hk port x hx => ?_, fun n hn v hk port x hx => ?_⟩
  · have h : (compile g o).setup = setup := hsetup
    rw [h]
    exact hemit₁
  · have h : (compile g o).loop = loop := hloop
    rw [h]
    exact hemit₂
  · rcases hread n hn port x hx with hu | ⟨v, hv, -, -⟩
    · exact hu
    · rw [hk] at hv
      cases hv
  · rcases hread n hn port x hx with hu | ⟨v', hv', -, rfl⟩
    · obtain ⟨c, hc⟩ := hu.kind
      rw [hk] at hc
      cases hc
    · rw [hk] at hv'
      cases hv'
      rfl

/-- A call `a` in `setup` whose input reads the result of a call `b` that no procedure
reaches. -/
def readerGraph : Graph where
  nodes := [Node.setupEntry,
    { id := "a", inputs := [⟨"x", "x", .int, none, true⟩], kind := .call ⟨"a", "L", none⟩ },
    { id := "b", outputs := [⟨"out", "out", .int, none, true⟩], kind := .call ⟨"b", "L", none⟩ }]
  edges := [Edge.exec "setup" "a", ⟨"b", "out", "a", "x"⟩]

/-- In `readerGraph` only `a` reads, and it reads `b`. -/
theorem readerGraph_readsAcyclic : readerGraph.ReadsAcyclic := by
  refine readsAcyclic_of_rank (fun n => if n.id = "a" then 1 else 0) ?_
  rintro n s ⟨-, ⟨sc, hsc⟩, p, -, hsrc⟩
  obtain ⟨e, hfeed, hfind⟩ := Option.bind_eq_some_iff.mp hsrc
  have htarget := List.find?_some hfeed
  have he : e ∈ readerGraph.edges := List.mem_of_find?_eq_some hfeed
  simp only [readerGraph, Edge.exec, List.mem_cons, List.not_mem_nil, or_false] at he
  rcases he with rfl | rfl
  · -- the execution edge comes from the entry point, which is no call
    have hsetup : readerGraph.find? "setup" = some Node.setupEntry := by decide
    rw [hsetup] at hfind
    cases hfind
    simp [Node.setupEntry] at hsc
  · have hb : readerGraph.find? "b" = some readerGraph.nodes[2] := by decide
    rw [hb] at hfind
    cases hfind
    obtain ⟨hn, -⟩ : "a" = n.id ∧ "x" = p.id := by simpa using htarget
    simp [← hn, readerGraph]

/-- `readerGraph` meets both hypotheses, so its `setup` statement is the unfolding of `a`. -/
theorem compile_agrees_with_unfolding_reader :
    readerGraph.NodupIds ∧ readerGraph.ReadsAcyclic ∧
    readerGraph.Emits (((readerGraph.entryPoint .setup "setup").map readerGraph.procedure).getD [])
      (compile readerGraph).setup ∧
    readerGraph.Emits (((readerGraph.entryPoint .loop "loop").map readerGraph.procedure).getD [])
      (compile readerGraph).loop ∧
    (∀ n ∈ readerGraph.nodes, ∀ c, n.kind = .call c → ∀ port x,
      (compile readerGraph).expression? n.id port = some x → readerGraph.Unfolds n x) ∧
    (∀ n ∈ readerGraph.nodes, ∀ v, n.kind = .variable v → ∀ port x,
      (compile readerGraph).expression? n.id port = some x → x = v.name) :=
  have hd : readerGraph.NodupIds := by decide
  ⟨hd, readerGraph_readsAcyclic, compile_agrees_with_unfolding hd readerGraph_readsAcyclic {}⟩

end Compiler

end Breadboard
