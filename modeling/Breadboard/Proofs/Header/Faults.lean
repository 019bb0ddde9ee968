import Mathlib
import Breadboard.Proofs.Header.Cuts
import Breadboard.Proofs.Header.Initializers
/-!
# The header reader never faults

`parse` reads a header at byte offsets and can fault: a cut past the end of its text or inside
a character, a capture group read that took no part in its match, or a step of the 32-bit
bracket counter out of its range. It then answers a `ParseError` in place of a reading.

**Main statement** (`parse_eq_ok_read`): for every header of fewer than `2 ^ 31` bytes and every
file name, `parse` answers the reading of `read`, the reader that cuts at character positions
and cannot fault. Each step of `parse` is shown to give what the step of `read` beside it gives:

* every cut is made at the byte offsets of character positions (`Proofs/Header/Cuts`), so it
  lies inside its text and on character boundaries;
* every capture group that is read took part in its match, since each match fills all of its
  groups but the optional `(` of a macro, which is only tested;
* the bracket counter of a parameter list moves by at most one per character, so it stays in
  the range of a signed 32-bit integer for every list shorter than `2 ^ 31` characters
  (`Nesting.Fits`), and every parameter list lies inside the header.
-/

namespace Breadboard.Header

open Text

/-- A traversal each of whose steps succeeds succeeds with the list of their results. -/
theorem mapM_eq_ok_map {α β ε : Type} {f : α → Except ε β} {g : α → β} :
    ∀ (xs : List α), (∀ x ∈ xs, f x = .ok (g x)) → xs.mapM f = .ok (xs.map g)
  | [], _ => rfl
  | x :: xs, h => by
    rw [List.mapM_cons, h x List.mem_cons_self,
      mapM_eq_ok_map xs (fun y hy => h y (List.mem_cons_of_mem x hy))]
    rfl

/-! ## The 32-bit bracket counter -/

/-- The depth moves by at most one per character. -/
theorem Nesting.feed_depth (st : Nesting) (c : Char) :
    st.depth - 1 ≤ (st.feed c).1.depth ∧ (st.feed c).1.depth ≤ st.depth + 1 := by
  unfold Nesting.feed
  split
  · split_ifs <;> dsimp only <;> omega
  · split_ifs <;> dsimp only <;> omega

/-- A counter at `st` can take `k` more characters: the depth stays in the range of a signed
32-bit integer however those characters move it. -/
def Nesting.Fits (st : Nesting) (k : Nat) : Prop :=
  -2147483648 ≤ st.depth - k ∧ st.depth + k ≤ 2147483647

theorem Nesting.fits_init {k : Nat} (h : k ≤ 2147483647) : ({} : Nesting).Fits k := by
  unfold Nesting.Fits
  dsimp only
  omega

/-- **The step lemma.** A counter that can take one more character takes it without fault,
as the unbounded counter does, and can take one fewer afterwards. -/
theorem Nesting.feed32_of_fits {st : Nesting} {k : Nat} (h : st.Fits (k + 1)) (c : Char) :
    st.feed32 c = .ok (st.feed c) ∧ (st.feed c).1.Fits k := by
  have hd := st.feed_depth c
  unfold Nesting.Fits at h ⊢
  push_cast at h
  refine ⟨?_, by omega, by omega⟩
  rw [Nesting.feed32, if_neg (by omega), if_neg (by omega)]

/-- Splitting a list whose characters the counter can take splits it as `piecesFrom` does. -/
theorem splitPieces_of_fits : ∀ (cs : List Char) (st : Nesting) (cur : List Char),
    st.Fits cs.length → splitPieces st cur cs = .ok (piecesFrom st cur cs)
  | [], _, _, _ => rfl
  | c :: rest, st, cur, h => by
    obtain ⟨hfeed, hfits⟩ := Nesting.feed32_of_fits h c
    rcases hst : st.feed c with ⟨st', top⟩
    rw [hst] at hfeed hfits
    simp only [splitPieces, piecesFrom, hfeed, hst, bind, Except.bind]
    split_ifs
    · rw [splitPieces_of_fits rest st' [] hfits]
      rfl
    · exact splitPieces_of_fits rest st' (c :: cur) hfits

/-- Looking for the first top-level `=` of the characters of `T` from position `k` on, with a
counter that can take them, finds the byte offset of the character that `scanEquals` finds. -/
theorem findEquals_of_fits (T : List Char) : ∀ (cs : List Char) (st : Nesting) (k : Nat)
    (found : Option Nat), T.drop k = cs → st.Fits cs.length →
      findEquals st (String.utf8Len (T.take k)) (found.map fun j => String.utf8Len (T.take j)) cs =
        .ok ((scanEquals st k found cs).1.map (fun j => String.utf8Len (T.take j)),
          (scanEquals st k found cs).2)
  | [], _, _, _, _, _ => rfl
  | c :: rest, st, k, found, hcs, h => by
    obtain ⟨hfeed, hfits⟩ := Nesting.feed32_of_fits h c
    have hc := getElem?_of_drop_eq hcs
    rcases hst : st.feed c with ⟨st', top⟩
    rw [hst] at hfeed hfits
    have hfound : (if (found.map fun j => String.utf8Len (T.take j)).isNone ∧ top ∧ c = '=' then
          some (String.utf8Len (T.take k)) else found.map fun j => String.utf8Len (T.take j)) =
        (if found.isNone ∧ top ∧ c = '=' then some k else found).map
          fun j => String.utf8Len (T.take j) := by
      split_ifs <;> simp_all
    simp only [findEquals, scanEquals, hfeed, hst, bind, Except.bind, ← utf8Len_take_succ hc,
      hfound]
    exact findEquals_of_fits T rest st' (k + 1) _ (drop_succ_of_drop_eq hcs) hfits

/-! ## Parameters -/

/-- The `=` a parameter is cut at is an `=` of the parameter. -/
theorem scanEquals_at_equals : ∀ (cs : List Char) (st st' : Nesting) (k i : Nat) (found : Option Nat),
    scanEquals st k found cs = (some i, st') → found = some i ∨ (k ≤ i ∧ cs[i - k]? = some '=')
  | [], st, st', k, i, found, h => by
    simp only [scanEquals, Prod.mk.injEq] at h
    exact .inl h.1
  | c :: rest, st, st', k, i, found, h => by
    simp only [scanEquals] at h
    rcases scanEquals_at_equals rest _ st' (k + 1) i _ h with hfound | ⟨hle, hget⟩
    · split_ifs at hfound with hcut
      · -- the `=` was found at this character
        obtain ⟨-, -, rfl⟩ := hcut
        cases hfound
        exact .inr ⟨Nat.le_refl _, by simp⟩
      · exact .inl hfound
    · refine .inr ⟨by omega, ?_⟩
      rw [show i - k = i - (k + 1) + 1 by omega, List.getElem?_cons_succ]
      exact hget

theorem cutDefault_eq {part : List Char} (h : part.length ≤ 2147483647) :
    cutDefault part = .ok (splitDefault part) := by
  have hfind := findEquals_of_fits part part {} 0 none List.drop_zero (Nesting.fits_init h)
  rw [List.take_zero, String.utf8Len_nil, Option.map_none] at hfind
  unfold cutDefault splitDefault
  rcases hscan : scanEquals {} 0 none part with ⟨found, st⟩
  rw [hscan] at hfind
  simp only [hfind, bind, Except.bind]
  cases found with
  | none => split_ifs <;> rfl
  | some j =>
    -- the cut falls on the `=` the scan found, a one-byte character
    have heq : part[j]? = some '=' := by
      simpa using scanEquals_at_equals part {} st 0 j none hscan
    have hlt : j < part.length := (List.getElem?_eq_some_iff.mp heq).1
    have hafter : String.utf8Len (part.take j) + 1 = String.utf8Len (part.take (j + 1)) :=
      (utf8Len_take_succ heq).symm
    simp only [Option.map_some, hafter, slice_drop (show j + 1 ≤ part.length by omega),
      slice_zero_take]
    split_ifs <;> rfl

theorem cutNameCandidate_eq (token : List Char) :
    cutNameCandidate token = .ok (nameCandidate token) := by
  unfold cutNameCandidate nameCandidate
  rw [byteIndex_eq, List.span_eq_takeWhile_dropWhile]
  dsimp only
  by_cases hx : '[' ∈ token
  · -- the identifier is cut at the byte offset of the first `[`
    have hne : (token.dropWhile (· ≠ '[')).isEmpty = false := by
      rw [List.isEmpty_eq_false_iff, ne_eq, List.dropWhile_eq_nil_iff]
      exact fun hall => absurd (hall '[' hx) (by simp)
    have hpre : token.takeWhile (· ≠ '[') = token.take (token.takeWhile (· ≠ '[')).length :=
      List.prefix_iff_eq_take.mp (List.takeWhile_prefix _)
    rw [if_pos hx, hne, hpre]
    dsimp only
    rw [slice_zero_take]
    by_cases hl : token.getLast? = some ']'
    · simp [hl]
    · simp only [hl, Bool.false_eq_true, false_and, if_false]
      rfl
  · have hnil : (token.dropWhile (· ≠ '[')).isEmpty = true := by
      rw [List.isEmpty_iff, List.dropWhile_eq_nil_iff]
      intro c hc
      simpa using fun h : c = '[' => hx (h ▸ hc)
    rw [if_neg hx, hnil]
    rfl

theorem findNameAt_eq : ∀ tokens : List (List Char), findNameAt tokens = .ok (findName tokens)
  | [] => rfl
  | t :: before => by
    rw [findNameAt, findName, cutNameCandidate_eq]
    rcases nameCandidate t with _ | ⟨ident, isArray⟩
    · exact findNameAt_eq before
    · dsimp only [bind, Except.bind]
      split_ifs
      · exact findNameAt_eq before
      · rfl

theorem parseParameter_eq {part : List Char} (h : part.length ≤ 2147483647) (index : Nat) :
    parseParameter part index = .ok (readParameter part index) := by
  unfold parseParameter readParameter
  split_ifs with hdots
  · rfl
  · rw [cutDefault_eq h]
    rcases splitDefault part with fault | ⟨decl, defaultValue⟩
    · rfl
    · simp only [bind, Except.bind, findNameAt_eq]
      -- both readers then test the same type text
      rcases findName (declTokens decl).reverse with _ | ⟨ident, before, isArray⟩
      · by_cases hb : isBlankText (joinTokens (declTokens decl)) <;>
          simp only [hb, if_true, if_false, Bool.false_eq_true] <;> rfl
      · by_cases hb : isBlankText (joinTokens before ++ if isArray then " *" else "") <;>
          simp only [hb, if_true, if_false, Bool.false_eq_true] <;> rfl

theorem trimChars_length_le (cs : List Char) : (trimChars cs).length ≤ cs.length :=
  calc (trimChars cs).length
      ≤ (cs.dropWhile isBlank).reverse.length := by
        rw [trimChars, List.length_reverse]
        exact (List.dropWhile_sublist _).length_le
    _ ≤ cs.length := by
        rw [List.length_reverse]
        exact (List.dropWhile_sublist _).length_le

/-- Every piece of a split is at most as long as the text it was split from. -/
theorem piecesFrom_length_le : ∀ (cs : List Char) (st : Nesting) (cur : List Char),
    ∀ p ∈ piecesFrom st cur cs, p.length ≤ cur.length + cs.length
  | [], st, cur => by
    intro p hp
    rw [piecesFrom, List.mem_singleton] at hp
    subst hp
    simpa using trimChars_length_le cur.reverse
  | c :: rest, st, cur => by
    intro p hp
    rcases hst : st.feed c with ⟨st', top⟩
    simp only [piecesFrom, hst] at hp
    split_ifs at hp
    · rcases List.mem_cons.mp hp with rfl | hp
      · have := trimChars_length_le cur.reverse
        simp only [List.length_reverse, List.length_cons] at this ⊢
        omega
      · have := piecesFrom_length_le rest st' [] p hp
        simp only [List.length_nil, List.length_cons] at this ⊢
        omega
    · have := piecesFrom_length_le rest st' (c :: cur) p hp
      simp only [List.length_cons] at this ⊢
      omega

theorem splitList_length_le {s : String} : ∀ part ∈ splitList s, part.length ≤ s.length := by
  intro part hpart
  obtain ⟨q, hq, rfl⟩ := List.mem_map.mp hpart
  have := piecesFrom_length_le s.toList {} [] q (List.mem_filter.mp hq).1
  rw [String.length_ofList, ← String.length_toList]
  simpa using this

/-- A parameter list shorter than `2 ^ 31` characters is read without fault. -/
theorem parseParameters_eq {text : String} (h : text.length ≤ 2147483647) (function : String) :
    parseParameters text function = .ok (readParameters text function) := by
  unfold parseParameters readParameters readPieces
  dsimp only
  split_ifs with hempty
  · rfl
  · have htrim : (trim text).length ≤ 2147483647 := by
      rw [trim, String.length_ofList]
      exact (trimChars_length_le _).trans h
    have hsplit : splitListAt (trim text) = .ok (splitList (trim text)) := by
      unfold splitListAt splitList
      rw [splitPieces_of_fits _ _ _ (Nesting.fits_init htrim)]
      rfl
    -- every piece is part of the trimmed list, so the counter can take all of its characters
    rw [hsplit]
    simp only [bind, Except.bind]
    rw [mapM_eq_ok_map _ (g := fun (x : String × Nat) => (x.1, readParameter x.1.toList x.2)) ?_]
    · rfl
    · intro x hx
      have hlen := splitList_length_le x.1 (List.fst_mem_of_mem_zipIdx hx)
      rw [parseParameter_eq (by rw [String.length_toList]; omega)]
      rfl

/-! ## Prototypes -/

theorem cutHead_eq (head : List Char) : cutHead head = .ok (splitHead head) := by
  unfold cutHead splitHead
  dsimp only
  split_ifs with hop
  · rfl
  · -- the name is cut off at the byte offset where its trailing run of name characters starts
    set h := trimChars head
    set name := (h.reverse.takeWhile isNameChar).reverse with hname
    have hlen : name.length = (h.reverse.takeWhile isNameChar).length := List.length_reverse
    have hdrop : name = h.drop (h.length - name.length) := by
      rw [hlen, hname, reverse_takeWhile_reverse]
    rw [nameStart_eq, ← hlen, slice_drop (Nat.sub_le _ _), slice_zero_take, ← hdrop]
    rfl

theorem prototypeOfCaptures_eq (head params whole : List Char) :
    prototypeOfCaptures ⟨[some whole, some head, some params]⟩ =
      .ok (classify head params whole) := by
  simp only [prototypeOfCaptures, classify, Captures.get, List.getElem?_cons_zero,
    List.getElem?_cons_succ, cutHead_eq, bind, Except.bind]
  cases splitHead head <;> rfl

theorem memberAt_eq_map :
    memberAt = fun prev cs =>
      (memberMatch prev cs).map fun m => (classify m.1.1 m.1.2 (cs.take m.2), m.2) := by
  funext prev cs
  unfold memberAt memberMatch
  rw [Option.map_map]
  rfl

/-- Scanning for prototypes reads every capture group of every match without fault. -/
theorem scanPrototypesAt_eq (atLineStart : Bool) (text : List Char) :
    scanPrototypesAt atLineStart text = .ok (scanPrototypes atLineStart text) := by
  unfold scanPrototypesAt prototypeCaptures scanPrototypes
  cases atLineStart with
  | true =>
    have hfound := mapM_eq_ok_map (lineMatches text)
      (fun x _ => prototypeOfCaptures_eq x.1 x.2.1 x.2.2)
    simp only [if_true, List.mapM_map, Function.comp_def, hfound, bind, Except.bind,
      List.filterMap_map]
    rfl
  | false =>
    have hfound := mapM_eq_ok_map (occurrences memberMatch none 0 text)
      (fun x _ => prototypeOfCaptures_eq x.1.1 x.1.2 ((text.drop x.2.1).take x.2.2))
    rw [membersFrom, memberAt_eq_map,
      occurrences_map (fun (a : List Char × List Char) w => classify a.1 a.2 w) text none 0 text
        List.drop_zero]
    simp only [Bool.false_eq_true, if_false, locate, List.map_map, List.mapM_map,
      Function.comp_def, hfound, bind, Except.bind, List.filterMap_map]
    rfl

theorem splitAtLast_length_le {x : Char} {cs params tail : List Char}
    (h : splitAtLast x cs = some (params, tail)) : params.length ≤ cs.length := by
  unfold splitAtLast at h
  dsimp only at h
  split_ifs at h
  cases h
  exact List.length_take_le' _ _

/-- The parameter text of a prototype lies inside the text it was found in. -/
theorem prototypeAt_params_le {cs head params : List Char} {n : Nat}
    (h : prototypeAt cs = some (head, params, n)) : params.length ≤ cs.length := by
  obtain _ | ⟨c, rest⟩ := cs
  · cases h
  obtain ⟨mid, after, hs⟩ : ∃ mid after, spanClass (fun d => !breaksHead d) rest = (mid, after) :=
    ⟨_, _, rfl⟩
  unfold prototypeAt at h
  simp only [hs] at h
  split_ifs at h with hc
  split at h
  · rename_i inner
    obtain ⟨region, stop, hr⟩ : ∃ region stop,
        spanClass (fun d => !(d == ';' || d == '{' || d == '}')) inner = (region, stop) :=
      ⟨_, _, rfl⟩
    simp only [hr] at h
    split_ifs at h with hstop
    split at h
    · rename_i params' tail hsplit
      split_ifs at h with htail
      cases h
      -- the parameters lie inside the region, the region inside the text after `(`
      have h1 := splitAtLast_length_le hsplit
      have h2 := spanClass_length hr
      have h3 := spanClass_length hs
      simp only [List.length_cons] at h3 ⊢
      omega
    · cases h
  · cases h

theorem lineMatches_params_le (cs : List Char) :
    ∀ m ∈ lineMatches cs, m.2.1.length ≤ cs.length := by
  fun_induction lineMatches cs with
  | case1 cs indent body hs head params n hp found r hr hlt ih =>
    intro m hm
    rcases List.mem_cons.mp hm with rfl | hm
    · -- the prototype's parameters lie in the line after its indentation
      have h := spanClass_length hs
      exact (prototypeAt_params_le hp).trans (by omega)
    · exact (ih m hm).trans hlt.le
  | case2 cs indent body hs head params n hp found hr =>
    intro m hm
    rw [List.mem_singleton] at hm
    subst hm
    have h := spanClass_length hs
    exact (prototypeAt_params_le hp).trans (by omega)
  | case3 cs indent body hs hp r hr hlt ih =>
    intro m hm
    exact (ih m hm).trans hlt.le
  | case4 =>
    intro m hm
    cases hm

theorem classify_params {head params whole : List Char} {p : Prototype}
    (h : classify head params whole = some (.ok p)) : p.params.length = params.length := by
  unfold classify at h
  split at h
  · cases h
  · cases h
  · cases h
    exact String.length_ofList

/-- Every prototype found in a text has a parameter list no longer than the text. -/
theorem scanPrototypes_params_le {atLineStart : Bool} {text : List Char} {p : Prototype}
    (hp : p ∈ prototypesOf (scanPrototypes atLineStart text)) : p.params.length ≤ text.length := by
  obtain ⟨r, hr, hrp⟩ := List.mem_filterMap.mp hp
  obtain rfl : r = .ok p := by
    cases r with
    | ok q => cases hrp; rfl
    | error e => cases hrp
  cases atLineStart with
  | true =>
    obtain ⟨⟨head, params, whole⟩, hm, hc⟩ := List.mem_filterMap.mp hr
    rw [classify_params hc]
    exact lineMatches_params_le text _ hm
  | false =>
    obtain ⟨⟨a, pos, n⟩, hm, hc⟩ := List.mem_filterMap.mp hr
    obtain ⟨prev, hf⟩ := occurrences_sound text none 0 text List.drop_zero a pos n hm
    obtain ⟨⟨head, params, n'⟩, hproto, heq⟩ := Option.map_eq_some_iff.mp hf
    cases heq
    -- the prototype was found in the text from its start on
    rw [classify_params hc]
    exact (prototypeAt_params_le hproto).trans (by simp)

theorem parseSection_eq (cls : String) {part : List Char} (h : part.length ≤ 2147483647) :
    parseSection cls part = .ok (readSection cls part) := by
  have hmembers : ((prototypesOf (scanPrototypes false part)).mapM fun p =>
      memberOf cls p <$> parseParameters p.params p.name) =
      .ok ((prototypesOf (scanPrototypes false part)).map fun p =>
        memberOf cls p (readParameters p.params p.name)) :=
    mapM_eq_ok_map _ fun p hp => by
      rw [parseParameters_eq ((scanPrototypes_params_le hp).trans h)]
      rfl
  simp only [parseSection, readSection, scanPrototypesAt_eq, hmembers, bind, Except.bind]
  rfl

theorem parseFunctions_eq {text : List Char} (h : text.length ≤ 2147483647) :
    parseFunctions text = .ok (readFunctions text) := by
  unfold parseFunctions readFunctions
  rw [scanPrototypesAt_eq]
  simp only [bind, Except.bind]
  rw [mapM_eq_ok_map _ (g := fun (p : Prototype) => if p.returnPart.isEmpty then
      ([], [.malformedDeclaration p.fragment]) else
      ([FunctionDecl.free p.name (TypeName.resolveDeclared p.returnPart)
        (readParameters p.params p.name).1], (readParameters p.params p.name).2)) ?_]
  · rfl
  · intro p hp
    split_ifs
    · rfl
    · rw [parseParameters_eq ((scanPrototypes_params_le hp).trans h)]
      rfl

/-! ## Classes -/

theorem publicSections_length_le (body : List Char) :
    ∀ part ∈ publicSections body, part.length ≤ body.length := by
  unfold publicSections
  dsimp only
  split_ifs
  · intro part hpart
    rw [List.mem_singleton.mp hpart]
  · intro part hpart
    obtain ⟨_, -, hx⟩ := List.mem_filterMap.mp hpart
    split_ifs at hx
    cases hx
    exact length_take_drop_le _ _ _

theorem flattenFrom_length_le (depth : Nat) (cs : List Char) :
    (flattenFrom depth cs).length ≤ cs.length := by
  fun_induction flattenFrom depth cs <;> (try simp only [List.length_cons]) <;> omega

/-- Public sections are cut between the byte offsets of their labels without fault. -/
theorem cutPublicSections_eq (body : List Char) :
    cutPublicSections body = .ok (publicSections body) := by
  unfold cutPublicSections publicSections locate
  simp only [List.isEmpty_map]
  split_ifs with hnone
  · rfl
  · -- label offsets are the byte offsets of the labels' characters, and each section ends at or
    -- after the end of its label
    set occ := occurrences accessLabelAt none 0 body
    have hfit := Apart.end_le_next (accessLabels_apart body)
    have hends : ((occ.map fun x => (⟨byteLength (body.take x.2.1),
          byteLength (body.take (x.2.1 + x.2.2)), ⟨[some ((body.drop x.2.1).take x.2.2),
            some x.1.toList]⟩⟩ : Located)).drop 1).map (·.start) ++ [byteLength body] =
        ((occ.drop 1).map (·.2.1) ++ [body.length]).map fun j => byteLength (body.take j) := by
      simp [List.take_length, Function.comp_def]
    rw [hends, List.zip_map, List.mapM_map,
      mapM_eq_ok_map _ (g := fun x => if x.1.1 == "public" then
        some ((body.drop (x.1.2.1 + x.1.2.2)).take (x.2 - (x.1.2.1 + x.1.2.2))) else none) ?_]
    · simp only [bind, Except.bind, List.filterMap_map]
      rfl
    · rintro ⟨⟨w, p, n⟩, e⟩ hx
      have hle := hfit _ hx
      have hword : (w.toList == "public".toList) = (w == "public") := by
        rw [Bool.eq_iff_iff, beq_iff_eq, beq_iff_eq, String.toList_inj]
      simp only [Function.comp_def, Prod.map, Captures.get, List.getElem?_cons_zero,
        List.getElem?_cons_succ, bind, Except.bind, byteLength_eq, slice_take body hle, hword]
      split_ifs <;> rfl

/-- A class reading with its span given in bytes of `T`. -/
def ClassReading.inBytes (T : List Char) (r : ClassReading) : ClassReading :=
  { r with span := r.span.map (byteSpan T) }

/-- The body of the block whose `{` is character `q` of `T` is cut between the byte after the
`{` and the byte offset of its `}`. -/
theorem slice_block {T : List Char} {q k : Nat} (hq : T[q]? = some '{')
    (hk : closingIndex (T.drop q) = some k) :
    slice T (String.utf8Len (T.take q) + 1) (String.utf8Len (T.take (q + k))) =
      .ok (((T.drop q).drop 1).take (k - 1)) := by
  have hopen : (T.drop q).head? = some '{' := by rw [List.head?_drop]; exact hq
  obtain ⟨hk0, -⟩ := closingIndex_after_open hopen hk
  have hafter : String.utf8Len (T.take q) + 1 = String.utf8Len (T.take (q + 1)) :=
    (utf8Len_take_succ hq).symm
  rw [hafter, slice_take T (by omega), List.drop_drop,
    show q + k - (q + 1) = k - 1 by omega]

/-- The public sections of a class body shorter than `2 ^ 31` characters are read without
fault. -/
theorem parseSections_eq (cls : String) {body : List Char} (h : body.length ≤ 2147483647) :
    (publicSections (flattenFrom 0 (cutFrom {} body))).mapM (parseSection cls) =
      .ok ((publicSections (flattenFrom 0 (cutFrom {} body))).map (readSection cls)) := by
  have hflat : (flattenFrom 0 (cutFrom {} body)).length ≤ body.length :=
    (flattenFrom_length_le 0 _).trans (cutFrom_sublist {} body).length_le
  exact mapM_eq_ok_map _ fun part hpart =>
    parseSection_eq cls ((publicSections_length_le _ part hpart).trans (hflat.trans h))

/-- A class whose head matched at position `pos` of `T` is read without fault: its body is cut
between the byte after its `{` and its `}`, and its span is the byte range of its characters. -/
theorem parseClass_eq {T : List Char} (hT : T.length ≤ 2147483647) {prev : Option Char}
    {head : ClassHead} {pos n : Nat} (h : classHeadAt prev (T.drop pos) = some (head, n)) :
    parseClass T ⟨byteLength (T.take pos), byteLength (T.take (pos + n)),
        ⟨[some ((T.drop pos).take n), some head.name.toList]⟩⟩ =
      .ok ((readClass head pos).inBytes T) := by
  obtain ⟨hn, hopen, hclose, hbody⟩ := classHeadAt_block h
  rw [List.drop_drop] at hopen hclose hbody
  -- the head ends with its `{`, one byte wide, so the byte before the match's end is the `{`
  have hq : T[pos + (n - 1)]? = some '{' := by rw [← List.head?_drop]; exact hopen
  have hstop : byteLength (T.take (pos + n)) - 1 = String.utf8Len (T.take (pos + (n - 1))) := by
    rw [byteLength_eq, show pos + n = pos + (n - 1) + 1 by omega, utf8Len_take_succ hq]
    rfl
  unfold parseClass readClass ClassReading.inBytes
  simp only [List.getElem?_cons_succ, List.getElem?_cons_zero, String.ofList_toList, hstop,
    matchingBrace_eq hq, bind, Except.bind, hclose]
  cases hk : closingIndex (T.drop (pos + (n - 1))) with
  | none => rfl
  | some k =>
    obtain ⟨-, hkc⟩ := closingIndex_after_open hopen hk
    rw [List.getElem?_drop] at hkc
    -- the `}` is one byte wide too, so the span ends one byte after the `}` starts
    have hend := (utf8Len_take_succ hkc).symm
    have hlen : head.body.length ≤ 2147483647 := by
      rw [hbody k hk, List.drop_drop]
      exact (length_take_drop_le T _ _).trans hT
    simp only [Option.map_some, slice_block hq hk, ← hbody k hk, cutPublicSections_eq,
      parseSections_eq head.name hlen, byteSpan, byteLength_eq,
      show pos + (n - 1 + k) + 1 = pos + (n - 1) + k + 1 by omega, ← hend]
    rfl

theorem parseClasses_eq {T : List Char} (hT : T.length ≤ 2147483647) :
    parseClasses T =
      .ok ((readClasses T).1, (readClasses T).2.1.map (byteSpan T), (readClasses T).2.2) := by
  have hfound : (locate classHeadAt (fun head => [some head.name.toList]) T).mapM (parseClass T) =
      .ok (((occurrences classHeadAt none 0 T).map fun o => readClass o.1 o.2.1).map
        (ClassReading.inBytes T)) := by
    unfold locate
    rw [List.mapM_map, List.map_map]
    refine mapM_eq_ok_map _ fun o ho => ?_
    obtain ⟨head, pos, n⟩ := o
    obtain ⟨prev, hf⟩ := occurrences_sound T none 0 T List.drop_zero head pos n ho
    exact parseClass_eq hT hf
  simp only [parseClasses, readClasses, hfound, bind, Except.bind, List.filterMap_map,
    List.map_filterMap, List.flatMap_map]
  rfl

/-! ## Constants and the library name -/

theorem defineOfCaptures_eq {line : List Char} {caps : Captures}
    (h : defineCaptures line = some caps) : defineOfCaptures caps = .ok (defineOfLine line) := by
  obtain ⟨⟨name, paren, rest⟩, hm, rfl⟩ := Option.map_eq_some_iff.mp h
  cases paren with
  | true => simp [defineOfCaptures, defineOfLine, macroOfLine, hm, Captures.get, Captures.has]
  | false =>
    have hmacro : macroOfLine line =
        if (trimChars rest).isEmpty then none else some (name, trimChars rest) := by
      simp only [macroOfLine, hm]
    -- the include-guard test and the emptiness test come in another order, to the same effect
    by_cases hguard : isIncludeGuard name <;> by_cases hempty : trimChars rest = [] <;>
      simp [defineOfCaptures, defineOfLine, hmacro, hguard, hempty, Captures.get, Captures.has,
        bind, Except.bind, pure, Except.pure]
    split_ifs <;> rfl

theorem defineOfLine_of_none {line : List Char} (h : defineCaptures line = none) :
    defineOfLine line = none := by
  rw [defineCaptures, Option.map_eq_none_iff] at h
  simp [defineOfLine, macroOfLine, h]

theorem parseDefines_found : ∀ lines : List (List Char), ∃ found,
    (lines.filterMap defineCaptures).mapM defineOfCaptures = .ok found ∧
      found.filterMap id = lines.filterMap defineOfLine
  | [] => ⟨[], rfl, rfl⟩
  | l :: ls => by
    obtain ⟨found, hfound, hids⟩ := parseDefines_found ls
    cases hc : defineCaptures l with
    | none =>
      refine ⟨found, ?_, ?_⟩
      · rw [List.filterMap_cons_none hc, hfound]
      · rw [List.filterMap_cons_none (defineOfLine_of_none hc), hids]
    | some caps =>
      refine ⟨defineOfLine l :: found, ?_, ?_⟩
      · rw [List.filterMap_cons_some hc, List.mapM_cons, defineOfCaptures_eq hc, hfound]
        rfl
      · cases hd : defineOfLine l with
        | none => rw [List.filterMap_cons_none (f := id) rfl, List.filterMap_cons_none hd, hids]
        | some r => rw [List.filterMap_cons_some (f := id) rfl, List.filterMap_cons_some hd, hids]

theorem parseDefines_eq (text : List Char) : parseDefines text = .ok (readDefines text) := by
  obtain ⟨found, hfound, hids⟩ := parseDefines_found (text.splitOn '\n')
  simp only [parseDefines, readDefines, hfound, bind, Except.bind, hids]
  rfl

theorem parseConstGlobals_eq (text : List Char) :
    parseConstGlobals text = .ok (readConstGlobals text) := by
  unfold parseConstGlobals readConstGlobals locate
  rw [List.mapM_map]
  exact mapM_eq_ok_map _ fun _ _ => rfl

/-- The library name is cut off before its extension at a character boundary. -/
theorem cutLibraryName_eq (sourceId : String) : cutLibraryName sourceId = .ok (libraryName sourceId) := by
  unfold cutLibraryName libraryName
  dsimp only
  by_cases hpp : (String.ofList (sourceId.toList.map Char.toLower)).endsWith ".hpp"
  · simp only [List.find?_cons, hpp, if_true]
    rw [byteLength_sub_suffix hpp, slice_zero_take]
    rfl
  · by_cases hh : (String.ofList (sourceId.toList.map Char.toLower)).endsWith ".h"
    · simp only [List.find?_cons, hpp, hh, if_true, if_false, Bool.false_eq_true]
      rw [byteLength_sub_suffix hh, slice_zero_take]
      rfl
    · simp only [List.find?_cons, hpp, hh, if_false, Bool.false_eq_true, List.find?_nil]
      rfl

/-! ## The whole reading -/

theorem eraseFrom_length_le (st : CommentScan) (cs : List Char) :
    (eraseFrom st cs).length ≤ cs.length := by
  fun_induction eraseFrom st cs <;> (try simp only [List.length_cons]) <;> omega

theorem parseText_eq {content : String} (h : content.length ≤ 2147483647) (sourceId : String) :
    parseText content.toList sourceId = .ok (read content sourceId) := by
  have hclean : (eraseFrom .code content.toList).length ≤ 2147483647 :=
    (eraseFrom_length_le _ _).trans (by rw [String.length_toList]; exact h)
  -- the text outside classes is blanked at the byte offsets of the class spans
  have hblank := blankFrom_byteSpans (eraseFrom .code content.toList)
    (readClasses (eraseFrom .code content.toList)).2.1 _ 0 List.drop_zero
  rw [List.take_zero, String.utf8Len_nil] at hblank
  have hfunctions := parseFunctions_eq
    (by rw [blankFrom_length]; exact hclean :
      (blankFrom (fun _ => 1) (readClasses (eraseFrom .code content.toList)).2.1 0
        (eraseFrom .code content.toList)).length ≤ 2147483647)
  simp only [parseText, read, cutLibraryName_eq, parseDefines_eq, parseConstGlobals_eq,
    parseClasses_eq hclean, hblank, hfunctions, bind, Except.bind]
  rfl

/-- **The reader never faults.** Every header of fewer than `2 ^ 31` bytes is read without
fault, under any file name, into the reading that `read` gives: `parse` never answers a
`ParseError`. -/
theorem parse_eq_ok_read (content sourceId : String) (h : content.utf8ByteSize < 2 ^ 31) :
    parse content sourceId = .ok (read content sourceId) := by
  have hlen : content.length ≤ 2147483647 := by
    have := length_le_utf8Len content.toList
    rw [String.utf8Len_toList, String.length_toList] at this
    omega
  rw [parse, parseText_eq hlen]

/-- A class with a method, after a comment holding a two-byte letter. -/
theorem parse_eq_ok_read_servo :
    "class Servo \x7b\npublic:\n  void attach(int pin);\n\x7d;\n// Gerät\n".utf8ByteSize < 2 ^ 31 ∧
      parse "class Servo \x7b\npublic:\n  void attach(int pin);\n\x7d;\n// Gerät\n" "Servo.h" =
        .ok (read "class Servo \x7b\npublic:\n  void attach(int pin);\n\x7d;\n// Gerät\n" "Servo.h") :=
  ⟨by decide, parse_eq_ok_read _ _ (by decide)⟩

end Breadboard.Header
