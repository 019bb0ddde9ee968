import Mathlib.Data.List.Forall2
import Breadboard.Proofs.Json.Reading

/-!
# Decoding written JSON

Each decoder of `Breadboard.Json` reads back what the pretty writer wrote. `Json.Decodes d depth t a`
says that decoder `d`, allowed `depth` more levels of nesting, reads the bytes `t` (the text of a
value, after any blanks) as `a`, wherever they stand and whatever follows; `t` starts with a byte
that can open a value, so a list or an object knows where an item begins.

* scalars: `decodes_string`, `decodes_bool`, `decodes_option_null`, `decodes_option_some`,
  `decodes_variant`;
* `decodes_list`: an array whose items are read by `d` is read as the list of its items;
* `decodes_record`: an object whose members are the fields of a record form, each read by its
  field and none twice, is read as the record its complete draft stands for;
* `decodeText_of_decodes`: a whole text read this way decodes, with nothing after it.

From these, the reader of every shape reads the text of every value the shape reads
(`Shape.Reads.decodes`), so the text layer that runs is lawful (`serdeJson_lawful`).
-/

namespace Breadboard.Json

open ReadM

/-! ## What a value's text starts with -/

/-- A byte that opens the text of a value other than a number: a quote, a bracket, a brace,
or the first letter of `true`, `false` or `null`. -/
def opensValue (c : UInt8) : Bool :=
  c == 0x22 || c == 0x5B || c == 0x7B || c == 0x74 || c == 0x66 || c == 0x6E

theorem opensValue_cases {c : UInt8} (h : opensValue c = true) :
    c = 0x22 ∨ c = 0x5B ∨ c = 0x7B ∨ c = 0x74 ∨ c = 0x66 ∨ c = 0x6E := by
  simp only [opensValue, Bool.or_eq_true, beq_iff_eq] at h
  rcases h with ((((h | h) | h) | h) | h) | h <;> simp [h]

theorem isBlank_of_opensValue {c : UInt8} (h : opensValue c = true) : isBlank c = false := by
  rcases opensValue_cases h with rfl | rfl | rfl | rfl | rfl | rfl <;> rfl

/-- The bytes of a value's pretty text at nesting level `level`. -/
def textBytes (level : Nat) (v : Value) : List UInt8 :=
  (v.pretty level).toUTF8.data.toList

/-- Decoder `d`, with `depth` levels of nesting left, reads the bytes `t`, after any blanks, as
`a`, wherever they stand; `t` starts with a byte that opens a value. -/
structure Decodes {α : Type} (d : Decoder α) (depth : Nat) (t : List UInt8) (a : α) : Prop where
  opens : ∃ c rest, t = c :: rest ∧ opensValue c = true
  reads : ∀ (b : ByteArray) (p : Nat) (bl : List UInt8), (∀ x ∈ bl, isBlank x = true) →
    Starts b p (bl ++ t) → d depth b p = (.ok a, p + bl.length + t.length)

/-! ## Texts -/

theorem blank_nil : ∀ x ∈ ([] : List UInt8), isBlank x = true :=
  fun _ h => absurd h List.not_mem_nil

theorem indent_blank (level : Nat) : ∀ x ∈ (indentText level).toUTF8.data.toList, isBlank x = true := by
  intro x hx
  rw [indentText, String.toUTF8_eq_toByteArray, String.toByteArray_ofList, List.utf8Encode,
    List.toList_data_toByteArray, List.mem_flatMap] at hx
  obtain ⟨c, hc, hx⟩ := hx
  rw [List.eq_of_mem_replicate hc] at hx
  have hsp : String.utf8EncodeChar ' ' = [0x20] := rfl
  rw [hsp, List.mem_singleton] at hx
  subst hx
  rfl

/-- The bytes of a quoted string. -/
def quoteBytes (s : String) : List UInt8 :=
  0x22 :: (s.toList.flatMap escapedBytes ++ [0x22])

theorem textBytes_str (level : Nat) (s : String) : textBytes level (.str s) = quoteBytes s :=
  quote_bytes s

/-! ## Scalars -/

theorem decodes_string (depth level : Nat) (s : String) :
    Decodes string depth (textBytes level (.str s)) s where
  opens := ⟨0x22, _, textBytes_str level s, rfl⟩
  reads b p bl hbl h := by
    rw [textBytes_str] at h ⊢
    apply placed_of_ok
    rw [bind_of_ok (skipBlank_of_starts bl hbl rfl h)]
    show (eat >>= fun _ => readString) b (p + bl.length) = _
    rw [bind_of_ok rfl, readString_of_starts s h.right.cons]
    simp only [quoteBytes, List.length_cons, List.length_append, List.length_nil]
    congr 1
    omega

/-- The bytes of `true` or `false`. -/
def boolBytes : Bool → List UInt8
  | true => [0x74, 0x72, 0x75, 0x65]
  | false => [0x66, 0x61, 0x6C, 0x73, 0x65]

theorem textBytes_bool (level : Nat) (x : Bool) : textBytes level (.bool x) = boolBytes x := by
  cases x <;> rfl

theorem decodes_bool (depth level : Nat) (x : Bool) :
    Decodes bool depth (textBytes level (.bool x)) x := by
  rw [textBytes_bool]
  cases x
  · refine ⟨⟨0x66, _, rfl, rfl⟩, fun b p bl hbl h => placed_of_ok ?_⟩
    rw [bind_of_ok (skipBlank_of_starts bl hbl rfl h)]
    show (eat >>= fun _ => keyword "alse" >>= fun _ => pure false) b (p + bl.length) = _
    rw [bind_of_ok rfl, bind_of_ok (keyword_of_starts (by decide +kernel) h.right.cons)]
    rfl
  · refine ⟨⟨0x74, _, rfl, rfl⟩, fun b p bl hbl h => placed_of_ok ?_⟩
    rw [bind_of_ok (skipBlank_of_starts bl hbl rfl h)]
    show (eat >>= fun _ => keyword "rue" >>= fun _ => pure true) b (p + bl.length) = _
    rw [bind_of_ok rfl, bind_of_ok (keyword_of_starts (by decide +kernel) h.right.cons)]
    rfl

theorem textBytes_null (level : Nat) : textBytes level .null = [0x6E, 0x75, 0x6C, 0x6C] := rfl

/-- `null` where an optional value is read stands for its absence. -/
theorem decodes_option_null {d : Decoder α} (depth level : Nat) :
    Decodes (option d) depth (textBytes level .null) none := by
  rw [textBytes_null]
  refine ⟨⟨0x6E, _, rfl, rfl⟩, fun b p bl hbl h => ?_⟩
  unfold option
  rw [bind_of_ok (skipBlank_of_starts bl hbl rfl h)]
  show (eat >>= fun _ => keyword "ull" >>= fun _ => pure none) b (p + bl.length) = _
  rw [bind_of_ok rfl, bind_of_ok (keyword_of_starts (by decide +kernel) h.right.cons)]
  rfl

/-- A text that does not start like `null`, where an optional value is read, stands for what the
reader of the present value reads. -/
theorem decodes_option_some {d : Decoder α} {depth : Nat} {t : List UInt8} {a : α}
    (hd : Decodes d depth t a) (hn : t.head? ≠ some 0x6E) :
    Decodes (option d) depth t (some a) where
  opens := hd.opens
  reads b p bl hbl h := by
    obtain ⟨c, t', rfl, hc⟩ := hd.opens
    have hsk := skipBlank_of_starts bl hbl (isBlank_of_opensValue hc) h
    have hread := hd.reads b (p + bl.length) [] blank_nil (h.right : Starts b _ ([] ++ c :: t'))
    have hcn : c ≠ 0x6E := fun hc' => hn (by simp [hc'])
    have hsome : (some <$> d depth) b (p + bl.length) =
        (.ok (some a), p + bl.length + (c :: t').length) := by
      rw [map_of_ok hread]
      simp
    unfold option
    rw [bind_of_ok hsk]
    -- the reader peeks at the first byte, which opens a value other than `null`
    rcases opensValue_cases hc with rfl | rfl | rfl | rfl | rfl | rfl
    · exact hsome
    · exact hsome
    · exact hsome
    · exact hsome
    · exact hsome
    · exact absurd rfl hcn

/-- The name of a variant, as a string, reads as the variant it names. -/
theorem decodes_variant {α : Type} {variants : List (String × α)} {s : String} {v : α}
    (depth level : Nat) (hv : variants.lookup s = some v) :
    Decodes (variant variants) depth (textBytes level (.str s)) v where
  opens := ⟨0x22, _, textBytes_str level s, rfl⟩
  reads b p bl hbl h := by
    rw [textBytes_str] at h ⊢
    unfold variant
    rw [bind_of_ok (skipBlank_of_starts bl hbl rfl h)]
    show variantName variants "variant identifier" b (p + bl.length) = _
    apply placed_of_ok
    have h' : Starts b (p + bl.length) ([] ++ quoteBytes s) := h.right
    rw [bind_of_ok (skipBlank_of_starts [] blank_nil rfl h')]
    have heat : eat b (p + bl.length + 0) = (.ok (), p + bl.length + 1) := rfl
    refine ((bind_of_ok heat).trans (bind_of_ok (readString_of_starts s h.right.cons))).trans ?_
    rw [hv]
    simp only [quoteBytes, List.length_cons, List.length_append, List.length_nil]
    show (Except.ok v, _) = (Except.ok v, _)
    congr 1
    omega

/-! ## Arrays -/

theorem bytes_append (s t : String) :
    (s ++ t).toUTF8.data.toList = s.toUTF8.data.toList ++ t.toUTF8.data.toList := by
  simp

/-- The bytes of an indentation. -/
def indentBytes (level : Nat) : List UInt8 :=
  (indentText level).toUTF8.data.toList

/-- The bytes of the items of an array, each on its own line. -/
def itemsBytes (level : Nat) (vs : List Value) : List UInt8 :=
  (prettyItems level vs).toUTF8.data.toList

theorem textBytes_arr_nil (level : Nat) : textBytes level (.arr []) = [0x5B, 0x5D] := by
  simp [textBytes, Value.pretty]
  rfl

theorem textBytes_arr_cons (level : Nat) (v : Value) (vs : List Value) :
    textBytes level (.arr (v :: vs)) =
      0x5B :: 0x0A :: (itemsBytes (level + 1) (v :: vs) ++ 0x0A :: (indentBytes level ++ [0x5D])) := by
  simp only [textBytes, Value.pretty, bytes_append, itemsBytes, indentBytes]
  simp
  rfl

theorem itemsBytes_single (level : Nat) (v : Value) :
    itemsBytes level [v] = indentBytes level ++ textBytes level v := by
  simp only [itemsBytes, prettyItems, bytes_append, indentBytes, textBytes]

theorem itemsBytes_cons (level : Nat) (v w : Value) (ws : List Value) :
    itemsBytes level (v :: w :: ws) =
      indentBytes level ++ textBytes level v ++ 0x2C :: 0x0A :: itemsBytes level (w :: ws) := by
  simp only [itemsBytes, prettyItems, bytes_append, indentBytes, textBytes, List.append_assoc]
  rfl

variable {α : Type} {b : ByteArray}

/-- The first item of an array, after blanks. -/
theorem element_first {d : Decoder α} {depth : Nat} {t : List UInt8} {a : α}
    (hd : Decodes d depth t a) {p : Nat} {bl rest : List UInt8}
    (hbl : ∀ x ∈ bl, isBlank x = true) (h : Starts b p (bl ++ t ++ rest)) :
    element (d depth) true b p = (.ok (some a), p + bl.length + t.length) := by
  obtain ⟨c, t', rfl, hc⟩ := hd.opens
  have h' : Starts b p (bl ++ c :: (t' ++ rest)) := by simpa using h
  have hsk := skipBlank_of_starts bl hbl (isBlank_of_opensValue hc) h'
  have hread := hd.reads b (p + bl.length) [] blank_nil h.left.right
  rcases opensValue_cases hc with rfl | rfl | rfl | rfl | rfl | rfl <;>
    exact (bind_of_ok hsk).trans ((bind_of_ok rfl).trans (map_of_ok hread))

/-- A later item of an array: a comma, blanks, then the item. -/
theorem element_next {d : Decoder α} {depth : Nat} {t : List UInt8} {a : α}
    (hd : Decodes d depth t a) {p : Nat} {bl rest : List UInt8}
    (hbl : ∀ x ∈ bl, isBlank x = true) (h : Starts b p (0x2C :: (bl ++ t ++ rest))) :
    element (d depth) false b p = (.ok (some a), p + 1 + bl.length + t.length) := by
  obtain ⟨c, t', rfl, hc⟩ := hd.opens
  have hcomma : skipBlank b p = (.ok (some 0x2C), p) :=
    skipBlank_of_starts [] blank_nil rfl h
  have h' : Starts b (p + 1) (bl ++ c :: (t' ++ rest)) := by simpa using h.cons
  have hsk := skipBlank_of_starts bl hbl (isBlank_of_opensValue hc) h'
  have hread := hd.reads b (p + 1 + bl.length) [] blank_nil h.cons.left.right
  have hpeek : (eat >>= fun _ => some <$> skipBlank) b p = (.ok (some (some c)), p + 1 + bl.length) :=
    (bind_of_ok rfl).trans (map_of_ok hsk)
  rcases opensValue_cases hc with rfl | rfl | rfl | rfl | rfl | rfl <;>
    exact (bind_of_ok hcomma).trans ((bind_of_ok hpeek).trans (map_of_ok hread))

/-- The end of an array: blanks, then its closing bracket. -/
theorem element_end {d : ReadM α} (first : Bool) {p : Nat} {bl rest : List UInt8}
    (hbl : ∀ x ∈ bl, isBlank x = true) (h : Starts b p (bl ++ 0x5D :: rest)) :
    element d first b p = (.ok none, p + bl.length) :=
  (bind_of_ok (skipBlank_of_starts bl hbl rfl h)).trans rfl

/-- What separates an item from the one before it: nothing before the first, a comma before the
others. -/
def separator : Bool → List UInt8
  | true => []
  | false => [0x2C]

/-- An item of an array, after its separator and blanks. -/
theorem element_item {d : Decoder α} {depth : Nat} {t : List UInt8} {a : α}
    (hd : Decodes d depth t a) (first : Bool) {p : Nat} {bl rest : List UInt8}
    (hbl : ∀ x ∈ bl, isBlank x = true) (h : Starts b p (separator first ++ bl ++ t ++ rest)) :
    element (d depth) first b p =
      (.ok (some a), p + (separator first ++ bl ++ t).length) := by
  cases first
  · rw [element_next hd hbl h]
    simp only [separator, List.length_append, List.length_singleton]
    congr 1
    omega
  · rw [element_first hd hbl h]
    simp only [separator, List.nil_append, List.length_append]
    congr 1
    omega

theorem newline_indent_blank (level : Nat) : ∀ x ∈ 0x0A :: indentBytes level, isBlank x = true := by
  intro x hx
  rcases List.mem_cons.mp hx with rfl | hx
  · rfl
  · exact indent_blank level x hx

/-- One round per item of an array written at `level`, then the round that finds the closing
bracket after the newline and the indentation of `outer`. -/
theorem rounds_items {d : Decoder α} {depth level outer : Nat} {rest : List UInt8} :
    ∀ {vs : List Value} {as : List α},
      List.Forall₂ (fun v a => Decodes d depth (textBytes level v) a) vs as →
      vs ≠ [] → ∀ (first : Bool) (p : Nat),
      Starts b p (separator first ++ 0x0A :: itemsBytes level vs ++
        0x0A :: indentBytes outer ++ 0x5D :: rest) →
      Rounds (element (d depth)) b first p as
        (p + (separator first ++ 0x0A :: itemsBytes level vs ++ 0x0A :: indentBytes outer).length)
  | [], _, _, hne, _, _, _ => absurd rfl hne
  | [v], _, .cons hv .nil, _, first, p, h => by
    have h' : Starts b p (separator first ++ (0x0A :: indentBytes level) ++ textBytes level v ++
        ((0x0A :: indentBytes outer) ++ 0x5D :: rest)) := by
      simpa [itemsBytes_single] using h
    have hitem := element_item hv first (newline_indent_blank level) h'
    have hend := element_end (d := d depth) false (newline_indent_blank outer) h'.right
    refine .next hitem ?_ (h.lt_size_of_ne_nil (by simp)) (.last ?_)
    · simp only [List.length_append, List.length_cons]
      omega
    · rw [hend]
      simp [itemsBytes_single]
      omega
  | v :: w :: ws, _, .cons hv hrest, _, first, p, h => by
    have h' : Starts b p (separator first ++ (0x0A :: indentBytes level) ++ textBytes level v ++
        (separator false ++ 0x0A :: itemsBytes level (w :: ws) ++
          0x0A :: indentBytes outer ++ 0x5D :: rest)) := by
      simpa [itemsBytes_cons, separator] using h
    have hitem := element_item hv first (newline_indent_blank level) h'
    have hnext := rounds_items hrest (List.cons_ne_nil w ws) false _ h'.right
    have hq : p + (separator first ++ 0x0A :: itemsBytes level (v :: w :: ws) ++
          0x0A :: indentBytes outer).length =
        p + (separator first ++ (0x0A :: indentBytes level) ++ textBytes level v).length +
          (separator false ++ 0x0A :: itemsBytes level (w :: ws) ++
            0x0A :: indentBytes outer).length := by
      simp [itemsBytes_cons, separator]
      omega
    rw [hq]
    refine .next hitem ?_ (h.lt_size_of_ne_nil (by simp)) hnext
    simp only [List.length_append, List.length_cons]
    omega

/-- An array or object whose inside and closing bracket read back reads back, when one more level
may open. -/
theorem container_of_ok {depth : Nat} {inside : ReadM α} {close : ReadM Unit} {p q r : Nat}
    {a : α} (hdepth : 1 < depth) (hin : inside b (p + 1) = (.ok a, q))
    (hclose : close b q = (.ok (), r)) : container depth inside close b p = (.ok a, r) := by
  unfold container
  rw [if_neg (show ¬ depth ≤ 1 by omega)]
  simp only [bind, eat, attempt, hin, hclose]
  rfl

theorem closeArray_of_starts {p : Nat} {bl rest : List UInt8} (hbl : ∀ x ∈ bl, isBlank x = true)
    (h : Starts b p (bl ++ 0x5D :: rest)) : closeArray b p = (.ok (), p + bl.length + 1) :=
  (bind_of_ok (skipBlank_of_starts bl hbl rfl h)).trans rfl

/-- An array whose items are read by `d` one level further in is read by `list d` as the list
of what they read as. -/
theorem decodes_list {d : Decoder α} {depth level : Nat} {vs : List Value} {as : List α}
    (hdepth : 1 < depth)
    (hvs : List.Forall₂ (fun v a => Decodes d (depth - 1) (textBytes (level + 1) v) a) vs as) :
    Decodes (list d) depth (textBytes level (.arr vs)) as := by
  -- the empty array is written `[]`, any other with its items on lines of their own; either way
  -- the rounds of `collect` read the bytes between the brackets
  obtain ⟨inner, htext, hrounds⟩ : ∃ inner : List UInt8,
      textBytes level (.arr vs) = 0x5B :: (inner ++ [0x5D]) ∧
      ∀ (b : ByteArray) (p : Nat) (rest : List UInt8), Starts b p (inner ++ 0x5D :: rest) →
        Rounds (element (d (depth - 1))) b true p as (p + inner.length) := by
    cases hvs with
    | nil =>
      exact ⟨[], textBytes_arr_nil level, fun b p rest h => .last (element_end true blank_nil h)⟩
    | @cons v a vs' as' hv hrest =>
      refine ⟨0x0A :: itemsBytes (level + 1) (v :: vs') ++ 0x0A :: indentBytes level,
        ?_, fun b p rest h => rounds_items (.cons hv hrest) (List.cons_ne_nil v vs') true p h⟩
      rw [textBytes_arr_cons]
      simp
  refine ⟨⟨0x5B, _, htext, rfl⟩, fun b p bl hbl h => placed_of_ok ?_⟩
  rw [htext] at h ⊢
  rw [bind_of_ok (skipBlank_of_starts bl hbl rfl h)]
  have hin := collect_of_rounds (hrounds b _ [] h.right.cons)
  have hend : Starts b (p + bl.length + 1 + inner.length) ([] ++ [0x5D]) := h.right.cons.right
  show container depth (collect (element (d (depth - 1)))) closeArray b (p + bl.length) = _
  rw [container_of_ok hdepth hin (closeArray_of_starts blank_nil hend)]
  simp only [List.length_cons, List.length_append, List.length_nil]
  congr 1
  omega

/-! ## Objects -/

/-- The bytes of the members of an object, each on its own line. -/
def membersBytes (level : Nat) (ms : List (String × Value)) : List UInt8 :=
  (prettyMembers level ms).toUTF8.data.toList

theorem textBytes_obj_nil (level : Nat) : textBytes level (.obj []) = [0x7B, 0x7D] := by
  simp [textBytes, Value.pretty]
  rfl

theorem textBytes_obj_cons (level : Nat) (m : String × Value) (ms : List (String × Value)) :
    textBytes level (.obj (m :: ms)) =
      0x7B :: 0x0A :: (membersBytes (level + 1) (m :: ms) ++ 0x0A :: (indentBytes level ++ [0x7D])) := by
  simp only [textBytes, Value.pretty, bytes_append, membersBytes, indentBytes]
  simp
  rfl

theorem membersBytes_single (level : Nat) (k : String) (v : Value) :
    membersBytes level [(k, v)] =
      indentBytes level ++ quoteBytes k ++ 0x3A :: 0x20 :: textBytes level v := by
  simp only [membersBytes, prettyMembers, bytes_append, indentBytes, textBytes, quote_bytes,
    quoteBytes, List.append_assoc]
  rfl

theorem membersBytes_cons (level : Nat) (k : String) (v : Value) (m : String × Value)
    (ms : List (String × Value)) :
    membersBytes level ((k, v) :: m :: ms) =
      indentBytes level ++ quoteBytes k ++ 0x3A :: 0x20 :: textBytes level v ++
        0x2C :: 0x0A :: membersBytes level (m :: ms) := by
  simp only [membersBytes, prettyMembers, bytes_append, indentBytes, textBytes, quote_bytes,
    quoteBytes, List.append_assoc]
  rfl

/-- The quoted key, once its opening quote is reached: past the quote, the key is read. -/
theorem key_body {k : String} {p : Nat} {rest : List UInt8} (h : Starts b p (quoteBytes k ++ rest)) :
    (eat >>= fun _ => some <$> readString) b p =
      (.ok (some k), p + 1 + (k.toList.flatMap escapedBytes).length + 1) :=
  (bind_of_ok rfl).trans (map_of_ok (readString_of_starts k (h.left : Starts b p (quoteBytes k)).cons))

/-- A key after its separator and blanks. -/
theorem key_item (first : Bool) {k : String} {p : Nat} {bl rest : List UInt8}
    (hbl : ∀ x ∈ bl, isBlank x = true) (h : Starts b p (separator first ++ bl ++ quoteBytes k ++ rest)) :
    key first b p = (.ok (some k), p + (separator first ++ bl ++ quoteBytes k).length) := by
  cases first
  · -- a comma, then blanks, then the key
    have h' : Starts b (p + 1) (bl ++ 0x22 :: (k.toList.flatMap escapedBytes ++ [0x22] ++ rest)) := by
      simpa [separator, quoteBytes] using h.cons
    have hcomma : skipBlank b p = (.ok (some 0x2C), p) :=
      skipBlank_of_starts [] blank_nil rfl h
    have hpeek : (eat >>= fun _ => some <$> skipBlank) b p =
        (.ok (some (some 0x22)), p + 1 + bl.length) :=
      (bind_of_ok rfl).trans (map_of_ok (skipBlank_of_starts bl hbl rfl h'))
    have hbody := key_body (h'.right : Starts b _ (quoteBytes k ++ rest))
    refine ((bind_of_ok hcomma).trans ((bind_of_ok hpeek).trans hbody)).trans ?_
    simp [separator, quoteBytes]
    omega
  · have h' : Starts b p (bl ++ 0x22 :: (k.toList.flatMap escapedBytes ++ [0x22] ++ rest)) := by
      simpa [separator, quoteBytes] using h
    have hpeek : (pure (some (some 0x22)) : ReadM (Option (Option UInt8))) b (p + bl.length) =
        (.ok (some (some 0x22)), p + bl.length) := rfl
    have hbody := key_body (h'.right : Starts b _ (quoteBytes k ++ rest))
    refine ((bind_of_ok (skipBlank_of_starts bl hbl rfl h')).trans
      ((bind_of_ok hpeek).trans hbody)).trans ?_
    simp [separator, quoteBytes]
    omega

/-- The end of an object: blanks, then its closing brace. -/
theorem key_end (first : Bool) {p : Nat} {bl rest : List UInt8}
    (hbl : ∀ x ∈ bl, isBlank x = true) (h : Starts b p (bl ++ 0x7D :: rest)) :
    key first b p = (.ok none, p + bl.length) :=
  (bind_of_ok (skipBlank_of_starts bl hbl rfl h)).trans rfl

theorem colon_of_starts {p : Nat} {rest : List UInt8} (h : Starts b p (0x3A :: rest)) :
    colon b p = (.ok (), p + 1) :=
  (bind_of_ok (skipBlank_of_starts [] blank_nil rfl h)).trans rfl

theorem closeObject_of_starts {p : Nat} {bl rest : List UInt8} (hbl : ∀ x ∈ bl, isBlank x = true)
    (h : Starts b p (bl ++ 0x7D :: rest)) : closeObject b p = (.ok (), p + bl.length + 1) :=
  (bind_of_ok (skipBlank_of_starts bl hbl rfl h)).trans rfl

/-! ## Records -/

section Records

variable {δ : Type}

/-- A member of a record's object, after its separator and the newline and indentation before its
key, is read into the draft by the field its key names. -/
theorem member_of_starts {form : RecordForm δ α} {depth level : Nat} (first : Bool) {d d₁ : δ}
    {k : String} {f : FieldForm δ} {t : List UInt8} {p : Nat} {rest : List UInt8}
    (hfind : form.fields.find? (·.names.contains k) = some f) (hset : f.isSet d = false)
    (hread : Decodes (fun n => f.read n d) depth t d₁)
    (h : Starts b p (separator first ++ 0x0A :: indentBytes level ++ quoteBytes k ++
      0x3A :: 0x20 :: t ++ rest)) :
    form.member depth first d b p = (.ok (some d₁), p + (separator first ++ 0x0A :: indentBytes level ++
      quoteBytes k ++ 0x3A :: 0x20 :: t).length) := by
  have h₁ : Starts b p (separator first ++ 0x0A :: indentBytes level ++ quoteBytes k ++
      (0x3A :: 0x20 :: t ++ rest)) := by
    simpa only [List.append_assoc] using h
  have hkey := key_item first (newline_indent_blank level) h₁
  have hcolon := colon_of_starts h₁.right
  have hval := hread.reads b _ [0x20] (by simp [isBlank])
    (h₁.right.cons.left : Starts b _ ([0x20] ++ t))
  unfold RecordForm.member
  rw [bind_of_ok hkey]
  simp only [hfind, hset, Bool.false_eq_true, ↓reduceIte]
  rw [bind_of_ok hcolon, map_of_ok hval]
  simp only [List.length_append, List.length_cons, List.length_nil]
  congr 1
  omega

/-- Blanks and then the closing brace end the members. -/
theorem member_end {form : RecordForm δ α} {depth : Nat} (first : Bool) {d : δ} {p : Nat}
    {bl rest : List UInt8} (hbl : ∀ x ∈ bl, isBlank x = true) (h : Starts b p (bl ++ 0x7D :: rest)) :
    form.member depth first d b p = (.ok none, p + bl.length) :=
  (bind_of_ok (key_end first hbl h)).trans rfl

/-- `MembersRead form depth level d ms d'`: the members `ms`, written at `level`, read one after
the other into the draft `d`, give the draft `d'`. The key of each member names a field that the
draft does not have yet, and that field's reader takes the member's value. -/
inductive MembersRead (form : RecordForm δ α) (depth level : Nat) :
    δ → List (String × Value) → δ → Prop
  | nil {d : δ} : MembersRead form depth level d [] d
  | cons {d d₁ d' : δ} {k : String} {v : Value} {f : FieldForm δ} {ms : List (String × Value)}
      (hfind : form.fields.find? (·.names.contains k) = some f) (hset : f.isSet d = false)
      (hread : Decodes (fun n => f.read n d) depth (textBytes level v) d₁)
      (hrest : MembersRead form depth level d₁ ms d') :
      MembersRead form depth level d ((k, v) :: ms) d'

/-- One round of `iterate` per member, then the round that finds the closing brace after the
newline and the indentation of `outer`. -/
theorem steps_members {form : RecordForm δ α} {depth level outer : Nat} {rest : List UInt8}
    {d d' : δ} {ms : List (String × Value)} (hm : MembersRead form depth level d ms d')
    (hne : ms ≠ []) (first : Bool) (p : Nat)
    (h : Starts b p (separator first ++ 0x0A :: membersBytes level ms ++
      0x0A :: indentBytes outer ++ 0x7D :: rest)) :
    Steps (form.member depth) b first d p d'
      (p + (separator first ++ 0x0A :: membersBytes level ms ++ 0x0A :: indentBytes outer).length) := by
  -- the induction runs over the members read; the last one is followed by the closing brace
  induction hm generalizing first p with
  | nil => exact absurd rfl hne
  | @cons d d₁ d' k v f ms hfind hset hread hrest ih =>
    cases ms with
    | nil =>
      cases hrest
      have h' : Starts b p (separator first ++ 0x0A :: indentBytes level ++ quoteBytes k ++
          0x3A :: 0x20 :: textBytes level v ++ (0x0A :: indentBytes outer ++ 0x7D :: rest)) := by
        simpa [membersBytes_single] using h
      have hmem := member_of_starts first hfind hset hread h'
      refine .next hmem ?_ (h.lt_size_of_ne_nil (by simp)) (.last ?_)
      · simp only [List.length_append, List.length_cons]
        omega
      · rw [member_end false (newline_indent_blank outer) h'.right]
        simp [membersBytes_single]
        omega
    | cons m ms =>
      have h' : Starts b p (separator first ++ 0x0A :: indentBytes level ++ quoteBytes k ++
          0x3A :: 0x20 :: textBytes level v ++ (separator false ++ 0x0A :: membersBytes level (m :: ms) ++
            0x0A :: indentBytes outer ++ 0x7D :: rest)) := by
        simpa [membersBytes_cons, separator] using h
      have hmem := member_of_starts first hfind hset hread h'
      have hnext := ih (List.cons_ne_nil m ms) false _ h'.right
      have hq : p + (separator first ++ 0x0A :: membersBytes level ((k, v) :: m :: ms) ++
            0x0A :: indentBytes outer).length =
          p + (separator first ++ 0x0A :: indentBytes level ++ quoteBytes k ++
            0x3A :: 0x20 :: textBytes level v).length +
            (separator false ++ 0x0A :: membersBytes level (m :: ms) ++
              0x0A :: indentBytes outer).length := by
        simp [membersBytes_cons, separator]
        omega
      rw [hq]
      refine .next hmem ?_ (h.lt_size_of_ne_nil (by simp)) hnext
      simp only [List.length_append, List.length_cons]
      omega

/-- The members of a record's object, once read, are checked for the required fields. -/
theorem ofMembers_of_steps {form : RecordForm δ α} {depth : Nat} {d' : δ} {p q : Nat}
    (hs : Steps (form.member depth) b true form.empty p d' q)
    (hreq : form.fields.find? (fun f => f.required && !f.isSet d') = none) :
    form.ofMembers depth b p = (.ok (form.finish d'), q) := by
  unfold RecordForm.ofMembers
  rw [bind_of_ok (iterate_of_steps hs)]
  simp only [hreq]
  rfl

/-- An object whose members read into a draft that has every required field is read by
`record form` as the record the draft stands for, when one more level may open. -/
theorem decodes_record {form : RecordForm δ α} {depth level : Nat} {ms : List (String × Value)}
    {d' : δ} {a : α} (hdepth : 1 < depth) (hfinish : form.finish d' = a)
    (hm : MembersRead form (depth - 1) (level + 1) form.empty ms d')
    (hreq : form.fields.find? (fun f => f.required && !f.isSet d') = none) :
    Decodes (record form) depth (textBytes level (.obj ms)) a := by
  subst hfinish
  -- the empty object is written `{}`, any other with its members on lines of their own; either
  -- way the rounds of `iterate` read the bytes between the braces
  obtain ⟨inner, htext, hsteps⟩ : ∃ inner : List UInt8,
      textBytes level (.obj ms) = 0x7B :: (inner ++ [0x7D]) ∧
      ∀ (b : ByteArray) (p : Nat) (rest : List UInt8), Starts b p (inner ++ 0x7D :: rest) →
        Steps (form.member (depth - 1)) b true form.empty p d' (p + inner.length) := by
    cases ms with
    | nil =>
      cases hm
      exact ⟨[], textBytes_obj_nil level, fun b p rest h => .last (member_end true blank_nil h)⟩
    | cons m ms =>
      refine ⟨0x0A :: membersBytes (level + 1) (m :: ms) ++ 0x0A :: indentBytes level, ?_,
        fun b p rest h => ?_⟩
      · rw [textBytes_obj_cons]
        simp
      · have hsteps := steps_members hm (List.cons_ne_nil m ms) true p
          (by simpa [separator] using h)
        simpa [separator] using hsteps
  refine ⟨⟨0x7B, _, htext, rfl⟩, fun b p bl hbl h => placed_of_ok ?_⟩
  rw [htext] at h ⊢
  rw [bind_of_ok (skipBlank_of_starts bl hbl rfl h)]
  have hin := ofMembers_of_steps (hsteps b _ [] h.right.cons) hreq
  have hend : Starts b (p + bl.length + 1 + inner.length) ([] ++ [0x7D]) := h.right.cons.right
  show container depth (form.ofMembers (depth - 1)) closeObject b (p + bl.length) = _
  rw [container_of_ok hdepth hin (closeObject_of_starts blank_nil hend)]
  simp only [List.length_cons, List.length_append, List.length_nil]
  congr 1
  omega

/-- A field's reader takes what its decoder takes, and sets the field to it. -/
theorem field_decodes {β : Type} {names : List String} {required : Bool} {get : δ → Option β}
    {set : δ → β → δ} {dec : Decoder β} {depth : Nat} {t : List UInt8} {a : β} (x : δ)
    (h : Decodes dec depth t a) :
    Decodes (fun n => (field names required get set dec).read n x) depth t (set x a) where
  opens := h.opens
  reads b p bl hbl hs := map_of_ok (h.reads b p bl hbl hs)

/-- A member read by a field of the form, into a draft that does not have the field yet. -/
theorem MembersRead.field_cons {form : RecordForm δ α} {depth level : Nat} {β : Type}
    {names : List String} {required : Bool} {get : δ → Option β} {set : δ → β → δ}
    {dec : Decoder β} {d d' : δ} {k : String} {v : Value} {a : β} {ms : List (String × Value)}
    (hfind : form.fields.find? (·.names.contains k) = some (field names required get set dec))
    (hget : get d = none) (hdec : Decodes dec depth (textBytes level v) a)
    (hrest : MembersRead form depth level (set d a) ms d') :
    MembersRead form depth level d ((k, v) :: ms) d' :=
  .cons hfind (by simp [field, hget]) (field_decodes d hdec) hrest

end Records

/-! ## Whole texts -/

theorem skipBlank_end : skipBlank b b.size = (.ok none, b.size) := by
  simp only [skipBlank]
  rw [blankEnd, dif_neg (Nat.lt_irrefl _)]
  simp

/-- A whole text that a decoder reads, with 128 levels of nesting allowed, decodes. -/
theorem decodeText_of_decodes {d : Decoder α} {text : String} {a : α}
    (h : Decodes d 128 text.toUTF8.data.toList a) : decodeText d text = .ok a := by
  have hs : Starts text.toUTF8 0 ([] ++ text.toUTF8.data.toList) := List.prefix_refl _
  have hread := h.reads text.toUTF8 0 [] blank_nil hs
  rw [List.length_nil, Nat.add_zero, Nat.zero_add, length_data_toList] at hread
  simp only [decodeText]
  rw [bind_of_ok hread, bind_of_ok skipBlank_end]
  rfl

/-! ## The text layer that runs reads back what it writes -/

section Shapes

variable {δ : Type}

/-- No shape reads a number. -/
theorem Shape.Reads.not_num : ∀ {α : Type} {s : Shape α} {n : Number} {a : α},
    ¬ s.Reads (.num n) a
  | _, _, _, _, .some h _ => Shape.Reads.not_num h

/-- The text of a value that a shape reads, `null` apart, does not start like `null`. -/
theorem Shape.Reads.head_ne {α : Type} {s : Shape α} {v : Value} {a : α} (h : s.Reads v a)
    (hv : v ≠ .null) (level : Nat) : (textBytes level v).head? ≠ Option.some 0x6E := by
  cases v with
  | null => exact absurd rfl hv
  | bool x => cases x <;> simp [textBytes_bool, boolBytes]
  | num n => exact absurd h Shape.Reads.not_num
  | str x => simp [textBytes_str, quoteBytes]
  | arr vs => cases vs <;> simp [textBytes_arr_nil, textBytes_arr_cons]
  | obj ms => cases ms <;> simp [textBytes_obj_nil, textBytes_obj_cons]

/-- A draft that holds every required field leaves no required field of the forms unset. -/
theorem Fields.Complete.find?_forms : ∀ {fields : Fields δ} {d : δ}, fields.Complete d →
    fields.forms.find? (fun f => f.required && !f.isSet d) = none
  | .nil, _, _ => rfl
  | .cons names required get set s rest, d, h => by
    obtain ⟨hreq, hrest⟩ := h
    have hset : (required && !(get d).isSome) = false := by
      cases required
      · rfl
      · simp [hreq rfl]
    simp only [Fields.forms, List.find?_cons, field, hset]
    exact Fields.Complete.find?_forms hrest

mutual

/-- What a shape reads a value as, the shape's reader reads the value's text as, when fewer
levels nest in the shape than may open. -/
theorem Shape.Reads.decodes : ∀ {α : Type} {s : Shape α} {v : Value} {a : α}, s.Reads v a →
    ∀ (depth level : Nat), s.depth < depth → Decodes s.decoder depth (textBytes level v) a
  | _, _, _, _, .string x, depth, level, _ => decodes_string depth level x
  | _, _, _, _, .bool x, depth, level, _ => decodes_bool depth level x
  | _, _, _, _, .none, depth, level, _ => decodes_option_null depth level
  | _, _, _, _, .some h hv, depth, level, hd =>
    decodes_option_some (Shape.Reads.decodes h depth level hd) (h.head_ne hv level)
  | _, .list s, _, _, .list h, depth, level, hd => by
    have hd' : s.depth + 1 < depth := hd
    exact decodes_list (by omega) (Shape.ReadsItems.decodes h (depth - 1) (level + 1) (by omega))
  | _, _, _, _, .variant h, depth, level, _ => decodes_variant depth level h
  | _, .record name fields empty finish, _, _, .record h hc, depth, level, hd => by
    have hd' : fields.depth + 1 < depth := hd
    show Decodes (record ⟨name, fields.forms, empty, finish⟩) depth _ _
    exact decodes_record (by omega) rfl
      (Fields.ReadsMembers.membersRead h ⟨name, fields.forms, empty, finish⟩ rfl (depth - 1)
        (level + 1) (by omega))
      hc.find?_forms

/-- Items that a shape reads, its reader reads the texts of. -/
theorem Shape.ReadsItems.decodes : ∀ {α : Type} {s : Shape α} {vs : List Value} {as : List α},
    s.ReadsItems vs as → ∀ (depth level : Nat), s.depth < depth →
      List.Forall₂ (fun v a => Decodes s.decoder depth (textBytes level v) a) vs as
  | _, _, _, _, .nil, _, _, _ => .nil
  | _, _, _, _, .cons h hs, depth, level, hd =>
    .cons (Shape.Reads.decodes h depth level hd) (Shape.ReadsItems.decodes hs depth level hd)

/-- The field that a key picks is the form that the key finds, and its reader reads the
member's text into the draft. -/
theorem Fields.Picks.decodes : ∀ {δ : Type} {fields : Fields δ} {k : String} {d : δ} {v : Value}
    {d' : δ}, fields.Picks k d v d' → ∀ (depth level : Nat), fields.depth < depth →
      ∃ f, fields.forms.find? (·.names.contains k) = some f ∧ f.isSet d = false ∧
        Decodes (fun n => f.read n d) depth (textBytes level v) d'
  | _, .cons names required get set s rest, _, d, _, _, .here hk hget h, depth, level, hd => by
    have hd' : max s.depth rest.depth < depth := hd
    exact ⟨field names required get set s.decoder, by simp [Fields.forms, field, hk],
      by simp [field, hget], field_decodes d (Shape.Reads.decodes h depth level (by omega))⟩
  | _, .cons names required get set s rest, _, _, _, _, .there hk h, depth, level, hd => by
    have hd' : max s.depth rest.depth < depth := hd
    obtain ⟨f, hf, hset, hread⟩ := Fields.Picks.decodes h depth level (by omega)
    exact ⟨f, by simpa [Fields.forms, field, hk] using hf, hset, hread⟩

/-- Members that the fields read one after the other, the forms read from their texts. -/
theorem Fields.ReadsMembers.membersRead : ∀ {δ : Type} {fields : Fields δ} {d : δ}
    {ms : List (String × Value)} {d' : δ}, fields.ReadsMembers d ms d' →
    ∀ {α : Type} (form : RecordForm δ α), form.fields = fields.forms →
      ∀ (depth level : Nat), fields.depth < depth → MembersRead form depth level d ms d'
  | _, _, _, _, _, .nil, _, _, _, _, _, _ => .nil
  | _, _, _, _, _, .cons h hs, _, form, hform, depth, level, hd => by
    obtain ⟨f, hf, hset, hread⟩ := Fields.Picks.decodes h depth level hd
    exact .cons (by rw [hform]; exact hf) hset hread
      (Fields.ReadsMembers.membersRead hs form hform depth level hd)

end

end Shapes

/-- **The text layer that runs reads back what it writes.** -/
theorem serdeJson_lawful : serdeJson.Lawful := fun _ _ _ hdepth h =>
  decodeText_of_decodes (h.decodes 128 0 hdepth)

end Breadboard.Json
