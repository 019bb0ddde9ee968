import Breadboard.Json.Decode

/-!
# Reading the bytes of written JSON

The reader works on the UTF-8 bytes of a text, from a byte offset. This file states what its
lowest steps do on the bytes a writer produces, wherever those bytes stand in the text:
`Json.Starts b p bs` says the bytes `bs` stand in `b` from offset `p` on, and every statement
holds whatever follows them.

* blanks are skipped up to the first byte that is not one (`skipBlank_of_starts`);
* a keyword is read byte by byte (`keywordFrom_of_starts`);
* the contents of a quoted string, as `quote` writes them, read back as the string itself
  (`readString_of_starts`): a character written as it is reads as its own UTF-8 bytes, one
  escaped by a letter or by `\u00xx` reads as the one byte it stands for.

The steps that run a reader several times, `collect` and `iterate`, are described by the
rounds they run (`ReadM.Rounds`, `ReadM.Steps`): each round moves forward inside the text and
the last one answers `none`.
-/

namespace Breadboard.Json

/-! ## Bytes at an offset -/

theorem length_data_toList (b : ByteArray) : b.data.toList.length = b.size := rfl

theorem getElem?_eq_data (b : ByteArray) (i : Nat) : b[i]? = b.data.toList[i]? := by
  by_cases h : i < b.size
  · rw [getElem?_pos b i h, List.getElem?_eq_getElem (by rwa [length_data_toList]),
      ByteArray.getElem_eq_getElem_data]
    simp
  · rw [getElem?_neg b i h, List.getElem?_eq_none (by rw [length_data_toList]; omega)]

/-- The bytes `bs` stand in `b` from offset `p` on. -/
def Starts (b : ByteArray) (p : Nat) (bs : List UInt8) : Prop :=
  bs <+: b.data.toList.drop p

namespace Starts

variable {b : ByteArray} {p : Nat}

theorem getElem? {x : UInt8} {bs : List UInt8} (h : Starts b p (x :: bs)) : b[p]? = some x := by
  obtain ⟨t, ht⟩ := h
  rw [getElem?_eq_data, ← Nat.add_zero p, ← List.getElem?_drop, ← ht]
  rfl

theorem lt_size {x : UInt8} {bs : List UInt8} (h : Starts b p (x :: bs)) : p < b.size := by
  have hx := h.getElem?
  by_cases hp : p < b.size
  · exact hp
  · rw [getElem?_neg b p hp] at hx
    cases hx

theorem getElem {x : UInt8} {bs : List UInt8} (h : Starts b p (x :: bs)) (hp : p < b.size) :
    b[p] = x := by
  have := h.getElem?
  rw [getElem?_pos b p hp] at this
  exact Option.some.inj this

theorem getElem! {x : UInt8} {bs : List UInt8} (h : Starts b p (x :: bs)) : b[p]! = x := by
  simp [getElem!_def, h.getElem?]

theorem getElem?_add {bs : List UInt8} (h : Starts b p bs) {i : Nat} (hi : i < bs.length) :
    b[p + i]? = some bs[i] := by
  obtain ⟨t, ht⟩ := h
  rw [getElem?_eq_data, ← List.getElem?_drop, ← ht, List.getElem?_append_left hi,
    List.getElem?_eq_getElem hi]

theorem lt_size_add {bs : List UInt8} (h : Starts b p bs) {i : Nat} (hi : i < bs.length) :
    p + i < b.size := by
  have hx := h.getElem?_add hi
  by_cases hp : p + i < b.size
  · exact hp
  · rw [getElem?_neg b (p + i) hp] at hx
    cases hx

theorem lt_size_of_ne_nil {bs : List UInt8} (h : Starts b p bs) (hne : bs ≠ []) : p < b.size := by
  have := h.lt_size_add (i := 0) (List.length_pos_iff.mpr hne)
  simpa using this

theorem getElem!_add {bs : List UInt8} (h : Starts b p bs) {i : Nat} (hi : i < bs.length) :
    b[p + i]! = bs[i] := by
  simp [getElem!_def, h.getElem?_add hi]

theorem right {bs cs : List UInt8} (h : Starts b p (bs ++ cs)) : Starts b (p + bs.length) cs := by
  obtain ⟨t, ht⟩ := h
  refine ⟨t, ?_⟩
  rw [← List.drop_drop, ← ht, List.append_assoc, List.drop_left]

theorem left {bs cs : List UInt8} (h : Starts b p (bs ++ cs)) : Starts b p bs :=
  List.IsPrefix.trans (List.prefix_append bs cs) h

theorem cons {x : UInt8} {bs : List UInt8} (h : Starts b p (x :: bs)) : Starts b (p + 1) bs :=
  have h' : Starts b p ([x] ++ bs) := h
  h'.right

end Starts

/-! ## Running reading steps -/

namespace ReadM

variable {α β : Type} {b : ByteArray} {p q : Nat} {a : α}

theorem bind_of_ok {m : ReadM α} {f : α → ReadM β} (h : m b p = (.ok a, q)) :
    (m >>= f) b p = f a b q := by
  simp only [bind, h]

theorem map_of_ok {m : ReadM α} {g : α → β} (h : m b p = (.ok a, q)) :
    (g <$> m) b p = (.ok (g a), q) := by
  simp only [Functor.map, h]
  rfl

theorem placed_of_ok {m : ReadM α} (h : m b p = (.ok a, q)) : placed m b p = (.ok a, q) := by
  simp only [placed, h]

theorem ofFunction_of_ok {f : ByteArray → Nat → Except Fault (α × Nat)} (h : f b p = .ok (a, q)) :
    ofFunction f b p = (.ok a, q) := by
  simp only [ofFunction, h]

end ReadM

/-! ## Blanks -/

/-- The bytes skipped between tokens: space, newline, tab and carriage return. -/
def isBlank (c : UInt8) : Bool :=
  c == 0x20 || c == 0x0A || c == 0x09 || c == 0x0D

variable {b : ByteArray}

/-- Skipping blanks stops at the first byte that is not one. -/
theorem blankEnd_of_starts {c : UInt8} {rest : List UInt8} :
    ∀ {p : Nat} (bl : List UInt8), (∀ x ∈ bl, isBlank x = true) → isBlank c = false →
      Starts b p (bl ++ c :: rest) → blankEnd b p = p + bl.length
  | p, [], _, hc, h => by
    rw [blankEnd, dif_pos h.lt_size]
    dsimp only
    rw [h.getElem, if_neg (by simpa [isBlank] using hc)]
    rfl
  | p, x :: bl, hbl, hc, h => by
    rw [blankEnd, dif_pos h.lt_size]
    dsimp only
    have hx : (x == 0x20 || x == 0x0A || x == 0x09 || x == 0x0D) = true := hbl x List.mem_cons_self
    rw [h.getElem, if_pos hx,
      blankEnd_of_starts bl (fun y hy => hbl y (List.mem_cons_of_mem x hy)) hc h.cons]
    simp only [List.length_cons]
    omega

theorem skipBlank_of_starts {c : UInt8} {rest : List UInt8} {p : Nat} (bl : List UInt8)
    (hbl : ∀ x ∈ bl, isBlank x = true) (hc : isBlank c = false) (h : Starts b p (bl ++ c :: rest)) :
    skipBlank b p = (.ok (some c), p + bl.length) := by
  simp only [skipBlank, blankEnd_of_starts bl hbl hc h]
  rw [h.right.getElem?]

/-! ## Keywords -/

theorem keywordFrom_of_starts : ∀ (ws : List UInt8) {p : Nat}, Starts b p ws →
    keywordFrom b p ws = .ok (p + ws.length)
  | [], _, _ => rfl
  | w :: ws, p, h => by
    rw [keywordFrom, h.getElem?]
    dsimp only
    rw [if_pos (beq_self_eq_true w), keywordFrom_of_starts ws h.cons]
    simp only [List.length_cons]
    congr 1
    omega

theorem keyword_of_starts {rest : String} {ws : List UInt8} (hws : rest.toUTF8.toList = ws)
    {p : Nat} (h : Starts b p ws) : keyword rest b p = (.ok (), p + ws.length) := by
  apply ReadM.ofFunction_of_ok
  rw [hws, keywordFrom_of_starts ws h]
  rfl

/-! ## Strings -/

/-- The bytes a character is written with inside a quoted string. -/
def escapedBytes (c : Char) : List UInt8 :=
  (escapeChar c).flatMap String.utf8EncodeChar

theorem quote_bytes (s : String) :
    (quote s).toUTF8.data.toList = 0x22 :: (s.toList.flatMap escapedBytes ++ [0x22]) := by
  simp [quote, List.utf8Encode, List.flatMap_assoc]
  rfl

/-- A byte that a string holds as it is: no quote, no backslash, no control byte. -/
def isPlain (x : UInt8) : Bool :=
  x != 0x22 && x != 0x5C && !(x < 0x20)

theorem stringBytes_quote {p : Nat} {rest : List UInt8} (acc : ByteArray)
    (h : Starts b p (0x22 :: rest)) : stringBytes b p acc = .ok (acc, p + 1) := by
  rw [stringBytes, dif_pos h.lt_size]
  simp [h.getElem]

theorem stringBytes_plain : ∀ (bs : List UInt8) {p : Nat} {rest : List UInt8} (acc : ByteArray),
    (∀ x ∈ bs, isPlain x = true) → Starts b p (bs ++ rest) →
      stringBytes b p acc = stringBytes b (p + bs.length) (acc ++ bs.toByteArray)
  | [], p, _, acc, _, _ => by simp
  | x :: bs, p, rest, acc, hbs, h => by
    have hx := hbs x List.mem_cons_self
    simp only [isPlain, Bool.and_eq_true, bne_iff_ne, ne_eq, Bool.not_eq_true'] at hx
    rw [stringBytes, dif_pos h.lt_size]
    dsimp only
    rw [h.getElem, if_neg (by simpa using hx.1.1), if_neg (by simpa using hx.1.2),
      if_neg (by simpa using hx.2), stringBytes_plain bs (acc.push x)
        (fun y hy => hbs y (List.mem_cons_of_mem x hy)) h.cons]
    congr 1
    · simp only [List.length_cons]
      omega
    · apply ByteArray.ext
      simp

theorem stringBytes_backslash {p : Nat} {rest : List UInt8} (acc : ByteArray) {out : ByteArray}
    {extra : Nat} (h : Starts b p (0x5C :: rest)) (he : escapeAt b (p + 1) = .ok (out, extra)) :
    stringBytes b p acc = stringBytes b (p + 2 + extra) (acc ++ out) := by
  rw [stringBytes, dif_pos h.lt_size]
  simp [h.getElem, he]

/-- The byte of a hex digit as `hexDigit` writes it. -/
def hexByte (k : Nat) : UInt8 :=
  UInt8.ofNat (hexDigit k).toNat

theorem hexValue_hexByte : ∀ k, k < 16 → hexValue (hexByte k) = some k := by
  decide

theorem hex4_of_starts {p : Nat} {rest : List UInt8} {k : Nat} (hk : k < 0x100)
    (h : Starts b p ([0x30, 0x30, hexByte (k / 16), hexByte (k % 16)] ++ rest)) :
    hex4 b p = .ok k := by
  have hsize : p + 4 ≤ b.size := h.lt_size_add (i := 3) (by simp)
  have h0 : b[p]! = 0x30 := h.getElem!
  have h1 : b[p + 1]! = 0x30 := h.getElem!_add (i := 1) (by simp)
  have h2 : b[p + 2]! = hexByte (k / 16) := h.getElem!_add (i := 2) (by simp)
  have h3 : b[p + 3]! = hexByte (k % 16) := h.getElem!_add (i := 3) (by simp)
  have hzero : hexValue 0x30 = some 0 := rfl
  rw [hex4, if_pos hsize, h0, h1, h2, h3, hzero, hexValue_hexByte _ (by omega),
    hexValue_hexByte _ (by omega)]
  simp only [Nat.zero_mul, Nat.zero_add]
  congr 1
  omega

theorem unicodeEscape_of_hex4 {p n : Nat} (h : hex4 b p = .ok n) (hn : n < 0xD800) :
    unicodeEscape b p = .ok (utf8Bytes n, 4) := by
  have h₁ : ¬ (0xDC00 ≤ n ∧ n ≤ 0xDFFF) := by omega
  have h₂ : n < 0xD800 ∨ 0xDBFF < n := .inl hn
  rw [unicodeEscape, h]
  simp only [bind, Except.bind, if_neg h₁, if_pos h₂]
  rfl

theorem utf8EncodeChar_hexDigit : ∀ k, k < 16 → String.utf8EncodeChar (hexDigit k) = [hexByte k] := by
  decide

theorem isPlain_ofNat {m : Nat} (hm : m < 256) (h₁ : m ≠ 34) (h₂ : m ≠ 92) (h₃ : 32 ≤ m) :
    isPlain (UInt8.ofNat m) = true := by
  have hx : (UInt8.ofNat m).toNat = m := by simp [Nat.mod_eq_of_lt hm]
  simp only [isPlain, Bool.and_eq_true, bne_iff_ne, ne_eq, Bool.not_eq_true', decide_eq_false_iff_not,
    ← UInt8.toNat_inj, UInt8.lt_iff_toNat_lt, hx]
  exact ⟨⟨h₁, h₂⟩, by simp; omega⟩

/-- A character that a string holds as it is is written as its own bytes, none of which ends
the string or starts an escape. -/
theorem isPlain_of_mem_utf8EncodeChar {c : Char} (h₁ : c ≠ '"') (h₂ : c ≠ '\\')
    (h₃ : ¬ c.toNat < 0x20) : ∀ x ∈ String.utf8EncodeChar c, isPlain x = true := by
  have hq : c.toNat ≠ 34 := fun h => h₁ (Char.toNat_inj.mp h)
  have hb : c.toNat ≠ 92 := fun h => h₂ (Char.toNat_inj.mp h)
  have hv : c.val.toNat = c.toNat := rfl
  intro x hx
  simp only [String.utf8EncodeChar, hv] at hx
  split at hx
  · obtain rfl : x = UInt8.ofNat c.toNat := by simpa using hx
    exact isPlain_ofNat (by omega) hq hb (by omega)
  split at hx
  · simp only [List.mem_cons, List.not_mem_nil, or_false] at hx
    rcases hx with rfl | rfl <;> exact isPlain_ofNat (by omega) (by omega) (by omega) (by omega)
  split at hx
  · simp only [List.mem_cons, List.not_mem_nil, or_false] at hx
    rcases hx with rfl | rfl | rfl <;> exact isPlain_ofNat (by omega) (by omega) (by omega) (by omega)
  · simp only [List.mem_cons, List.not_mem_nil, or_false] at hx
    rcases hx with rfl | rfl | rfl | rfl <;>
      exact isPlain_ofNat (by omega) (by omega) (by omega) (by omega)

/-- A character written inside a quoted string reads back as its own UTF-8 bytes. -/
theorem stringBytes_char (c : Char) {p : Nat} {rest : List UInt8} (acc : ByteArray)
    (h : Starts b p (escapedBytes c ++ rest)) :
    stringBytes b p acc =
      stringBytes b (p + (escapedBytes c).length) (acc ++ (String.utf8EncodeChar c).toByteArray) := by
  -- an escape by a letter: a backslash, then a letter that stands for one byte
  have letter : ∀ e x : UInt8, escapedBytes c = [0x5C, e] → String.utf8EncodeChar c = [x] →
      (∀ q r, Starts b q (e :: r) → escapeAt b q = .ok (ByteArray.empty.push x, 0)) →
      stringBytes b p acc = stringBytes b (p + (escapedBytes c).length)
        (acc ++ (String.utf8EncodeChar c).toByteArray) := by
    intro e x hc hx he
    rw [hc] at h ⊢
    rw [hx, stringBytes_backslash acc h (he (p + 1) rest h.cons)]
    rfl
  by_cases h₁ : c = '"'
  · subst h₁
    exact letter 0x22 0x22 rfl rfl fun q r hq => by rw [escapeAt, hq.getElem?]; rfl
  by_cases h₂ : c = '\\'
  · subst h₂
    exact letter 0x5C 0x5C rfl rfl fun q r hq => by rw [escapeAt, hq.getElem?]; rfl
  by_cases h₃ : c = '\x08'
  · subst h₃
    exact letter 0x62 0x08 rfl rfl fun q r hq => by rw [escapeAt, hq.getElem?]; rfl
  by_cases h₄ : c = '\x0c'
  · subst h₄
    exact letter 0x66 0x0C rfl rfl fun q r hq => by rw [escapeAt, hq.getElem?]; rfl
  by_cases h₅ : c = '\n'
  · subst h₅
    exact letter 0x6E 0x0A rfl rfl fun q r hq => by rw [escapeAt, hq.getElem?]; rfl
  by_cases h₆ : c = '\r'
  · subst h₆
    exact letter 0x72 0x0D rfl rfl fun q r hq => by rw [escapeAt, hq.getElem?]; rfl
  by_cases h₇ : c = '\t'
  · subst h₇
    exact letter 0x74 0x09 rfl rfl fun q r hq => by rw [escapeAt, hq.getElem?]; rfl
  by_cases h₈ : c.toNat < 0x20
  · -- a control byte written as `\u00` and two hex digits
    have hc : escapedBytes c =
        [0x5C, 0x75, 0x30, 0x30, hexByte (c.toNat / 16), hexByte (c.toNat % 16)] := by
      simp only [escapedBytes, escapeChar, if_neg h₁, if_neg h₂, if_neg h₃, if_neg h₄, if_neg h₅,
        if_neg h₆, if_neg h₇, if_pos h₈, List.flatMap_cons, List.flatMap_nil,
        utf8EncodeChar_hexDigit _ (show c.toNat / 16 < 16 by omega),
        utf8EncodeChar_hexDigit _ (show c.toNat % 16 < 16 by omega)]
      rfl
    rw [hc] at h ⊢
    have hhex : hex4 b (p + 2) = .ok c.toNat :=
      hex4_of_starts (by omega) h.cons.cons
    have he : escapeAt b (p + 1) = .ok (utf8Bytes c.toNat, 4) := by
      rw [escapeAt, h.cons.getElem?]
      simp only
      rw [unicodeEscape_of_hex4 hhex (by omega)]
      rfl
    have hbytes : utf8Bytes c.toNat = (String.utf8EncodeChar c).toByteArray := by
      apply ByteArray.ext
      simp [utf8Bytes]
    rw [stringBytes_backslash acc h he, hbytes]
    rfl
  · -- any other character is written as it is
    have hc : escapedBytes c = String.utf8EncodeChar c := by
      simp [escapedBytes, escapeChar, h₁, h₂, h₃, h₄, h₅, h₆, h₇, h₈]
    rw [hc] at h ⊢
    exact stringBytes_plain _ acc (isPlain_of_mem_utf8EncodeChar h₁ h₂ h₈) h

/-- The contents of a quoted string read back as the UTF-8 bytes of its characters, and the
reading stops past the closing quote. -/
theorem stringBytes_chars : ∀ (cs : List Char) {p : Nat} (acc : ByteArray),
    Starts b p (cs.flatMap escapedBytes ++ [0x22]) →
      stringBytes b p acc = .ok (acc ++ (cs.flatMap String.utf8EncodeChar).toByteArray,
        p + (cs.flatMap escapedBytes).length + 1)
  | [], p, acc, h => by
    rw [stringBytes_quote acc h]
    congr
    apply ByteArray.ext
    simp
  | c :: cs, p, acc, h => by
    rw [List.flatMap_cons, List.append_assoc] at h
    rw [stringBytes_char c acc h, stringBytes_chars cs _ h.right]
    congr 2
    · apply ByteArray.ext
      simp
    · simp only [List.flatMap_cons, List.length_append]
      omega

/-- A quoted string, past its opening quote, reads back as the string. -/
theorem readString_of_starts (s : String) {p : Nat}
    (h : Starts b p (s.toList.flatMap escapedBytes ++ [0x22])) :
    readString b p = (.ok s, p + (s.toList.flatMap escapedBytes).length + 1) := by
  apply ReadM.ofFunction_of_ok
  have hbytes : ByteArray.empty ++ (s.toList.flatMap String.utf8EncodeChar).toByteArray =
      s.toUTF8 := by
    have hs : s.toUTF8 = (s.toList.flatMap String.utf8EncodeChar).toByteArray := by
      have h' := congrArg String.toByteArray (String.ofList_toList (s := s))
      rw [String.toByteArray_ofList] at h'
      rw [String.toUTF8_eq_toByteArray, ← h']
      rfl
    rw [hs]
    apply ByteArray.ext
    simp
  have hread : String.fromUTF8? s.toUTF8 = some s := by
    simp only [String.fromUTF8?, String.toUTF8_eq_toByteArray, dif_pos s.isValidUTF8]
    cases s
    rfl
  rw [stringBytes_chars s.toList ByteArray.empty h]
  simp only [hbytes, bind, Except.bind, pure, Except.pure, hread, Option.getD_some]

/-! ## Reading round by round -/

namespace ReadM

/-- `Rounds step b first p as q`: collecting with `step` from offset `p` (`first` when no round
has run yet) gives the items `as` and stops at `q`: each round but the last answers an item and
moves forward inside the text, the last answers `none`. -/
inductive Rounds {α : Type} (step : Bool → ReadM (Option α)) (b : ByteArray) :
    Bool → Nat → List α → Nat → Prop
  | last {first : Bool} {p q : Nat} (h : step first b p = (.ok none, q)) :
      Rounds step b first p [] q
  | next {first : Bool} {p p' q : Nat} {a : α} {as : List α}
      (h : step first b p = (.ok (some a), p')) (hlt : p < p') (hsize : p < b.size)
      (hrest : Rounds step b false p' as q) : Rounds step b first p (a :: as) q

theorem collect_go_of_rounds {α : Type} {step : Bool → ReadM (Option α)} {b : ByteArray}
    {first : Bool} {p q : Nat} {as : List α} (h : Rounds step b first p as q) :
    ∀ acc, collect.go step b first acc p = (.ok (acc.reverse ++ as), q) := by
  induction h with
  | last h =>
    intro acc
    rw [collect.go, h]
    simp
  | next h hlt hsize _ ih =>
    intro acc
    rw [collect.go, h]
    simp only [dif_pos (And.intro hlt hsize), ih]
    simp

/-- Collecting runs its rounds. -/
theorem collect_of_rounds {α : Type} {step : Bool → ReadM (Option α)} {b : ByteArray} {p q : Nat}
    {as : List α} (h : Rounds step b true p as q) : collect step b p = (.ok as, q) := by
  simp only [collect, collect_go_of_rounds h []]
  simp

/-- `Steps step b first s p t q`: iterating `step` from state `s` at offset `p` ends in state `t`
at `q`: each round but the last moves forward inside the text, the last answers `none`. -/
inductive Steps {σ : Type} (step : Bool → σ → ReadM (Option σ)) (b : ByteArray) :
    Bool → σ → Nat → σ → Nat → Prop
  | last {first : Bool} {s : σ} {p q : Nat} (h : step first s b p = (.ok none, q)) :
      Steps step b first s p s q
  | next {first : Bool} {s s' t : σ} {p p' q : Nat} (h : step first s b p = (.ok (some s'), p'))
      (hlt : p < p') (hsize : p < b.size) (hrest : Steps step b false s' p' t q) :
      Steps step b first s p t q

theorem iterate_go_of_steps {σ : Type} {step : Bool → σ → ReadM (Option σ)} {b : ByteArray}
    {first : Bool} {s t : σ} {p q : Nat} (h : Steps step b first s p t q) :
    iterate.go step b first s p = (.ok t, q) := by
  induction h with
  | last h =>
    rw [iterate.go, h]
  | next h hlt hsize _ ih =>
    rw [iterate.go, h]
    simp only [dif_pos (And.intro hlt hsize), ih]

/-- Iterating runs its rounds. -/
theorem iterate_of_steps {σ : Type} {step : Bool → σ → ReadM (Option σ)} {b : ByteArray}
    {s t : σ} {p q : Nat} (h : Steps step b true s p t q) : iterate step s b p = (.ok t, q) :=
  iterate_go_of_steps h

end ReadM

end Breadboard.Json
