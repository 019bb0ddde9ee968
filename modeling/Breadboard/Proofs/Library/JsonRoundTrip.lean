import Breadboard.Library.Core
import Breadboard.Library.Json
import Breadboard.Proofs.Json.Decoding

/-!
# Library descriptors read back from their JSON text

A library descriptor is written as the value its fields give (`Library.toValue`: camel-case
keys, `type` for a parameter's type, optional members left out when absent) and read by the
shape of its fields (`libraryShape`: the same keys, defaults for the members that may be left
out). The two agree: the shape reads the written value back as the descriptor
(`Library.reads_toValue`), whatever its strings hold, whichever optional fields it leaves out,
and however many functions, parameters, classes and constants it has.

So over any JSON text layer that reads back what it writes (`JsonText.Lawful`), the text of
every library reads back as the library (`Library.ofText_render`); the layer that runs is such a
layer.

Each kind of record is read member by member into a draft, which ends as the record's complete
draft (`draft`) and finishes as the record. An optional member that is left out leaves its
field unset, and an unset optional field finishes as absent.
-/

namespace Breadboard

open Json

/-! ## Reading records -/

section Records

variable {δ α : Type}

/-- A record is read as what its complete draft finishes as. -/
theorem Json.Shape.reads_record {name : String} {fields : Fields δ} {empty : δ} {finish : δ → α}
    {ms : List (String × Value)} {d : δ} {a : α} (h : fields.ReadsMembers empty ms d)
    (hc : fields.Complete d) (hf : finish d = a) :
    (Shape.record name fields empty finish).Reads (.obj ms) a :=
  hf ▸ .record h hc

/-- A string is read where an optional string is. -/
theorem Json.Shape.reads_some_string (s : String) :
    (Shape.option .string).Reads (.str s) (some s) :=
  .some (.string s) (by simp)

/-- An optional member, written or left out, read into the draft `d`. `upd x` is the draft with
the field set to `x`; with the field unset it is `d` itself. -/
theorem Json.Fields.ReadsMembers.optional_append {fields : Fields δ} {k : String}
    {o : Option String} {d d' : δ} {ms : List (String × Value)}
    (upd : Option (Option String) → δ) (hnone : upd none = d)
    (hpick : ∀ s, fields.Picks k d (.str s) (upd (some (some s))))
    (hrest : fields.ReadsMembers (upd (o.map some)) ms d') :
    fields.ReadsMembers d (optionalMember k o ++ ms) d' := by
  cases o with
  | none =>
    rw [← hnone]
    exact hrest
  | some s => exact .cons (hpick s) hrest

/-- An optional member that ends its object. -/
theorem Json.Fields.ReadsMembers.optional_last {fields : Fields δ} {k : String}
    {o : Option String} {d : δ} (upd : Option (Option String) → δ) (hnone : upd none = d)
    (hpick : ∀ s, fields.Picks k d (.str s) (upd (some (some s)))) :
    fields.ReadsMembers d (optionalMember k o) (upd (o.map some)) := by
  cases o with
  | none =>
    show fields.ReadsMembers d [] (upd none)
    rw [hnone]
    exact .nil
  | some s => exact .cons (hpick s) .nil

/-- A list is read item by item. -/
theorem Json.Shape.reads_list {s : Shape α} {enc : α → Value} (h : ∀ a, s.Reads (enc a) a) :
    ∀ xs : List α, (Shape.list s).Reads (.arr (xs.map enc)) xs := by
  intro xs
  refine .list ?_
  induction xs with
  | nil => exact .nil
  | cons x xs ih => exact .cons (h x) ih

end Records

theorem getD_map_some {β : Type} (o : Option β) : (o.map some).getD none = o := by
  cases o <;> rfl

/-- A value type's spelling names it among the variants of `valueTypeShape`. -/
theorem ValueType.reads_toValue (t : ValueType) : valueTypeShape.Reads t.toValue t :=
  .variant (by cases t <;> rfl)

/-! ## Each kind of record -/

/-- The draft that reading a parameter fills. -/
def Parameter.draft (p : Parameter) : ParameterDraft :=
  { name := some p.name, type := some p.type, defaultValue := p.defaultValue.map some }

theorem Parameter.reads_toValue (p : Parameter) : parameterShape.Reads p.toValue p := by
  refine Shape.reads_record (d := p.draft) ?_ (by simp [Fields.Complete, parameterFields,
    Parameter.draft]) (by simp [Parameter.draft, getD_map_some])
  unfold parameterFields
  exact .cons (.here (by simp) rfl (.string _)) <|
    .cons (.there (by simp) (.here (by simp) rfl p.type.reads_toValue)) <|
    .optional_last (fun x => { p.draft with defaultValue := x }) rfl fun s =>
      .there (by simp) (.there (by simp) (.here (by simp) rfl (Shape.reads_some_string s)))

/-- The draft that reading a function fills. -/
def FunctionDecl.draft (f : FunctionDecl) : FunctionDraft :=
  { name := some f.name, returnType := some f.returnType, parameters := some f.parameters,
    description := f.description.map some, isMethod := some f.isMethod,
    className := f.className.map some, category := f.category.map some }

theorem FunctionDecl.reads_toValue (f : FunctionDecl) : functionShape.Reads f.toValue f := by
  refine Shape.reads_record (d := f.draft) ?_ (by simp [Fields.Complete, functionFields,
    FunctionDecl.draft]) (by simp [FunctionDecl.draft, getD_map_some])
  simp only [List.append_assoc, List.cons_append, List.nil_append]
  unfold functionFields
  exact .cons (.here (by simp) rfl (.string _)) <|
    .cons (.there (by simp) (.here (by simp) rfl f.returnType.reads_toValue)) <|
    .cons (.there (by simp) (.there (by simp) (.here (by simp) rfl
      (Shape.reads_list Parameter.reads_toValue _)))) <|
    .optional_append
      (fun x => { f.draft with description := x, isMethod := none, className := none, category := none })
      rfl
      (fun s => .there (by simp) (.there (by simp) (.there (by simp)
        (.here (by simp) rfl (Shape.reads_some_string s))))) <|
    .cons (.there (by simp) (.there (by simp) (.there (by simp) (.there (by simp)
      (.here (by simp) rfl (.bool _)))))) <|
    .optional_append (fun x => { f.draft with className := x, category := none }) rfl
      (fun s => .there (by simp) (.there (by simp) (.there (by simp) (.there (by simp)
        (.there (by simp) (.here (by simp) rfl (Shape.reads_some_string s))))))) <|
    .optional_last (fun x => { f.draft with category := x }) rfl fun s =>
      .there (by simp) (.there (by simp) (.there (by simp) (.there (by simp)
        (.there (by simp) (.there (by simp) (.here (by simp) rfl (Shape.reads_some_string s)))))))

/-- The draft that reading a class fills. -/
def ClassDecl.draft (c : ClassDecl) : ClassDraft :=
  { name := some c.name, methods := some c.methods, constructors := some c.constructors,
    description := c.description.map some }

theorem ClassDecl.reads_toValue (c : ClassDecl) : classShape.Reads c.toValue c := by
  refine Shape.reads_record (d := c.draft) ?_ (by simp [Fields.Complete, classFields,
    ClassDecl.draft]) (by simp [ClassDecl.draft, getD_map_some])
  unfold classFields
  exact .cons (.here (by simp) rfl (.string _)) <|
    .cons (.there (by simp) (.here (by simp) rfl (Shape.reads_list FunctionDecl.reads_toValue _))) <|
    .cons (.there (by simp) (.there (by simp) (.here (by simp) rfl
      (Shape.reads_list FunctionDecl.reads_toValue _)))) <|
    .optional_last (fun x => { c.draft with description := x }) rfl fun s =>
      .there (by simp) (.there (by simp) (.there (by simp)
        (.here (by simp) rfl (Shape.reads_some_string s))))

/-- The draft that reading a constant fills. -/
def Constant.draft (k : Constant) : ConstantDraft :=
  { name := some k.name, value := some k.value, type := some k.type }

theorem Constant.reads_toValue (k : Constant) : constantShape.Reads k.toValue k := by
  refine Shape.reads_record (d := k.draft) ?_ (by simp [Fields.Complete, constantFields,
    Constant.draft]) rfl
  unfold constantFields
  exact .cons (.here (by simp) rfl (.string _)) <|
    .cons (.there (by simp) (.here (by simp) rfl (.string _))) <|
    .cons (.there (by simp) (.there (by simp) (.here (by simp) rfl k.type.reads_toValue))) .nil

/-- The draft that reading a library fills. -/
def Library.draft (l : Library) : LibraryDraft :=
  { name := some l.name, displayName := some l.displayName,
    includeStatement := some l.includeStatement, isCore := some l.isCore,
    category := some l.category, functions := some l.functions, classes := some l.classes,
    constants := some l.constants }

/-- **The serde mapping.** The shape of a library reads the value its fields are written as back
as the library. -/
theorem Library.reads_toValue (l : Library) : libraryShape.Reads l.toValue l := by
  refine Shape.reads_record (d := l.draft) ?_ (by simp [Fields.Complete, libraryFields,
    Library.draft]) rfl
  unfold libraryFields
  exact .cons (.here (by simp) rfl (.string _)) <|
    .cons (.there (by simp) (.here (by simp) rfl (.string _))) <|
    .cons (.there (by simp) (.there (by simp) (.here (by simp) rfl (.string _)))) <|
    .cons (.there (by simp) (.there (by simp) (.there (by simp) (.here (by simp) rfl
      (.bool _))))) <|
    .cons (.there (by simp) (.there (by simp) (.there (by simp) (.there (by simp)
      (.here (by simp) rfl (.string _)))))) <|
    .cons (.there (by simp) (.there (by simp) (.there (by simp) (.there (by simp)
      (.there (by simp) (.here (by simp) rfl (Shape.reads_list FunctionDecl.reads_toValue _))))))) <|
    .cons (.there (by simp) (.there (by simp) (.there (by simp) (.there (by simp)
      (.there (by simp) (.there (by simp) (.here (by simp) rfl
        (Shape.reads_list ClassDecl.reads_toValue _)))))))) <|
    .cons (.there (by simp) (.there (by simp) (.there (by simp) (.there (by simp)
      (.there (by simp) (.there (by simp) (.there (by simp) (.here (by simp) rfl
        (Shape.reads_list Constant.reads_toValue _))))))))) .nil

/-- A library's deepest values are the parameters of its classes' methods, four levels in. -/
theorem libraryShape_depth : libraryShape.depth < 128 := by decide

/-- **Round trip.** Over a JSON text layer that reads back what it writes, the JSON text of
every library descriptor reads back as the descriptor. -/
theorem Library.ofText_render (J : JsonText) (hJ : J.Lawful) (l : Library) :
    Library.ofText J (Library.render J l) = .ok l :=
  hJ libraryShape l.toValue l libraryShape_depth l.reads_toValue

/-- The text layer that runs is lawful, and reads the core library's text back. -/
theorem Library.ofText_render_core : serdeJson.Lawful ∧
    Library.ofText serdeJson (Library.render serdeJson Library.core) = .ok Library.core :=
  ⟨serdeJson_lawful, Library.ofText_render serdeJson serdeJson_lawful Library.core⟩

end Breadboard
