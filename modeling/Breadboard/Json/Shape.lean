import Breadboard.Json.Value
/-!
# Shapes of readers, and the JSON text layer

A type that reads itself from JSON with a derived reader does so by its shape: a string, a
boolean, an optional value (`null` when absent), a list, a unit variant named by a string, a
record whose fields answer to keys, or any JSON value. A record names its fields, says which
must be present, and collects what it reads into a draft before it finishes as a value.

`Shape.Reads s v a` says what a reader of shape `s` makes of a value `v` in the forms that
derived writers give: a record as an object whose keys name distinct fields of the record, all
its required fields among them. Forms that readers also take (a record as an array, a variant as
a one-member object, unknown keys) are left out, and so is the shape of any value; nothing here
rests on them.

The JSON text layer (`JsonText`) is kept apart, as a parameter: it writes values as pretty or
compact text and reads a text with a reader of a given shape, with its own errors. What is
asked of it is `JsonText.Lawful`: the pretty text of a value, read with a reader whose shape
nests fewer than 128 levels, gives what the reader makes of the value itself.
-/

namespace Breadboard.Json

mutual

/-- The shape of a derived reader of values of type `α`. -/
inductive Shape : Type → Type 1
  | string : Shape String
  | bool : Shape Bool
  /-- `null` as absent, anything else by the shape of the present value. -/
  | option {α : Type} (s : Shape α) : Shape (Option α)
  | list {α : Type} (s : Shape α) : Shape (List α)
  /-- One of the named values. -/
  | variant {α : Type} (names : List (String × α)) : Shape α
  /-- A record read into drafts of type `δ`, from `empty`, finishing as a value. -/
  | record {δ α : Type} (name : String) (fields : Fields δ) (empty : δ) (finish : δ → α) : Shape α
  /-- Any JSON value. -/
  | value : Shape Value

/-- The fields of a record, in order: the keys each answers to (the first is its name), whether
it must be present, how a draft holds it, and the shape of its value. -/
inductive Fields : Type → Type 1
  | nil {δ : Type} : Fields δ
  | cons {δ β : Type} (names : List String) (required : Bool) (get : δ → Option β)
      (set : δ → β → δ) (shape : Shape β) (rest : Fields δ) : Fields δ

end

mutual

/-- How many arrays and objects a value of the shape nests. -/
def Shape.depth : {α : Type} → Shape α → Nat
  | _, .option s => s.depth
  | _, .list s => s.depth + 1
  | _, .record _ fields _ _ => fields.depth + 1
  | _, _ => 0

/-- The deepest nesting of a field's value. -/
def Fields.depth : {δ : Type} → Fields δ → Nat
  | _, .nil => 0
  | _, .cons _ _ _ _ s rest => max s.depth rest.depth

end

/-- A draft holds every required field. -/
def Fields.Complete : {δ : Type} → Fields δ → δ → Prop
  | _, .nil, _ => True
  | _, .cons _ required get _ _ rest, d => (required = true → (get d).isSome) ∧ rest.Complete d

mutual

/-- `s.Reads v a`: a reader of shape `s` makes `a` of the value `v`. -/
inductive Shape.Reads : {α : Type} → Shape α → Value → α → Prop
  | string (s : String) : Shape.Reads .string (.str s) s
  | bool (b : Bool) : Shape.Reads .bool (.bool b) b
  | none {α : Type} {s : Shape α} : Shape.Reads (.option s) .null none
  | some {α : Type} {s : Shape α} {v : Value} {a : α} (h : Shape.Reads s v a) (hv : v ≠ .null) :
      Shape.Reads (.option s) v (some a)
  | list {α : Type} {s : Shape α} {vs : List Value} {as : List α} (h : Shape.ReadsItems s vs as) :
      Shape.Reads (.list s) (.arr vs) as
  | variant {α : Type} {names : List (String × α)} {n : String} {a : α}
      (h : names.lookup n = some a) : Shape.Reads (.variant names) (.str n) a
  | record {δ α : Type} {name : String} {fields : Fields δ} {empty : δ} {finish : δ → α}
      {ms : List (String × Value)} {d : δ} (h : Fields.ReadsMembers fields empty ms d)
      (hc : fields.Complete d) : Shape.Reads (.record name fields empty finish) (.obj ms) (finish d)

/-- The items of an array, each read by the same shape. -/
inductive Shape.ReadsItems : {α : Type} → Shape α → List Value → List α → Prop
  | nil {α : Type} {s : Shape α} : Shape.ReadsItems s [] []
  | cons {α : Type} {s : Shape α} {v : Value} {vs : List Value} {a : α} {as : List α}
      (h : Shape.Reads s v a) (hs : Shape.ReadsItems s vs as) :
      Shape.ReadsItems s (v :: vs) (a :: as)

/-- `fields.Picks k d v d'`: the first field answering to key `k` is not in the draft `d` yet,
and reading `v` into it gives `d'`. -/
inductive Fields.Picks : {δ : Type} → Fields δ → String → δ → Value → δ → Prop
  | here {δ β : Type} {names : List String} {required : Bool} {get : δ → Option β}
      {set : δ → β → δ} {s : Shape β} {rest : Fields δ} {k : String} {d : δ} {v : Value} {x : β}
      (hk : k ∈ names) (hd : get d = none) (h : Shape.Reads s v x) :
      Fields.Picks (.cons names required get set s rest) k d v (set d x)
  | there {δ β : Type} {names : List String} {required : Bool} {get : δ → Option β}
      {set : δ → β → δ} {s : Shape β} {rest : Fields δ} {k : String} {d : δ} {v : Value} {d' : δ}
      (hk : k ∉ names) (h : Fields.Picks rest k d v d') :
      Fields.Picks (.cons names required get set s rest) k d v d'

/-- The members of an object, read one after the other into the draft. -/
inductive Fields.ReadsMembers : {δ : Type} → Fields δ → δ → List (String × Value) → δ → Prop
  | nil {δ : Type} {fields : Fields δ} {d : δ} : Fields.ReadsMembers fields d [] d
  | cons {δ : Type} {fields : Fields δ} {k : String} {v : Value} {d d₁ d' : δ}
      {ms : List (String × Value)} (h : Fields.Picks fields k d v d₁)
      (hs : Fields.ReadsMembers fields d₁ ms d') : Fields.ReadsMembers fields d ((k, v) :: ms) d'

end

/-- The JSON text layer: writing values as pretty text (two-space indentation) and as compact
text, and reading a whole text with a reader of a given shape, failing with an error that has a
message. -/
structure JsonText where
  Error : Type
  message : Error → String
  pretty : Value → String
  compact : Value → String
  decode : {α : Type} → Shape α → String → Except Error α

/-- The text layer reads back what it writes: the pretty text of a value, read with a reader
whose shape nests fewer than 128 levels, gives what the reader makes of the value. -/
def JsonText.Lawful (J : JsonText) : Prop :=
  ∀ {α : Type} (s : Shape α) (v : Value) (a : α), s.depth < 128 → s.Reads v a →
    J.decode s (J.pretty v) = .ok a

end Breadboard.Json
