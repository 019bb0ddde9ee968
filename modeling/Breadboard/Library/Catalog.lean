import Breadboard.Library.Core
/-!
# The library catalog

The libraries an editor session knows about, in registration order, and which of them are
active. A new catalog holds the core library, active. Registering a library whose name is
taken is refused and leaves it inactive otherwise; the core library can be neither removed
nor deactivated. The palette lists the functions of the active libraries, and groups them
by category: a function's own category, or else its library's display name (for a free
function) or its class's name (for a method); categories come in byte order.
-/

namespace Breadboard

/-- Registered libraries and the names of the active ones. -/
structure Catalog where
  libraries : List Library
  active : List String
  deriving Repr

/-- Why a catalog operation was refused. -/
inductive CatalogError where
  | duplicateLibrary (name : String)
  | unknownLibrary (name : String)
  | coreProtected (name : String)
  deriving DecidableEq, Repr

namespace CatalogError

/-- The name of the error's kind. -/
def kindName : CatalogError → String
  | .duplicateLibrary _ => "DuplicateLibrary"
  | .unknownLibrary _ => "UnknownLibrary"
  | .coreProtected _ => "CoreLibraryProtected"

/-- The text of the error. -/
def message : CatalogError → String
  | .duplicateLibrary n => "Library '" ++ n ++ "' already exists"
  | .unknownLibrary n => "Library '" ++ n ++ "' is not registered"
  | .coreProtected n => "Core library '" ++ n ++ "' cannot be removed or deactivated"

end CatalogError

/-- The functions of one library with the category each is listed under: its own, or else
the library's display name (a free function) or the class's name (a method). -/
def Library.categorized (l : Library) : List (String × FunctionDecl) :=
  l.functions.map (fun f => (f.category.getD l.displayName, f)) ++
    l.classes.flatMap fun cls => cls.methods.map fun m => (m.category.getD cls.name, m)

namespace Catalog

/-- A new catalog: the core library, active. -/
def new : Catalog := ⟨[Library.core], [Library.coreName]⟩

/-- The registered library with the given name. -/
def find? (c : Catalog) (name : String) : Option Library :=
  c.libraries.find? (·.name == name)

/-- Whether the library with the given name is active. -/
def isActive (c : Catalog) (name : String) : Bool :=
  c.active.contains name

/-- Registers a library, inactive, unless its name is taken. Like every catalog operation it
gives its result, or the error it reports, together with the catalog after the call. -/
def add (c : Catalog) (l : Library) : Except CatalogError Unit × Catalog :=
  if (c.find? l.name).isSome then (.error (.duplicateLibrary l.name), c)
  else (.ok (), { c with libraries := c.libraries ++ [l] })

/-- Removes the library with the given name, returning it; the core library stays. The name
is dropped from the active list before the library is taken out. -/
def remove (c : Catalog) (name : String) : Except CatalogError Library × Catalog :=
  if name = Library.coreName then (.error (.coreProtected name), c)
  else
    match c.libraries.findIdx? (·.name == name) with
    | none => (.error (.unknownLibrary name), c)
    | some i =>
      let c := { c with active := c.active.filter (· != name) }
      (.ok (c.libraries[i]?.getD default), { c with libraries := c.libraries.eraseIdx i })

/-- Activates a registered library; an active one stays as it is. -/
def activate (c : Catalog) (name : String) : Except CatalogError Unit × Catalog :=
  if (c.find? name).isNone then (.error (.unknownLibrary name), c)
  else if c.isActive name then (.ok (), c)
  else (.ok (), { c with active := c.active ++ [name] })

/-- Deactivates a library, registered or not; the core library stays active. -/
def deactivate (c : Catalog) (name : String) : Except CatalogError Unit × Catalog :=
  if name = Library.coreName then (.error (.coreProtected name), c)
  else (.ok (), { c with active := c.active.filter (· != name) })

/-- The active libraries, in registration order. -/
def activeLibraries (c : Catalog) : List Library :=
  c.libraries.filter (c.isActive ·.name)

/-- The functions of the active libraries with their library: free functions, then
methods. -/
def functions (c : Catalog) : List (Library × FunctionDecl) :=
  c.activeLibraries.flatMap fun l => l.allFunctions.map (l, ·)

/-- The classes of the active libraries. -/
def classes (c : Catalog) : List ClassDecl :=
  c.activeLibraries.flatMap (·.classes)

/-- Adds a function under a category, keeping categories sorted and functions in order. -/
def addToCategory (cat : String) (f : FunctionDecl) :
    List (String × List FunctionDecl) → List (String × List FunctionDecl)
  | [] => [(cat, [f])]
  | (k, fs) :: rest =>
    if cat < k then (cat, [f]) :: (k, fs) :: rest
    else if cat = k then (k, fs ++ [f]) :: rest
    else (k, fs) :: addToCategory cat f rest

/-- The functions of the active libraries grouped by category, categories in byte order. -/
def byCategory (c : Catalog) : List (String × List FunctionDecl) :=
  (c.activeLibraries.flatMap Library.categorized).foldl
    (fun acc (cat, f) => addToCategory cat f acc) []

end Catalog

end Breadboard
