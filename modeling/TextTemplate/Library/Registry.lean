import TextTemplate.Library
import TextTemplate.Text.Order

/-!
# Registry of libraries

The libraries that a host offers by name. A name stands for a library that was registered, or for one that
is fetched from a module of the host when it is asked for. A name is taken once and for all. Libraries are
known by their position on the shelf, so that it can be told whether two names stand for the same one;
whatever is registered or found is frozen.
-/

namespace TextTemplate

/-- Where a library is fetched from: a module of the host and the name it has there. -/
structure LibraryTarget where
  modulePath : String
  exportName : String
  deriving DecidableEq, Repr

/-- What a module of the host has under a name. -/
inductive ModuleExport where
  | library (number : Nat)
  | somethingElse
  deriving DecidableEq, Repr

/-- The modules of the host, each with what it exports. -/
abbrev HostModules := List (String × List (String × ModuleExport))

structure Registry (Tag Filter : Type) where
  shelf : List (Library Tag Filter)
  modules : HostModules
  /-- Names of libraries on the shelf. -/
  registered : List (String × Nat)
  /-- Names of libraries that are fetched when asked for. -/
  deferred : List (String × LibraryTarget)

namespace Registry

variable {Tag Filter : Type}

def new (shelf : List (Library Tag Filter)) (modules : HostModules) : Registry Tag Filter :=
  ⟨shelf, modules, [], []⟩

/-- The name under which a module has its library if none is given. -/
def defaultExport : String := "library"

def contains (r : Registry Tag Filter) (name : String) : Bool :=
  (r.registered.lookup name).isSome || (r.deferred.lookup name).isSome

/-- All names, sorted. -/
def names (r : Registry Tag Filter) : List String :=
  Text.sorted (r.registered.map (·.1) ++ r.deferred.map (·.1))

/-- Freeze a library on the shelf. -/
def freeze (r : Registry Tag Filter) (number : Nat) : Registry Tag Filter :=
  { r with shelf := r.shelf.modify number Library.freeze }

/-- The own name of a library on the shelf. -/
def ownName (r : Registry Tag Filter) (number : Nat) : String :=
  ((r.shelf[number]?).map (·.name)).getD ""

/-- Register a library under a name, or its own one if that is missing or empty, and freeze it. -/
def register (r : Registry Tag Filter) (number : Nat) (name : Option String) :
    Except LibraryFault (Registry Tag Filter) :=
  let key := match name with
    | some n => if n.isEmpty then r.ownName number else n
    | none => r.ownName number
  if r.contains key then .error (.nameTaken key)
  else .ok { r.freeze number with registered := r.registered ++ [(key, number)] }

/-- Declare a name for a library that is fetched when it is asked for. -/
def registerDeferred (r : Registry Tag Filter) (name : String) (target : LibraryTarget) :
    Except LibraryFault (Registry Tag Filter) :=
  if r.contains name then .error (.nameTaken name)
  else .ok { r with deferred := r.deferred ++ [(name, target)] }

/-- Fetch a library from a module, or say why that is not possible. -/
def fetch (modules : HostModules) (target : LibraryTarget) : Except String Nat :=
  match modules.lookup target.modulePath with
  | none =>
    .error ("cannot import '" ++ target.modulePath ++ "': No module named '" ++ target.modulePath ++ "'")
  | some exports =>
    match exports.lookup target.exportName with
    | some (.library number) => .ok number
    | _ => .error ("'" ++ target.modulePath ++ "." ++ target.exportName ++ "' is not a Library")

/-- The number of the library that a name stands for, or the reason why there is none. -/
def find (r : Registry Tag Filter) (name : String) : Except String Nat :=
  match r.registered.lookup name with
  | some number => .ok number
  | none =>
    match r.deferred.lookup name with
    | some target => fetch r.modules target
    | none =>
      .error ("available: " ++ (if r.names.isEmpty then "none" else ", ".intercalate r.names))

/-- Find a library, and freeze it. -/
def take (r : Registry Tag Filter) (name : String) : Except String (Nat × Registry Tag Filter) :=
  match r.find name with
  | .ok number => .ok (number, r.freeze number)
  | .error reason => .error reason

end Registry

end TextTemplate
