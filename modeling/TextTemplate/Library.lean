import TextTemplate.Entries
import TextTemplate.Text.Quoted

/-!
# Libraries

A library is a named bundle of tags and filters. It is filled by registering entries under names and then
frozen; a frozen library cannot be changed. The kinds of the entries are left open here.
-/

namespace TextTemplate

inductive LibraryFault where
  | emptyName
  | frozen (library : String)
  /-- An entry was given without the name to register it under; the entry is shown as the diagnostic has it. -/
  | nameMissing (operation entry : String)
  /-- The entries were to be changed through a view of them. -/
  | readOnly
  | nameTaken (name : String)
  deriving DecidableEq, Repr

namespace LibraryFault

/-- The text of the faults that have one. -/
def message? : LibraryFault → Option String
  | emptyName => some "Library name cannot be empty"
  | frozen library => some ("Library '" ++ library ++ "' is frozen and cannot be modified")
  | nameMissing operation entry =>
    some ("Unsupported arguments to Library." ++ operation ++ ": (None, " ++ entry ++ ")")
  | readOnly => none
  | nameTaken name => some ("Library '" ++ name ++ "' already registered")

end LibraryFault

/-- Where a registration puts an entry that has a name of its own. -/
inductive Placement where
  /-- Under its own name. -/
  | own
  /-- Under the given name, or its own one if that is missing or empty. -/
  | under (name : Option String)
  /-- Under exactly the given name, which must be there. -/
  | exactly (name : Option String)
  deriving DecidableEq, Repr

namespace Placement

/-- The name under which an entry goes, if the placement gives one. -/
def name? (ownName : String) : Placement → Option String
  | own => some ownName
  | under (some name) => some (if name.isEmpty then ownName else name)
  | under none => some ownName
  | exactly name => name

end Placement

structure Library (Tag Filter : Type) where
  name : String
  /-- Tags in the order in which their names were first registered. -/
  tags : List (String × Tag)
  filters : List (String × Filter)
  isFrozen : Bool

namespace Library

variable {Tag Filter : Type}

/-- An empty library. -/
def new (name : String) : Except LibraryFault (Library Tag Filter) :=
  if name.isEmpty then .error .emptyName else .ok ⟨name, [], [], false⟩

/-- A finished library of the given entries. -/
def ofEntries (name : String) (tags : List (String × Tag)) (filters : List (String × Filter)) :
    Library Tag Filter := ⟨name, tags, filters, false⟩

def freeze (l : Library Tag Filter) : Library Tag Filter := { l with isFrozen := true }

def tag? (l : Library Tag Filter) (name : String) : Option Tag := l.tags.lookup name

def filter? (l : Library Tag Filter) (name : String) : Option Filter := l.filters.lookup name

/-- The name for an entry in a library that can still be changed. -/
def placeFor (l : Library Tag Filter) (operation ownName entry : String) (placement : Placement) :
    Except LibraryFault String :=
  match placement.name? ownName with
  | none => .error (.nameMissing operation entry)
  | some name => if l.isFrozen then .error (.frozen l.name) else .ok name

private def overwriting (kind name library : String) : String :=
  kind ++ " '" ++ name ++ "' in library '" ++ library ++ "' overwrites existing " ++ kind.toLower

/-- Register a tag; the answer also has the warning if it takes the place of another. -/
def registerTag (l : Library Tag Filter) (placement : Placement) (ownName shown : String) (tag : Tag) :
    Except LibraryFault (Library Tag Filter × Option String) := do
  let name ← l.placeFor "tag" ownName shown placement
  let warning := if (l.tag? name).isSome then some (overwriting "Tag" name l.name) else none
  return ({ l with tags := Entries.put name tag l.tags }, warning)

/-- Register a filter; the answer also has the warning if it takes the place of another. -/
def registerFilter (l : Library Tag Filter) (placement : Placement) (ownName shown : String)
    (filter : Filter) : Except LibraryFault (Library Tag Filter × Option String) := do
  let name ← l.placeFor "filter" ownName shown placement
  let warning := if (l.filter? name).isSome then some (overwriting "Filter" name l.name) else none
  return ({ l with filters := Entries.put name filter l.filters }, warning)

/-- Entries cannot be written through the view of them that a library hands out. -/
def writeThroughView (_l : Library Tag Filter) : Except LibraryFault (Library Tag Filter) := .error .readOnly

/-- The library as diagnostics show it. -/
def shown (l : Library Tag Filter) : String :=
  "Library(" ++ Text.quoted l.name ++ ", tags=" ++ toString l.tags.length ++ ", filters=" ++
    toString l.filters.length ++ ")"

end Library

end TextTemplate
