import TextTemplate.Engine
import TextTemplate.Extension.Marker
import TextTemplate.Proofs.Compile.Journal
import TextTemplate.Proofs.Library.Stability

/-!
# Registered libraries stay as they are

A host fills libraries, registers them and looks them up, in any order and between the compiling of templates. It may
take a decorator from a library and use it much later. Whatever it does, a name that was found once stands for the same
library ever after, with the same tags and filters.
-/

namespace TextTemplate

/-- The two kinds of entries of a library. -/
inductive EntryKind where
  | tag
  | filter
  deriving DecidableEq

/-- The operation of a library that registers entries of the kind. -/
def EntryKind.operation : EntryKind → String
  | tag => "tag"
  | filter => "filter"

/-- A function of the host, with what it does as a tag and as a filter. -/
structure HostCallable where
  ownName : String
  shown : String
  asTag : TagFactory
  asFilter : Filter

/-- Register a function. -/
def Library.enter (l : TagLibrary) (kind : EntryKind) (placement : Placement) (f : HostCallable) :
    Except LibraryFault TagLibrary :=
  match kind with
  | .tag => (·.1) <$> l.registerTag placement f.ownName f.shown f.asTag
  | .filter => (·.1) <$> l.registerFilter placement f.ownName f.shown f.asFilter

/-- What a host keeps to register a function later. -/
structure Decorator where
  library : Nat
  kind : EntryKind
  name : Option String

/-- What a host holds: its registry and the decorators that it has taken. -/
structure Host where
  registry : Registry TagFactory Filter
  decorators : List Decorator

/-- What a host does. Libraries and decorators are known by their numbers. -/
inductive HostAction where
  | register (library : Nat) (name : Option String)
  | registerDeferred (name : String) (target : LibraryTarget)
  | find (name : String)
  /-- Register a function in a library. -/
  | enter (library : Nat) (kind : EntryKind) (placement : Placement) (f : HostCallable)
  /-- Take a decorator from a library. -/
  | decorate (library : Nat) (kind : EntryKind) (name : Option String)
  | applyDecorator (decorator : Nat) (f : HostCallable)
  | freeze (library : Nat)
  /-- Compile source, with the libraries of the given names active from the start. -/
  | compile (builtins : List String) (precedence : Precedence) (source : String)

inductive HostAnswer where
  | done
  | library (number : Nat)
  | decorator (number : Nat)
  | nodes (compiled : List Node)

inductive HostFault where
  | library (fault : LibraryFault)
  | compile (e : CompileError)
  /-- The host has no library or decorator of that number. -/
  | noSuchObject

/-- Find libraries one after the other; those that were found stay frozen if a later one is not. -/
def Registry.takeAll : List String → Registry TagFactory Filter →
    Except CompileError (List Nat) × Registry TagFactory Filter
  | [], r => (.ok [], r)
  | name :: rest, r =>
    match r.take name with
    | .error reason => (.error (.ofCause (.unknownLibrary name reason)), r)
    | .ok (number, r) => ((number :: ·) <$> (takeAll rest r).1, (takeAll rest r).2)

/-- The library that was loaded, if one was, with the name that it was loaded by. -/
def Entry.named? : Entry → Option (String × Nat)
  | ⟨_, .load name (.ok number)⟩ => some (name, number)
  | _ => none

theorem Entry.named?_eq_some_iff {e : Entry} {name : String} {number : Nat} :
    e.named? = some (name, number) ↔ e.inquiry = .load name (.ok number) := by
  obtain ⟨active, inquiry⟩ := e
  cases inquiry with
  | load found result =>
    cases result with
    | ok n => simp [named?]
    | error reason => simp [named?]
  | _ => simp [named?]

/-- What a template is compiled with. -/
def Registry.environment (r : Registry TagFactory Filter) (precedence : Precedence) : Environment :=
  ⟨r.shelf, r.find, precedence⟩

/-- The registry after a compile: every library that was loaded is frozen. -/
def Registry.afterCompile (r : Registry TagFactory Filter) (precedence : Precedence) (base : List Nat)
    (source : String) : Registry TagFactory Filter :=
  (((r.environment precedence).parse []).sessionAfter (Session.ofSource source base)).active.foldl freeze r

namespace Host

def start (shelf : List TagLibrary) (modules : HostModules) : Host := ⟨.new shelf modules, []⟩

/-- The outcome of a change to the registry, which stays as it is if the change fails. -/
def change (h : Host) : Except LibraryFault (Registry TagFactory Filter) → Except HostFault HostAnswer × Host
  | .ok r => (.ok .done, { h with registry := r })
  | .error fault => (.error (.library fault), h)

/-- Register a function in a library on the shelf. -/
def enter (h : Host) (number : Nat) (kind : EntryKind) (placement : Placement) (f : HostCallable) :
    Except HostFault HostAnswer × Host :=
  match h.registry.shelf[number]? with
  | none => (.error .noSuchObject, h)
  | some l => h.change ((fun l => { h.registry with shelf := h.registry.shelf.set number l }) <$>
      l.enter kind placement f)

/-- The answer to an action, and the host after it. -/
def perform (h : Host) : HostAction → Except HostFault HostAnswer × Host
  | .register number name =>
    match h.registry.shelf[number]? with
    | none => (.error .noSuchObject, h)
    | some _ => h.change (h.registry.register number name)
  | .registerDeferred name target => h.change (h.registry.registerDeferred name target)
  | .find name =>
    match h.registry.take name with
    | .ok (number, r) => (.ok (.library number), { h with registry := r })
    | .error reason => (.error (.compile (.ofCause (.unknownLibrary name reason))), h)
  | .enter number kind placement f => h.enter number kind placement f
  | .decorate number kind name =>
    (.ok (.decorator h.decorators.length), { h with decorators := h.decorators ++ [⟨number, kind, name⟩] })
  | .applyDecorator k f =>
    match h.decorators[k]? with
    | none => (.error .noSuchObject, h)
    | some d => h.enter d.library d.kind (.under d.name) f
  | .freeze number => (.ok .done, { h with registry := h.registry.freeze number })
  | .compile builtins precedence source =>
    match Registry.takeAll builtins h.registry with
    | (.error e, r) => (.error (.compile e), { h with registry := r })
    | (.ok base, r) =>
      (match (r.environment precedence).compile base source with
        | .ok compiled => .ok (.nodes compiled)
        | .error e => .error (.compile e), { h with registry := r.afterCompile precedence base source })

/-- The host after actions. -/
def run (h : Host) (actions : List HostAction) : Host := actions.foldl (fun h a => (h.perform a).2) h

end Host

/-! ### Frozen libraries -/

theorem Library.enter_of_isFrozen {l : TagLibrary} (h : l.isFrozen = true) (kind : EntryKind) (placement : Placement)
    (f : HostCallable) : l.enter kind placement f = .error (match placement.name? f.ownName with
      | some _ => .frozen l.name
      | none => .nameMissing kind.operation f.shown) := by
  have hplace (operation : String) : l.placeFor operation f.ownName f.shown placement =
      .error (match placement.name? f.ownName with
        | some _ => .frozen l.name
        | none => .nameMissing operation f.shown) := by
    rw [placeFor]
    cases placement.name? f.ownName with
    | none => rfl
    | some name => exact if_pos h
  cases kind with
  | tag =>
    rw [enter, registerTag, hplace]
    rfl
  | filter =>
    rw [enter, registerFilter, hplace]
    rfl

namespace Registry

variable {r r' : Registry TagFactory Filter} {names : List String} {name : String} {number : Nat}

/-- As an engine finds its libraries. -/
theorem findBuiltins_eq (names : List String) (r : Registry TagFactory Filter) :
    Engine.findBuiltins names r = (·, (takeAll names r).2) <$> (takeAll names r).1 := by
  induction names generalizing r with
  | nil => rfl
  | cons name rest ih =>
    rw [Engine.findBuiltins, takeAll]
    cases htake : r.take name with
    | error reason => rfl
    | ok found =>
      obtain ⟨number, r'⟩ := found
      dsimp only
      rw [ih]
      cases (takeAll rest r').1 <;> rfl

theorem takeAll_freezes (names : List String) (r : Registry TagFactory Filter) : r.Freezes (takeAll names r).2 := by
  induction names generalizing r with
  | nil => exact .refl r
  | cons name rest ih =>
    rw [takeAll]
    cases htake : r.take name with
    | error reason => exact .refl r
    | ok found => exact (take_freezes htake).trans (ih found.2)

/-- The libraries that are active from the start are frozen. -/
theorem takeAll_stands {base : List Nat} (h : (takeAll names r).1 = .ok base)
    (hfound : (name, number) ∈ names.zip base) : (takeAll names r).2.Stands name number := by
  induction names generalizing r base with
  | nil => cases hfound
  | cons first rest ih =>
    rw [takeAll] at h ⊢
    cases htake : r.take first with
    | error reason =>
      rw [htake] at h
      cases h
    | ok found =>
      obtain ⟨n, r'⟩ := found
      rw [htake] at h
      cases hrest : (takeAll rest r').1 with
      | error e =>
        dsimp only at h
        rw [hrest] at h
        cases h
      | ok numbers =>
        dsimp only at h
        rw [hrest] at h
        cases h
        obtain hfirst | hfound := List.mem_cons.mp hfound
        · cases hfirst
          exact (stands_of_take htake).freezes (takeAll_freezes rest r')
        · exact ih hrest hfound

/-- A library that was loaded is active at the end, so that it is frozen. -/
theorem afterCompile_stands {precedence : Precedence} {roles : TagRoles} {base : List Nat} {source : String}
    (hroles : (r.environment precedence).TagsSuit roles)
    (hload : (name, number) ∈ ((r.environment precedence).journal roles base source).filterMap Entry.named?) :
    (r.afterCompile precedence base source).Stands name number := by
  obtain ⟨e, he, hnamed⟩ := List.mem_filterMap.mp hload
  have hinquiry : e.inquiry = .load name (.ok number) := Entry.named?_eq_some_iff.mp hnamed
  have hjournals := at_journals hroles Environment.maxOpenTags [] (Session.ofSource source base)
  have hbase : (Session.ofSource source base).active = activeAfter base [] := (activeAfter_nil base).symm
  have hactive := hjournals.active base [] hbase
  have hright := hjournals.right base [] hbase
  have hanswered : r.find name = .ok number := by
    obtain ⟨before, after, hsplit⟩ := List.append_of_mem he
    rw [Environment.journal] at hsplit
    rw [hsplit] at hright
    have hanswer := hright.of_split.2
    rw [Entry.IsAnswered, hinquiry] at hanswer
    exact hanswer.symm
  have hloaded : number ∈ Entry.allLoaded ((r.environment precedence).journal roles base source) := by
    refine List.mem_flatMap.mpr ⟨e, he, ?_⟩
    rw [Entry.loaded, hinquiry]
    exact List.mem_singleton_self number
  have hmem : number ∈
      activeAfter base ([] ++ Entry.allLoaded ((r.environment precedence).journal roles base source)) :=
    List.mem_append_right _ (List.mem_dedup.mpr hloaded)
  rw [Environment.journal, ← hactive] at hmem
  exact stands_iff.mpr ⟨(Freezes.find_eq ⟨_, rfl⟩ name).trans hanswered, frozenAt_freezeAll hmem r⟩

end Registry

namespace Host

variable {h h' : Host}

theorem change_keeps {result : Except LibraryFault (Registry TagFactory Filter)}
    (hresult : ∀ r, result = .ok r → h.registry.Keeps r) : h.registry.Keeps (h.change result).2.registry := by
  cases result with
  | ok r => exact hresult r rfl
  | error fault => exact .refl _

theorem enter_of_isFrozen {number : Nat} {l : TagLibrary} (hl : h.registry.shelf[number]? = some l)
    (hfrozen : l.isFrozen = true) (kind : EntryKind) (placement : Placement) (f : HostCallable) :
    h.enter number kind placement f = (.error (.library (match placement.name? f.ownName with
      | some _ => .frozen l.name
      | none => .nameMissing kind.operation f.shown)), h) := by
  rw [enter, hl]
  dsimp only
  rw [Library.enter_of_isFrozen hfrozen]
  rfl

theorem enter_keeps (h : Host) (number : Nat) (kind : EntryKind) (placement : Placement) (f : HostCallable) :
    h.registry.Keeps (h.enter number kind placement f).2.registry := by
  cases hl : h.registry.shelf[number]? with
  | none =>
    rw [enter, hl]
    exact .refl _
  | some l =>
    by_cases hfrozen : l.isFrozen = true
    · rw [enter_of_isFrozen hl hfrozen]
      exact .refl _
    · rw [enter, hl]
      refine change_keeps fun r hr => ?_
      cases henter : l.enter kind placement f with
      | error fault =>
        rw [henter] at hr
        cases hr
      | ok l' =>
        rw [henter] at hr
        cases hr
        refine ⟨rfl, List.prefix_rfl, List.prefix_rfl, fun n hn => ?_, id⟩
        have hne : number ≠ n := fun heq => hfrozen (hn l (heq ▸ hl))
        exact List.getElem?_set_ne hne

/-- Looking a library up does nothing but freeze it. -/
theorem find_freezes (h : Host) (name : String) : h.registry.Freezes (h.perform (.find name)).2.registry := by
  rw [perform]
  cases htake : h.registry.take name with
  | error reason => exact .refl _
  | ok found => exact Registry.take_freezes htake

/-- Compiling does nothing but freeze libraries. -/
theorem compile_freezes (h : Host) (builtins : List String) (precedence : Precedence) (source : String) :
    h.registry.Freezes (h.perform (.compile builtins precedence source)).2.registry := by
  have hbuiltins := Registry.takeAll_freezes builtins h.registry
  rw [perform]
  cases htake : Registry.takeAll builtins h.registry with
  | mk found r =>
    rw [htake] at hbuiltins
    cases found with
    | error e => exact hbuiltins
    | ok base => exact hbuiltins.trans ⟨_, rfl⟩

/-- No action changes what is settled. -/
theorem perform_keeps (h : Host) (a : HostAction) : h.registry.Keeps (h.perform a).2.registry := by
  cases a with
  | register number name =>
    rw [perform]
    cases h.registry.shelf[number]? with
    | none => exact .refl _
    | some l => exact change_keeps fun r hr => Registry.register_keeps hr
  | registerDeferred name target => exact change_keeps fun r hr => Registry.registerDeferred_keeps hr
  | find name => exact (h.find_freezes name).keeps
  | enter number kind placement f => exact h.enter_keeps number kind placement f
  | decorate number kind name => exact .refl _
  | applyDecorator k f =>
    rw [perform]
    cases h.decorators[k]? with
    | none => exact .refl _
    | some d => exact h.enter_keeps d.library d.kind (.under d.name) f
  | freeze number => exact h.registry.keeps_freeze number
  | compile builtins precedence source => exact (h.compile_freezes builtins precedence source).keeps

theorem run_keeps (h : Host) (actions : List HostAction) : h.registry.Keeps (h.run actions).registry := by
  induction actions generalizing h with
  | nil => exact .refl _
  | cons a rest ih => exact (h.perform_keeps a).trans (ih _)

/-- From here on the name stands for the same library, with the same tags and filters. -/
def FoundForGood (h : Host) (name : String) (number : Nat) : Prop :=
  ∀ more, (h.run more).perform (.find name) = (.ok (.library number), h.run more) ∧
    (h.run more).registry.shelf[number]? = h.registry.shelf[number]?

theorem foundForGood_of_stands {name : String} {number : Nat} (hstands : h.registry.Stands name number)
    (hnodup : h.registry.keys.Nodup) : h.FoundForGood name number := by
  intro more
  have hkeeps := h.run_keeps more
  obtain ⟨hthen, hshelf⟩ := hstands.keeps hkeeps (hkeeps.nodup hnodup)
  refine ⟨?_, hshelf⟩
  rw [perform, show (h.run more).registry.take name = .ok (number, (h.run more).registry) from hthen]

/-- A library that was found stays found. -/
theorem perform_find_foundForGood {name : String} {number : Nat} (hnodup : h.registry.keys.Nodup)
    (hfind : h.perform (.find name) = (.ok (.library number), h')) : h'.FoundForGood name number := by
  have hkeeps := h.perform_keeps (.find name)
  rw [hfind] at hkeeps
  refine foundForGood_of_stands ?_ (hkeeps.nodup hnodup)
  rw [perform] at hfind
  cases htake : h.registry.take name with
  | error reason =>
    rw [htake] at hfind
    cases hfind
  | ok found =>
    rw [htake] at hfind
    cases hfind
    exact Registry.stands_of_take htake

/-- A compile finds the libraries that are active from the start, and those that tags load. -/
def CompileFinds (base : List Nat) (builtins : List String) (entries : List Entry) (name : String) (number : Nat) :
    Prop :=
  (name, number) ∈ builtins.zip base ∨ (name, number) ∈ entries.filterMap Entry.named?

/-- What a compile finds stays found. -/
theorem perform_compile_foundForGood {builtins : List String} {precedence : Precedence} {source : String}
    {base : List Nat} {r : Registry TagFactory Filter} {roles : TagRoles} {name : String} {number : Nat}
    (hnodup : h.registry.keys.Nodup) (htake : Registry.takeAll builtins h.registry = (.ok base, r))
    (hroles : (r.environment precedence).TagsSuit roles)
    (hfound : CompileFinds base builtins ((r.environment precedence).journal roles base source) name number) :
    (h.perform (.compile builtins precedence source)).2.FoundForGood name number := by
  refine foundForGood_of_stands ?_ ((h.perform_keeps _).nodup hnodup)
  rw [perform, htake]
  obtain hbuiltin | hload := hfound
  · have hstands := Registry.takeAll_stands (congrArg Prod.fst htake) hbuiltin
    rw [htake] at hstands
    exact hstands.freezes ⟨_, rfl⟩
  · exact Registry.afterCompile_stands hroles hload

/-- After any actions no name is taken twice, and registering under a name that is taken changes nothing. A library
that has been found under a name, by the host or by a template that it compiles, stays what the name stands for, and as
it is. Whatever is to be registered in a frozen library, by a decorator too, is refused, and nothing changes. The maps
from names stay the same when libraries are looked up and templates compiled. -/
theorem run_registered (shelf : List TagLibrary) (modules : HostModules) (actions : List HostAction) :
    let h := (start shelf modules).run actions
    h.registry.keys.Nodup ∧
      (∀ number name l, h.registry.shelf[number]? = some l → h.registry.keyFor number name ∈ h.registry.keys →
        h.perform (.register number name) = (.error (.library (.nameTaken (h.registry.keyFor number name))), h)) ∧
      (∀ name target, name ∈ h.registry.keys →
        h.perform (.registerDeferred name target) = (.error (.library (.nameTaken name)), h)) ∧
      (∀ name number h', h.perform (.find name) = (.ok (.library number), h') → h'.FoundForGood name number) ∧
      (∀ number kind placement f l, h.registry.shelf[number]? = some l → l.isFrozen = true →
        h.perform (.enter number kind placement f) = (.error (.library (match placement.name? f.ownName with
          | some _ => .frozen l.name
          | none => .nameMissing kind.operation f.shown)), h)) ∧
      (∀ k d f l, h.decorators[k]? = some d → h.registry.shelf[d.library]? = some l → l.isFrozen = true →
        h.perform (.applyDecorator k f) = (.error (.library (.frozen l.name)), h)) ∧
      (∀ name, h.registry.SameMaps (h.perform (.find name)).2.registry) ∧
      ∀ builtins precedence source,
        h.registry.SameMaps (h.perform (.compile builtins precedence source)).2.registry ∧
          ∀ base r roles name number, Registry.takeAll builtins h.registry = (.ok base, r) →
            (r.environment precedence).TagsSuit roles →
            CompileFinds base builtins ((r.environment precedence).journal roles base source) name number →
            (h.perform (.compile builtins precedence source)).2.FoundForGood name number := by
  intro h
  have hnodup : h.registry.keys.Nodup := ((start shelf modules).run_keeps actions).nodup List.nodup_nil
  refine ⟨hnodup, ?_, ?_, fun name number h' => perform_find_foundForGood hnodup, ?_, ?_,
    fun name => (h.find_freezes name).sameMaps,
    fun builtins precedence source => ⟨(h.compile_freezes builtins precedence source).sameMaps,
      fun base r roles name number => perform_compile_foundForGood hnodup⟩⟩
  · intro number name l hl htaken
    rw [perform, hl]
    dsimp only
    rw [Registry.register_eq, if_pos (Registry.contains_iff.mpr htaken)]
    rfl
  · intro name target htaken
    rw [perform, Registry.registerDeferred, if_pos (Registry.contains_iff.mpr htaken)]
    rfl
  · exact fun number kind placement f l hl hfrozen => enter_of_isFrozen hl hfrozen kind placement f
  · intro k d f l hd hl hfrozen
    rw [perform, hd]
    dsimp only
    rw [enter_of_isFrozen hl hfrozen]
    cases d.name <;> rfl

/-- A library with a tag that loads the library it names, and an empty library. -/
def lendingShelf : List TagLibrary :=
  [.ofEntries "tools" [("use", fun content h => do let _ ← h.load content; return none)] [], .ofEntries "demo" [] []]

/-- What the tag of `lendingShelf` does. -/
def lendingRoles : TagRoles := fun _ _ => .host fun content => .ask (.load content) fun _ => .done none

/-- The libraries of `lendingShelf`, one registered and the other to be fetched, with a decorator of the other one. -/
def lending : Host :=
  (start lendingShelf [("pkg.demo", [("library", .library 1)])]).run
    [.register 0 none, .registerDeferred "demo" ⟨"pkg.demo", Registry.defaultExport⟩,
      .decorate 1 .filter (some "shout")]

def lendingSource : String := "\x7b% use demo %\x7d"

theorem lending_tagsSuit : ((lending.registry.freeze 0).environment .latest).TagsSuit lendingRoles := by
  intro number name factory h
  match number, h with
  | 0, h =>
    have hlookup : lendingShelf.head?.bind (·.tag? name) = some factory := h
    rw [lendingShelf, List.head?_cons, Option.bind_some, Library.ofEntries, Library.tag?, Entries.lookup_cons]
      at hlookup
    split at hlookup
    · cases hlookup
      exact fun _ _ => rfl
    · cases hlookup
  | 1, h => cases h
  | number + 2, h => cases h

theorem lending_loads : ("demo", 1) ∈ (((lending.registry.freeze 0).environment .latest).journal
    lendingRoles [0] lendingSource).filterMap Entry.named? := by decide +kernel

/-- A decorator was taken from the library `demo`, which is then loaded by a template. The decorator is refused from
then on, and the name is taken and stands for that library. -/
theorem run_registered_lending :
    let h := (lending.perform (.compile ["tools"] .latest lendingSource)).2
    let shout : HostCallable := ⟨"shout", "<function shout>", fun _ _ => return none, Extension.markerFilter "!"⟩
    h.FoundForGood "demo" 1 ∧ h.perform (.applyDecorator 0 shout) = (.error (.library (.frozen "demo")), h) ∧
      h.perform (.register 1 (some "demo")) = (.error (.library (.nameTaken "demo")), h) := by
  intro h shout
  have hactive : ((((lending.registry.freeze 0).environment .latest).parse []).sessionAfter
      (Session.ofSource lendingSource [0])).active = [0, 1] := by decide +kernel
  have hregistry : h.registry = [0, 1].foldl Registry.freeze (lending.registry.freeze 0) :=
    congrArg (List.foldl Registry.freeze (lending.registry.freeze 0)) hactive
  have hdemo : h.registry.shelf[1]? = some ⟨"demo", [], [], true⟩ := by
    rw [hregistry]
    rfl
  have hkeys : h.registry.keyFor 1 (some "demo") ∈ h.registry.keys := by
    rw [hregistry]
    decide
  obtain ⟨-, -, -, -, -, -, -, hcompile⟩ := run_registered lendingShelf [("pkg.demo", [("library", .library 1)])]
    [.register 0 none, .registerDeferred "demo" ⟨"pkg.demo", Registry.defaultExport⟩,
      .decorate 1 .filter (some "shout")]
  obtain ⟨-, htaken, -, -, -, hdecorated, -⟩ :=
    run_registered lendingShelf [("pkg.demo", [("library", .library 1)])]
      [.register 0 none, .registerDeferred "demo" ⟨"pkg.demo", Registry.defaultExport⟩,
        .decorate 1 .filter (some "shout"), .compile ["tools"] .latest lendingSource]
  obtain ⟨-, hfound⟩ := hcompile ["tools"] .latest lendingSource
  exact ⟨hfound [0] _ lendingRoles "demo" 1 rfl lending_tagsSuit (.inr lending_loads),
    hdecorated 0 ⟨1, .filter, some "shout"⟩ shout _ rfl hdemo rfl, htaken 1 (some "demo") _ hdemo hkeys⟩

end Host

end TextTemplate
