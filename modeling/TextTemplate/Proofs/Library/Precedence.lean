import Mathlib.Data.List.Dedup
import TextTemplate.Extension.Marker
import TextTemplate.Library.Standard
import TextTemplate.Proofs.Compile.HostTag

/-!
# Order of the active libraries

Loading moves a library to the end of the list of active libraries. So the list is known from the loads made so
far: first come the libraries of the base that were not loaded since, in the order of the base, then the loaded
ones, each at the position of its last load. A name is looked up in this list from its end or from its start.
-/

namespace TextTemplate

/-! ## Loads -/

/-- The active libraries after loads: those of the base that were not loaded since, in base order, and then the
loaded ones by the position of their last load. -/
def activeAfter (base loads : List Nat) : List Nat := base.filter (· ∉ loads) ++ loads.dedup

@[simp] theorem activeAfter_nil (base : List Nat) : activeAfter base [] = base := by simp [activeAfter]

/-- Only the last occurrence of what is appended is kept. -/
theorem dedup_concat (l : List Nat) (n : Nat) : (l ++ [n]).dedup = l.dedup.filter (· != n) ++ [n] := by
  induction l with
  | nil => rfl
  | cons a l ih =>
    rw [List.cons_append]
    by_cases hmem : a ∈ l
    · rw [List.dedup_cons_of_mem (List.mem_append_left _ hmem), List.dedup_cons_of_mem hmem, ih]
    · rw [List.dedup_cons_of_notMem hmem]
      by_cases hn : a = n
      · rw [List.dedup_cons_of_mem (by simp [hn]), ih, List.filter_cons_of_neg (by simp [hn])]
      · rw [List.dedup_cons_of_notMem (by simp [hmem, hn]), ih, List.filter_cons_of_pos (by simpa using hn),
          List.cons_append]

/-- A library that is loaded leaves its place and becomes the last one. -/
theorem activeAfter_concat (base loads : List Nat) (n : Nat) :
    activeAfter base (loads ++ [n]) = (activeAfter base loads).filter (· != n) ++ [n] := by
  have hbase : base.filter (· ∉ loads ++ [n]) = (base.filter (· ∉ loads)).filter (· != n) := by
    rw [List.filter_filter]
    refine List.filter_congr fun m _ => ?_
    simp only [List.mem_append, List.mem_singleton, not_or, Bool.decide_and, decide_not]
    rw [Bool.and_comm]
    rfl
  rw [activeAfter, activeAfter, dedup_concat, hbase, List.filter_append, List.append_assoc]

variable {α : Type}

namespace Environment

variable (env : Environment)

/-- The tag that the library of a number has under a name. -/
def tagOf (name : String) (number : Nat) : Option TagFactory := (env.libraries[number]?).bind (·.tag? name)

/-- The filter that the library of a number has under a name. -/
def filterOf (name : String) (number : Nat) : Option Filter := (env.libraries[number]?).bind (·.filter? name)

/-- The numbers of the active libraries, the one that wins first. -/
def searched (active : List Nat) : List Nat :=
  match env.precedence with
  | .latest => active.reverse
  | .earliest => active

theorem findSome?_inOrder (active : List Nat) (has : TagLibrary → Option α) :
    (env.inOrder active).findSome? has =
      (env.searched active).findSome? fun number => (env.libraries[number]?).bind has := by
  have hfilter (numbers : List Nat) : (numbers.filterMap (env.libraries[·]?)).findSome? has =
      numbers.findSome? fun number => (env.libraries[number]?).bind has := by
    induction numbers with
    | nil => rfl
    | cons number rest ih =>
      cases hl : env.libraries[number]? with
      | none => simp [hl, ih]
      | some l =>
        rw [List.filterMap_cons_some hl, List.findSome?_cons, List.findSome?_cons, hl, ih]
        rfl
  exact hfilter _

theorem tag?_eq (active : List Nat) (name : String) :
    env.tag? active name = (env.searched active).findSome? (env.tagOf name) :=
  env.findSome?_inOrder active _

theorem filter?_eq (active : List Nat) (name : String) :
    env.filter? active name = (env.searched active).findSome? (env.filterOf name) :=
  env.findSome?_inOrder active _

variable {env}

theorem findTag_run {s : Session} {name : String} {factory : TagFactory}
    (h : env.tag? s.active name = some factory) : env.findTag name s = .ok factory s := by
  rw [findTag, run_bind_get, h]
  rfl

theorem filterLookup_eq_ok_iff {active : List Nat} {name : String} {f : Filter} :
    env.filterLookup active name = .ok f ↔ env.filter? active name = some f := by
  rw [filterLookup]
  cases env.filter? active name <;> simp

end Environment

/-! ## Loads one after the other -/

namespace Environment

variable (env : Environment)

/-- Load the libraries of some names one after the other; a load that fails is passed over. -/
def loadEach (names : List String) : CompileM Unit :=
  names.forM fun name => do
    let _ ← CompileM.attempt (env.load name)

/-- The libraries that are loaded under some names, in order. -/
def loadedUnder (names : List String) : List Nat := names.filterMap fun name => (env.find name).toOption

/-- A load changes nothing but the place of the library, and nothing at all if it fails. -/
theorem attempt_load_run (name : String) (s : Session) {base loads : List Nat}
    (hs : s.active = activeAfter base loads) :
    (do let _ ← CompileM.attempt (env.load name) : CompileM Unit) s =
      .ok () { s with active := activeAfter base (loads ++ (env.find name).toOption.toList) } := by
  have hactive : ({ s with active := activeAfter base loads } : Session) = s := by rw [← hs]
  rw [run_bind, CompileM.attempt]
  cases hfind : env.find name with
  | error reason =>
    have hload : env.load name s = .error (.ofCause (.unknownLibrary name reason)) s := by
      rw [load, hfind]
      rfl
    rw [hload, Except.toOption, Option.toList_none, List.append_nil, hactive]
    rfl
  | ok number =>
    obtain ⟨answer, hload⟩ : ∃ answer, env.load name s =
        .ok answer { s with active := s.active.filter (· != number) ++ [number] } := by
      rw [load, hfind]
      exact ⟨_, rfl⟩
    rw [hload, Except.toOption, Option.toList_some, activeAfter_concat, ← hs]
    rfl

/-- Whatever is loaded, the list of active libraries is the one that the loads give. -/
theorem loadEach_run (names : List String) (s : Session) {base loads : List Nat}
    (hs : s.active = activeAfter base loads) : env.loadEach names s =
      .ok () { s with active := activeAfter base (loads ++ env.loadedUnder names) } := by
  induction names generalizing s loads with
  | nil =>
    rw [loadedUnder, List.filterMap_nil, List.append_nil, ← hs]
    rfl
  | cons name rest ih =>
    have hfirst := env.attempt_load_run name s hs
    have hrest := ih { s with active := activeAfter base (loads ++ (env.find name).toOption.toList) } rfl
    have hunder : env.loadedUnder (name :: rest) = (env.find name).toOption.toList ++ env.loadedUnder rest := by
      rw [loadedUnder, loadedUnder, List.filterMap_cons]
      cases env.find name <;> rfl
    rw [loadEach, List.forM, run_bind_ok hfirst, hunder, ← List.append_assoc]
    exact hrest

end Environment

/-! ## The earliest library wins -/

/-- The library of a number is the first one of a list that has an answer. -/
def IsFirst (has : Nat → Option α) (libraries : List Nat) (number : Nat) (a : α) : Prop :=
  ∃ before after, libraries = before ++ number :: after ∧ has number = some a ∧ ∀ m ∈ before, has m = none

namespace IsFirst

variable {has : Nat → Option α} {libraries more loads base : List Nat} {number : Nat} {a : α}

theorem findSome? (h : IsFirst has libraries number a) : (libraries ++ more).findSome? has = some a := by
  obtain ⟨before, after, rfl, hhas, hbefore⟩ := h
  rw [List.append_assoc, List.findSome?_append, List.findSome?_eq_none_iff.mpr hbefore, Option.none_or,
    List.cons_append, List.findSome?_cons, hhas]

/-- A first library that is not loaded is still the first among those that are not. -/
theorem filter (h : IsFirst has base number a) (hnumber : number ∉ loads) :
    IsFirst has (base.filter (· ∉ loads)) number a := by
  obtain ⟨before, after, rfl, hhas, hbefore⟩ := h
  refine ⟨before.filter (· ∉ loads), after.filter (· ∉ loads), ?_, hhas, fun m hm => ?_⟩
  · rw [List.filter_append, List.filter_cons_of_pos (by simpa using hnumber)]
  · exact hbefore m (List.mem_of_mem_filter hm)

/-- Loads do not take a name from the libraries of the base that are not loaded themselves. -/
theorem findSome?_activeAfter (h : IsFirst has (base.filter (· ∉ loads)) number a) :
    (activeAfter base loads).findSome? has = some a := h.findSome?

end IsFirst

namespace Environment

variable {env : Environment} {s : Session} {name : String}

/-- The first library that has a tag is where it is found. -/
theorem findTag_of_isFirst (hearliest : env.precedence = .earliest) {factory : TagFactory}
    (h : (s.active).findSome? (env.tagOf name) = some factory) : env.findTag name s = .ok factory s := by
  refine findTag_run ?_
  rw [tag?_eq, searched, hearliest]
  exact h

theorem filterLookup_of_isFirst (hearliest : env.precedence = .earliest) {active : List Nat} {f : Filter}
    (h : active.findSome? (env.filterOf name) = some f) : env.filterLookup active name = .ok f := by
  refine filterLookup_eq_ok_iff.mpr ?_
  rw [filter?_eq, searched, hearliest]
  exact h

/-- Whatever is loaded, a name that a library of the base has which is not loaded itself is found in the first
such library; so if the library that a name was found in before is not loaded, the name is found in it after. -/
theorem earliest_keeps_base (hearliest : env.precedence = .earliest) (names : List String) (s : Session) :
    ∃ s', env.loadEach names s = .ok () s' ∧
      (∀ name number factory,
        (IsFirst (env.tagOf name) (s.active.filter (· ∉ env.loadedUnder names)) number factory →
          env.findTag name s' = .ok factory s') ∧
        (IsFirst (env.tagOf name) s.active number factory → number ∉ env.loadedUnder names →
          env.findTag name s = .ok factory s ∧ env.findTag name s' = .ok factory s')) ∧
      ∀ name number f,
        (IsFirst (env.filterOf name) (s.active.filter (· ∉ env.loadedUnder names)) number f →
          env.filterLookup s'.active name = .ok f) ∧
        (IsFirst (env.filterOf name) s.active number f → number ∉ env.loadedUnder names →
          env.filterLookup s.active name = .ok f ∧ env.filterLookup s'.active name = .ok f) := by
  have hrun := env.loadEach_run names s (activeAfter_nil s.active).symm
  rw [List.nil_append] at hrun
  refine ⟨_, hrun, fun name number factory => ?_, fun name number f => ?_⟩
  · have hafter (h : IsFirst (env.tagOf name) (s.active.filter (· ∉ env.loadedUnder names)) number factory) :=
      findTag_of_isFirst (s := { s with active := activeAfter s.active (env.loadedUnder names) }) hearliest
        h.findSome?_activeAfter
    refine ⟨hafter, fun h hnumber => ⟨findTag_of_isFirst hearliest ?_, hafter (h.filter hnumber)⟩⟩
    rw [← List.append_nil s.active]
    exact h.findSome?
  · have hafter (h : IsFirst (env.filterOf name) (s.active.filter (· ∉ env.loadedUnder names)) number f) :=
      filterLookup_of_isFirst hearliest h.findSome?_activeAfter
    refine ⟨hafter, fun h hnumber => ⟨filterLookup_of_isFirst hearliest ?_, hafter (h.filter hnumber)⟩⟩
    rw [← List.append_nil s.active]
    exact h.findSome?

/-- The standard libraries, and one of the host that has a filter of its own under the name `upper`. -/
def exclaiming (precedence : Precedence) : Environment where
  libraries := [StandardLibrary.tags, StandardLibrary.filters,
    Extension.markerLibrary "exclaim" "!" ["hello"] ["upper"]]
  find
    | "defaulttags" => .ok 0
    | "defaultfilters" => .ok 1
    | "exclaim" => .ok 2
    | _ => .error "available: defaultfilters, defaulttags, exclaim"
  precedence := precedence

/-- Loading the library of the host does not take the filter `upper` from the standard filters. -/
theorem earliest_keeps_base_upper : (exclaiming .earliest).precedence = .earliest ∧ ∃ s' f,
    (exclaiming .earliest).loadEach ["exclaim"] (.ofSource "" [0, 1]) = .ok () s' ∧
      StandardFilter.all.lookup "upper" = some f ∧
      (exclaiming .earliest).filterLookup [0, 1] "upper" = .ok f ∧
      (exclaiming .earliest).filterLookup s'.active "upper" = .ok f := by
  obtain ⟨s', hrun, -, hfilters⟩ := earliest_keeps_base
    (show (exclaiming .earliest).precedence = .earliest from rfl) ["exclaim"] (.ofSource "" [0, 1])
  have hfirst : IsFirst ((exclaiming .earliest).filterOf "upper") [0, 1] 1 (StandardFilter.ofText Text.upper) :=
    ⟨[0], [], rfl, rfl, by simp [filterOf, exclaiming, StandardLibrary.tags, Library.ofEntries, Library.filter?]⟩
  obtain ⟨hbefore, hafter⟩ := (hfilters "upper" 1 _).2 hfirst (by decide)
  exact ⟨rfl, s', _, hrun, rfl, hbefore, hafter⟩

/-- A library of the base that is loaded again comes last: then the library of the host that was loaded before it
wins, and the filter `upper` is not the one that was found before. -/
theorem earliest_reload_overrides : ∃ s' f f',
    (exclaiming .earliest).loadEach ["exclaim", "defaultfilters"] (.ofSource "" [0, 1]) = .ok () s' ∧
      (exclaiming .earliest).filterOf "upper" 1 = some f ∧ (exclaiming .earliest).filterOf "upper" 2 = some f' ∧
      (exclaiming .earliest).filterLookup [0, 1] "upper" = .ok f ∧
      (exclaiming .earliest).filterLookup s'.active "upper" = .ok f' ∧ f ≠ f' := by
  refine ⟨_, _, _, loadEach_run _ _ _ (activeAfter_nil [0, 1]).symm, rfl, rfl, rfl, rfl, fun h => ?_⟩
  -- the two filters differ in what they make of one text
  have hupper : (StandardFilter.ofText Text.upper).run [.text "x"] (.empty 0) = .ok (.text "X") (.empty 0) := rfl
  have hmarker : (Extension.markerFilter "!").run [.text "x"] (.empty 0) = .ok (.text "x!") (.empty 0) := rfl
  have hsame : EStateM.Result.ok (Value.text "X") (Store.empty 0) = .ok (.text "x!") (.empty 0) :=
    hupper.symm.trans ((congrArg (fun f => f.run [.text "x"] (.empty 0)) h).trans hmarker)
  exact absurd hsame (by simp)

end Environment

end TextTemplate
