import TextTemplate.Library.Registry

/-!
# What is settled in a registry

A registry only ever gains names, and a library that is frozen does not change. So a name that stands for a frozen
library stands for the very same one in every later registry: no other library can be given a name that is taken.
-/

namespace TextTemplate

theorem Library.freeze_eq_self {Tag Filter : Type} {l : Library Tag Filter} (h : l.isFrozen = true) : l.freeze = l := by
  cases l
  cases h
  rfl

theorem Entries.mem_keys_iff {α : Type} {name : String} {entries : List (String × α)} :
    name ∈ entries.map (·.1) ↔ (entries.lookup name).isSome = true := by
  rw [List.lookup_isSome_iff, List.mem_map]
  exact exists_congr fun e => and_congr_right fun _ => ⟨fun h => h ▸ beq_self_eq_true _, fun h => (eq_of_beq h).symm⟩

namespace Registry

variable {Tag Filter : Type} {r r' r'' : Registry Tag Filter} {number k : Nat} {name : String}

/-- The names that are taken: of libraries that were registered, and of those that are fetched. -/
def keys (r : Registry Tag Filter) : List String := r.registered.map (·.1) ++ r.deferred.map (·.1)

/-- The name that a library is registered under. -/
def keyFor (r : Registry Tag Filter) (number : Nat) (name : Option String) : String :=
  match name with
  | some n => if n.isEmpty then r.ownName number else n
  | none => r.ownName number

theorem contains_iff : r.contains name = true ↔ name ∈ r.keys := by
  rw [contains, Bool.or_eq_true, ← Entries.mem_keys_iff, ← Entries.mem_keys_iff, keys, List.mem_append]

/-- A library of the number can no longer be changed. -/
def FrozenAt (r : Registry Tag Filter) (number : Nat) : Prop := ∀ l, r.shelf[number]? = some l → l.isFrozen = true

/-- What is settled in the first registry is the same in the second one. -/
structure Keeps (r r' : Registry Tag Filter) : Prop where
  modules : r'.modules = r.modules
  registered : r.registered <+: r'.registered
  deferred : r.deferred <+: r'.deferred
  shelf : ∀ number, r.FrozenAt number → r'.shelf[number]? = r.shelf[number]?
  nodup : r.keys.Nodup → r'.keys.Nodup

theorem Keeps.refl (r : Registry Tag Filter) : r.Keeps r :=
  ⟨rfl, List.prefix_rfl, List.prefix_rfl, fun _ _ => rfl, id⟩

theorem FrozenAt.keeps (h : r.FrozenAt number) (hkeeps : r.Keeps r') : r'.FrozenAt number := by
  intro l hl
  rw [hkeeps.shelf number h] at hl
  exact h l hl

theorem Keeps.trans (h : r.Keeps r') (h' : r'.Keeps r'') : r.Keeps r'' where
  modules := h'.modules.trans h.modules
  registered := h.registered.trans h'.registered
  deferred := h.deferred.trans h'.deferred
  shelf number hfrozen := (h'.shelf number (hfrozen.keeps h)).trans (h.shelf number hfrozen)
  nodup hnodup := h'.nodup (h.nodup hnodup)

/-! ### Freezing -/

theorem getElem?_freeze (r : Registry Tag Filter) (k n : Nat) :
    (r.freeze k).shelf[n]? = if k = n then r.shelf[n]?.map Library.freeze else r.shelf[n]? := by
  rw [freeze, List.getElem?_modify]
  split
  · rfl
  · cases r.shelf[n]? <;> rfl

theorem frozenAt_freeze (r : Registry Tag Filter) (k : Nat) : (r.freeze k).FrozenAt k := by
  intro l hl
  rw [getElem?_freeze, if_pos rfl] at hl
  obtain ⟨l, -, rfl⟩ := Option.map_eq_some_iff.mp hl
  rfl

/-- A library that is frozen is not changed by freezing. -/
theorem FrozenAt.getElem?_freeze (h : r.FrozenAt number) (k : Nat) :
    (r.freeze k).shelf[number]? = r.shelf[number]? := by
  rw [Registry.getElem?_freeze]
  split
  · cases hl : r.shelf[number]? with
    | none => rfl
    | some l => exact congrArg some (Library.freeze_eq_self (h l hl))
  · rfl

theorem FrozenAt.freeze_eq_self (h : r.FrozenAt number) : r.freeze number = r := by
  have hshelf : r.shelf.modify number Library.freeze = r.shelf := by
    refine List.ext_getElem? fun n => ?_
    by_cases hn : number = n
    · exact hn ▸ h.getElem?_freeze number
    · exact (r.getElem?_freeze number n).trans (if_neg hn)
  rw [freeze, hshelf]

theorem keeps_freeze (r : Registry Tag Filter) (k : Nat) : r.Keeps (r.freeze k) :=
  ⟨rfl, List.prefix_rfl, List.prefix_rfl, fun _ hfrozen => hfrozen.getElem?_freeze k, id⟩

/-- The second registry is the first one with some libraries frozen. -/
def Freezes (r r' : Registry Tag Filter) : Prop := ∃ numbers : List Nat, r' = numbers.foldl freeze r

/-- The maps of the registries are the same. -/
def SameMaps (r r' : Registry Tag Filter) : Prop := r'.registered = r.registered ∧ r'.deferred = r.deferred

theorem Freezes.refl (r : Registry Tag Filter) : r.Freezes r := ⟨[], rfl⟩

theorem freezes_freeze (r : Registry Tag Filter) (k : Nat) : r.Freezes (r.freeze k) := ⟨[k], rfl⟩

theorem Freezes.trans (h : r.Freezes r') (h' : r'.Freezes r'') : r.Freezes r'' := by
  obtain ⟨numbers, rfl⟩ := h
  obtain ⟨more, rfl⟩ := h'
  exact ⟨numbers ++ more, List.foldl_append.symm⟩

theorem Freezes.keeps (h : r.Freezes r') : r.Keeps r' := by
  obtain ⟨numbers, rfl⟩ := h
  induction numbers generalizing r with
  | nil => exact .refl r
  | cons k rest ih => exact (r.keeps_freeze k).trans (ih (r := r.freeze k))

/-- Freezing adds no name and removes none. -/
theorem Freezes.sameMaps (h : r.Freezes r') : r.SameMaps r' := by
  obtain ⟨numbers, rfl⟩ := h
  induction numbers generalizing r with
  | nil => exact ⟨rfl, rfl⟩
  | cons k rest ih => exact ih (r := r.freeze k)

theorem Freezes.find_eq (h : r.Freezes r') (name : String) : r'.find name = r.find name := by
  have hnames : r'.names = r.names := by rw [names, names, h.sameMaps.1, h.sameMaps.2]
  rw [find, find, h.sameMaps.1, h.sameMaps.2, h.keeps.modules, hnames]

theorem frozenAt_freezeAll {numbers : List Nat} (h : number ∈ numbers) (r : Registry Tag Filter) :
    (numbers.foldl freeze r).FrozenAt number := by
  induction numbers generalizing r with
  | nil => cases h
  | cons k rest ih =>
    obtain rfl | h := List.mem_cons.mp h
    · exact (r.frozenAt_freeze number).keeps (Freezes.keeps ⟨rest, rfl⟩)
    · exact ih h (r.freeze k)

/-! ### Registering -/

theorem register_eq (r : Registry Tag Filter) (number : Nat) (name : Option String) : r.register number name =
    if r.contains (r.keyFor number name) then .error (.nameTaken (r.keyFor number name))
    else .ok { r.freeze number with registered := r.registered ++ [(r.keyFor number name, number)] } := rfl

theorem register_keeps {name : Option String} (h : r.register number name = .ok r') : r.Keeps r' := by
  rw [register_eq] at h
  split at h
  · cases h
  · rename_i hfree
    cases h
    refine ⟨rfl, List.prefix_append _ _, List.prefix_rfl, (r.keeps_freeze number).shelf, fun hnodup => ?_⟩
    have hnew : r.keyFor number name ∉ r.keys := fun hmem => hfree (contains_iff.mpr hmem)
    have hperm : ((r.registered ++ [(r.keyFor number name, number)]).map (·.1) ++ r.deferred.map (·.1)).Perm
        (r.keyFor number name :: r.keys) := by
      rw [List.map_append, List.append_assoc]
      exact List.perm_middle
    exact hperm.nodup_iff.mpr (List.nodup_cons.mpr ⟨hnew, hnodup⟩)

theorem registerDeferred_keeps {target : LibraryTarget} (h : r.registerDeferred name target = .ok r') :
    r.Keeps r' := by
  rw [registerDeferred] at h
  split at h
  · cases h
  · rename_i hfree
    cases h
    refine ⟨rfl, List.prefix_rfl, List.prefix_append _ _, fun _ _ => rfl, fun hnodup => ?_⟩
    have hnew : name ∉ r.keys := fun hmem => hfree (contains_iff.mpr hmem)
    have hperm : (r.registered.map (·.1) ++ (r.deferred ++ [(name, target)]).map (·.1)).Perm (name :: r.keys) := by
      rw [List.map_append, ← List.append_assoc]
      exact List.perm_append_singleton name r.keys
    exact hperm.nodup_iff.mpr (List.nodup_cons.mpr ⟨hnew, hnodup⟩)

/-! ### Finding -/

/-- The name stands for a library that is frozen: finding it again changes nothing. -/
def Stands (r : Registry Tag Filter) (name : String) (number : Nat) : Prop := r.take name = .ok (number, r)

theorem take_eq_ok_iff : r.take name = .ok (number, r') ↔ r.find name = .ok number ∧ r' = r.freeze number := by
  rw [take]
  cases r.find name with
  | error reason => simp
  | ok found =>
    constructor
    · rintro ⟨⟩
      exact ⟨rfl, rfl⟩
    · rintro ⟨⟨⟩, rfl⟩
      rfl

theorem stands_iff : r.Stands name number ↔ r.find name = .ok number ∧ r.FrozenAt number := by
  rw [Stands, take_eq_ok_iff]
  refine and_congr_right fun _ => ⟨fun h => ?_, fun h => h.freeze_eq_self.symm⟩
  rw [h]
  exact r.frozenAt_freeze number

theorem stands_of_take (h : r.take name = .ok (number, r')) : r'.Stands name number := by
  obtain ⟨hfind, rfl⟩ := take_eq_ok_iff.mp h
  exact stands_iff.mpr ⟨hfind, r.frozenAt_freeze number⟩

theorem take_freezes (h : r.take name = .ok (number, r')) : r.Freezes r' := by
  obtain ⟨-, rfl⟩ := take_eq_ok_iff.mp h
  exact r.freezes_freeze number

/-- What a name stands for it stands for after more freezing too. -/
theorem Stands.freezes (h : r.Stands name number) (hfreezes : r.Freezes r') : r'.Stands name number := by
  obtain ⟨hfind, hfrozen⟩ := stands_iff.mp h
  exact stands_iff.mpr ⟨(hfreezes.find_eq name).trans hfind, hfrozen.keeps hfreezes.keeps⟩

/-- A name is not given to another library, because it is taken. -/
theorem Keeps.find_eq (h : r.Keeps r') (hnodup : r'.keys.Nodup) (hfind : r.find name = .ok number) :
    r'.find name = .ok number := by
  obtain ⟨moreRegistered, hregistered⟩ := h.registered
  obtain ⟨moreDeferred, hdeferred⟩ := h.deferred
  rw [find] at hfind ⊢
  rw [← hregistered, ← hdeferred, List.lookup_append, List.lookup_append, h.modules]
  cases hfirst : r.registered.lookup name with
  | some found =>
    rw [hfirst] at hfind
    exact hfind
  | none =>
    rw [hfirst] at hfind
    cases hsecond : r.deferred.lookup name with
    | none =>
      rw [hsecond] at hfind
      cases hfind
    | some target =>
      rw [hsecond] at hfind
      have hmem : name ∈ r'.deferred.map (·.1) := by
        rw [← hdeferred, Entries.mem_keys_iff, List.lookup_append, hsecond]
        rfl
      have hfresh : moreRegistered.lookup name = none := by
        cases hmore : moreRegistered.lookup name with
        | none => rfl
        | some found =>
          have hboth : name ∈ r'.registered.map (·.1) := by
            rw [← hregistered, Entries.mem_keys_iff, List.lookup_append, hfirst, hmore]
            rfl
          exact absurd hmem ((List.nodup_append.mp hnodup).2.2 name hboth name · rfl)
      rw [hfresh]
      exact hfind

theorem Stands.keeps (h : r.Stands name number) (hkeeps : r.Keeps r') (hnodup : r'.keys.Nodup) :
    r'.Stands name number ∧ r'.shelf[number]? = r.shelf[number]? := by
  obtain ⟨hfind, hfrozen⟩ := stands_iff.mp h
  exact ⟨stands_iff.mpr ⟨hkeeps.find_eq hnodup hfind, hfrozen.keeps hkeeps⟩, hkeeps.shelf number hfrozen⟩

end Registry

end TextTemplate
