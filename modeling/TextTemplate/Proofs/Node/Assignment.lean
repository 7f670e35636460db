import TextTemplate.Entries

/-!
# Assigning names again

Which names a list of entries has, in which order, and what is found under each of them, after many have been put.
Names that are put once more with other items leave nothing of the items they had.
-/

namespace TextTemplate

namespace Entries

variable {α : Type} {entries entries' more more' : List (String × α)} {key : String}

theorem put_cons (key k : String) (item old : α) (rest : List (String × α)) :
    put key item ((k, old) :: rest) = if k = key then (k, item) :: rest else (k, old) :: put key item rest := by
  simp only [put, putBy, beq_iff_eq]

/-- A key that is there keeps its place, a new one comes last. -/
theorem keys_put (key : String) (item : α) (entries : List (String × α)) : (put key item entries).map (·.1) =
    if key ∈ entries.map (·.1) then entries.map (·.1) else entries.map (·.1) ++ [key] := by
  induction entries with
  | nil => rfl
  | cons e rest ih =>
    obtain ⟨k, old⟩ := e
    rw [put_cons]
    by_cases hk : k = key
    · simp [hk]
    · have hne : key ≠ k := fun h => hk h.symm
      rw [if_neg hk, List.map_cons, ih]
      by_cases hkey : key ∈ rest.map (·.1)
      · simp [hkey]
      · have hnone : key ∉ ((k, old) :: rest).map (·.1) := by simpa [hne] using hkey
        rw [if_neg hkey, if_neg hnone]
        rfl

theorem nodup_keys_put (key : String) (item : α) (h : (entries.map (·.1)).Nodup) :
    ((put key item entries).map (·.1)).Nodup := by
  rw [keys_put]
  split
  · exact h
  · rename_i hkey
    have hne : ∀ k ∈ entries.map (·.1), k ≠ key := fun k hk hsame => hkey (hsame ▸ hk)
    exact List.nodup_append.mpr ⟨h, by simp, by simpa using hne⟩

theorem nodup_keys_putAll (more : List (String × α)) (h : (entries.map (·.1)).Nodup) :
    ((putAll entries more).map (·.1)).Nodup := by
  induction more generalizing entries with
  | nil => exact h
  | cons e rest ih => exact ih (nodup_keys_put e.1 e.2 h)

/-- Which keys there are depends on the keys only. -/
theorem keys_putAll_congr (h : entries.map (·.1) = entries'.map (·.1)) (hmore : more.map (·.1) = more'.map (·.1)) :
    (putAll entries more).map (·.1) = (putAll entries' more').map (·.1) := by
  induction more generalizing entries entries' more' with
  | nil =>
    obtain rfl : more' = [] := List.map_eq_nil_iff.mp hmore.symm
    exact h
  | cons e rest ih =>
    obtain ⟨e', rest', rfl, hkey, hrest⟩ := List.map_eq_cons_iff.mp hmore.symm
    have hput : (put e.1 e.2 entries).map (·.1) = (put e'.1 e'.2 entries').map (·.1) := by
      simp only [keys_put, h, hkey]
    have hafter := ih hput hrest.symm
    exact hafter

theorem keys_putAll_of_subset (h : ∀ k ∈ more.map (·.1), k ∈ entries.map (·.1)) :
    (putAll entries more).map (·.1) = entries.map (·.1) := by
  induction more generalizing entries with
  | nil => rfl
  | cons e rest ih =>
    obtain ⟨hkey, hrest⟩ := List.forall_mem_cons.mp h
    have hput : (put e.1 e.2 entries).map (·.1) = entries.map (·.1) := by rw [keys_put, if_pos hkey]
    rw [← hput]
    exact ih (hput ▸ hrest)

theorem subset_keys_putAll (entries more : List (String × α)) :
    ∀ k ∈ entries.map (·.1) ++ more.map (·.1), k ∈ (putAll entries more).map (·.1) := by
  induction more generalizing entries with
  | nil => simp [putAll]
  | cons e rest ih =>
    intro k hk
    refine ih (put e.1 e.2 entries) k ?_
    rw [keys_put]
    rcases List.mem_append.mp hk with hold | hnew
    · split <;> simp [hold]
    · rcases List.mem_cons.mp hnew with rfl | hrest
      · split <;> simp_all
      · exact List.mem_append_right _ hrest

theorem put_of_notMem (item : α) (h : key ∉ entries.map (·.1)) : put key item entries = entries ++ [(key, item)] := by
  induction entries with
  | nil => rfl
  | cons e rest ih =>
    obtain ⟨k, old⟩ := e
    obtain ⟨hk, hrest⟩ : key ≠ k ∧ key ∉ rest.map (·.1) := by simpa using h
    rw [put_cons, if_neg hk.symm, ih hrest, List.cons_append]

/-- Entries with keys that are all new are added as they are. -/
theorem putAll_of_nodup (h : ((entries ++ more).map (·.1)).Nodup) : putAll entries more = entries ++ more := by
  induction more generalizing entries with
  | nil => exact (List.append_nil entries).symm
  | cons e rest ih =>
    have hnew : e.1 ∉ entries.map (·.1) := by
      rw [List.map_append, List.nodup_append] at h
      exact fun he => h.2.2 e.1 he e.1 (List.mem_map_of_mem List.mem_cons_self) rfl
    rw [List.append_cons] at h ⊢
    rw [← ih h, ← put_of_notMem e.2 hnew]
    rfl

theorem mem_of_mem_put {e : String × α} {item : α} (h : e ∈ put key item entries) : e = (key, item) ∨ e ∈ entries := by
  induction entries with
  | nil => exact .inl (List.mem_singleton.mp h)
  | cons first rest ih =>
    obtain ⟨k, old⟩ := first
    rw [put_cons] at h
    split at h
    · rename_i hk
      exact (List.mem_cons.mp h).imp (fun he => hk ▸ he) (List.mem_cons_of_mem _)
    · obtain rfl | hrest := List.mem_cons.mp h
      · exact .inr List.mem_cons_self
      · exact (ih hrest).imp_right (List.mem_cons_of_mem _)

/-- Every entry was there before or is one of those that were put. -/
theorem mem_of_mem_putAll {e : String × α} (h : e ∈ putAll entries more) : e ∈ entries ∨ e ∈ more := by
  induction more generalizing entries with
  | nil => exact .inl h
  | cons first rest ih =>
    have hfirst : e ∈ put first.1 first.2 entries ∨ e ∈ rest := ih h
    obtain hput | hrest := hfirst
    · obtain rfl | hold := mem_of_mem_put hput
      · exact .inr List.mem_cons_self
      · exact .inl hold
    · exact .inr (List.mem_cons_of_mem _ hrest)

/-- The last item put under a key is found. -/
theorem lookup_putAll (name : String) (entries more : List (String × α)) :
    (putAll entries more).lookup name = (more.reverse.lookup name).or (entries.lookup name) := by
  induction more generalizing entries with
  | nil => rfl
  | cons e rest ih =>
    rw [putAll, List.foldl_cons]
    change (putAll (put e.1 e.2 entries) rest).lookup name = _
    rw [ih, lookup_put, List.reverse_cons, List.lookup_append, Option.or_assoc]
    congr 1
    rw [lookup_cons]
    split <;> rfl

theorem lookup_eq_none_iff_notMem {name : String} : entries.lookup name = none ↔ name ∉ entries.map (·.1) := by
  rw [List.lookup_eq_none_iff, List.mem_map]
  refine ⟨?_, fun h e he => ?_⟩
  · rintro h ⟨e, he, rfl⟩
    simpa using h e he
  · simpa using fun hname : name = e.1 => h ⟨e, he, hname.symm⟩

/-- What is found among entries of different keys is what they have. -/
theorem lookup_eq_some_iff_mem {name : String} {item : α} (h : (entries.map (·.1)).Nodup) :
    entries.lookup name = some item ↔ (name, item) ∈ entries := by
  induction entries with
  | nil => simp
  | cons e rest ih =>
    obtain ⟨k, old⟩ := e
    obtain ⟨hk, hrest⟩ := List.nodup_cons.mp h
    rw [lookup_cons, List.mem_cons]
    by_cases hname : name = k
    · subst hname
      have hnone : (name, item) ∉ rest := fun hmem => hk (List.mem_map.mpr ⟨_, hmem, rfl⟩)
      simp [hnone, eq_comm]
    · simp [hname, ih hrest]

/-- From which end entries of different keys are searched makes no difference. -/
theorem lookup_reverse_of_nodup (h : (entries.map (·.1)).Nodup) (name : String) :
    entries.reverse.lookup name = entries.lookup name := by
  have hreverse : (entries.reverse.map (·.1)).Nodup := by
    rw [List.map_reverse]
    exact List.pairwise_reverse.mpr (List.Pairwise.imp Ne.symm h)
  ext item
  rw [lookup_eq_some_iff_mem hreverse, lookup_eq_some_iff_mem h, List.mem_reverse]
/-- Entries are known by their keys and by what is found under them. -/
theorem ext_of_lookup (hkeys : entries.map (·.1) = entries'.map (·.1)) (hnodup : (entries.map (·.1)).Nodup)
    (h : ∀ name, entries.lookup name = entries'.lookup name) : entries = entries' := by
  induction entries generalizing entries' with
  | nil => exact (List.map_eq_nil_iff.mp hkeys.symm).symm
  | cons e rest ih =>
    obtain ⟨e', rest', rfl, hkey, hrest⟩ := List.map_eq_cons_iff.mp hkeys.symm
    obtain ⟨k, item⟩ := e
    obtain ⟨k', item'⟩ := e'
    obtain rfl : k' = k := hkey
    obtain ⟨hnew, hnodup⟩ := List.nodup_cons.mp hnodup
    have hitem : item = item' := by simpa using h k'
    rw [hitem, ih hrest.symm hnodup fun name => ?_]
    by_cases hname : name = k'
    · rw [hname, lookup_eq_none_iff_notMem.mpr hnew, lookup_eq_none_iff_notMem.mpr (hrest ▸ hnew)]
    · simpa [lookup_cons, hname] using h name

/-- Names that are assigned over what was assigned to the same names leave nothing of it. -/
theorem putAll_again (key : String) (item old : α) (hkeys : more'.map (·.1) = more.map (·.1)) :
    putAll (put key item (putAll [(key, old)] more')) more = putAll [(key, item)] more := by
  have hall := subset_keys_putAll [(key, old)] more'
  have hput : (put key item (putAll [(key, old)] more')).map (·.1) = (putAll [(key, old)] more').map (·.1) := by
    rw [keys_put, if_pos (hall key (by simp))]
  refine ext_of_lookup ?_ ?_ fun name => ?_
  · rw [keys_putAll_of_subset fun k hk => hput ▸ hall k (List.mem_append_right _ (hkeys ▸ hk)), hput]
    exact keys_putAll_congr rfl hkeys
  · exact nodup_keys_putAll _ (nodup_keys_put _ _ (nodup_keys_putAll _ (by simp)))
  · rw [lookup_putAll, lookup_putAll, lookup_put, lookup_putAll]
    cases hfound : more.reverse.lookup name with
    | some found => rfl
    | none =>
      have hlast : more'.reverse.lookup name = none := by
        rw [lookup_eq_none_iff_notMem, List.map_reverse, List.mem_reverse, hkeys, ← List.mem_reverse,
          ← List.map_reverse]
        exact lookup_eq_none_iff_notMem.mp hfound
      rw [hlast]
      simp only [Option.none_or, lookup_cons, List.lookup_nil]
      split <;> rfl

end Entries

end TextTemplate
