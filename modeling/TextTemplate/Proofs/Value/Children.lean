import Mathlib.Data.List.Basic
import Mathlib.Tactic.Common
import TextTemplate.Value.Sequence

/-!
# Children as the store has them

What the store leaves of the children of a value is some of those that the value was built with, in some order. So a key
that a mapping has once still leads to one entry, whatever has been taken out, and what holds of all first children
holds of all that are left.
-/

namespace TextTemplate

theorem Store.mem_of_mem_pick {α : Type} {st : Store} {id : Ident} {children : List α} {a : α}
    (h : a ∈ st.pick id children) : a ∈ children := by
  rw [Store.pick] at h
  split at h
  · exact h
  · obtain ⟨n, -, hn⟩ := List.mem_filterMap.mp h
    exact List.mem_of_getElem? hn

namespace Value

theorem keyedByText?_of_mem {key : String} {v : Value} {entries : List (Value × Value)} (h : (.text key, v) ∈ entries)
    (hunique : ∀ w, (.text key, w) ∈ entries → w = v) : Value.keyedByText? key entries = some v := by
  induction entries with
  | nil => cases h
  | cons e rest ih =>
    have hlater (hne : e ≠ (.text key, v)) : Value.keyedByText? key rest = some v :=
      ih ((List.mem_cons.mp h).resolve_left hne.symm) fun w hw => hunique w (List.mem_cons_of_mem _ hw)
    obtain ⟨k, w⟩ := e
    cases k with
    | text name =>
      rw [Value.keyedByText?]
      by_cases hname : name = key
      · subst hname
        rw [if_pos (beq_self_eq_true name), hunique w List.mem_cons_self]
      · rw [if_neg (by simpa using hname)]
        exact hlater (by simp [hname])
    | _ => exact hlater (by simp)

/-- A key that a mapping was built with once leads to its entry for as long as the entry is left. -/
theorem keyedByText?_pick {st : Store} {id : Ident} {key : String} {v : Value} {entries : List (Value × Value)}
    (h : (.text key, v) ∈ st.pick id entries) (hunique : ∀ w, (.text key, w) ∈ entries → w = v) :
    Value.keyedByText? key (st.pick id entries) = some v :=
  keyedByText?_of_mem h fun w hw => hunique w (Store.mem_of_mem_pick hw)

end Value

end TextTemplate
