/-!
# Entries in order

Lists of keys with items, in the order in which the keys first came. Scopes, libraries, library settings and
mappings are kept so. Putting an item under a key that is there already changes the item and nothing else.
-/

namespace TextTemplate.Entries

variable {κ α : Type}

/-- Put an item under a key: a key that is there already, as `same` tells, keeps its place and its form. -/
def putBy (same : κ → κ → Bool) (key : κ) (item : α) : List (κ × α) → List (κ × α)
  | [] => [(key, item)]
  | (k, old) :: rest => if same k key then (k, item) :: rest else (k, old) :: putBy same key item rest

/-- Put an item under a key. -/
def put [BEq κ] (key : κ) (item : α) (entries : List (κ × α)) : List (κ × α) :=
  putBy (· == ·) key item entries

/-- Put all entries of a second list into the first, one by one. -/
def putAll [BEq κ] (entries more : List (κ × α)) : List (κ × α) :=
  more.foldl (fun es e => put e.1 e.2 es) entries

theorem lookup_cons [BEq κ] (name k : κ) (item : α) (rest : List (κ × α)) :
    List.lookup name ((k, item) :: rest) = if name == k then some item else List.lookup name rest := by
  rw [List.lookup_cons]
  cases name == k <;> rfl

/-- A put item is found under its key, and every other key finds what it found before. -/
theorem lookup_put [BEq κ] [LawfulBEq κ] (name key : κ) (item : α) (entries : List (κ × α)) :
    (put key item entries).lookup name = if name == key then some item else entries.lookup name := by
  induction entries with
  | nil => exact lookup_cons name key item []
  | cons e rest ih =>
    obtain ⟨k, old⟩ := e
    simp only [put] at ih
    by_cases hk : k = key
    · subst hk
      simp only [put, putBy, beq_self_eq_true, ↓reduceIte, lookup_cons]
      split <;> rfl
    · simp only [put, putBy, beq_iff_eq, hk, ↓reduceIte, lookup_cons, ih]
      by_cases h : name = k
      · subst h
        simp [hk]
      · simp [h]

end TextTemplate.Entries
