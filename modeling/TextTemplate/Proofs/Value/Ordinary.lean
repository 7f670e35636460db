import TextTemplate.Proofs.Token.Reading
import TextTemplate.Proofs.Value.Children

/-!
# Ordinary data

Data that a program hands to a template without thinking of templates: scalars, containers of them to any depth, and
objects that only hold data. Such a value can always be written, whatever has been taken out of its lists and mappings.
-/

namespace TextTemplate.Value

mutual

/-- Scalars, containers and objects that hold data. No integer in them is too long to be written. -/
def isOrdinary : Value → Bool
  | none | bool _ | float _ | nan _ | text _ => true
  | int n => Integer.isWritable n
  | list _ items | tuple items | set items => allOrdinary items
  | mapping _ entries => entriesOrdinary entries
  | hostObject _ attributes => attributesOrdinary attributes
  | _ => false

def allOrdinary : List Value → Bool
  | [] => true
  | v :: rest => v.isOrdinary && allOrdinary rest

def entriesOrdinary : List (Value × Value) → Bool
  | [] => true
  | (k, v) :: rest => k.isOrdinary && v.isOrdinary && entriesOrdinary rest

def attributesOrdinary : List (String × Value) → Bool
  | [] => true
  | (_, v) :: rest => v.isOrdinary && attributesOrdinary rest

end

theorem isOrdinary_of_lookup {v : Value} {name : String} {attributes : List (String × Value)}
    (h : attributesOrdinary attributes = true) (hv : attributes.lookup name = some v) : v.isOrdinary = true := by
  induction attributes with
  | nil => cases hv
  | cons e rest ih =>
    obtain ⟨key, w⟩ := e
    rw [attributesOrdinary, Bool.and_eq_true] at h
    rw [List.lookup_cons] at hv
    split at hv
    · cases hv
      exact h.1
    · exact ih h.2 hv

/-! ## Writing -/

theorem allWritable_iff {items : List Value} : allWritable items = true ↔ ∀ v ∈ items, v.isWritable = true := by
  induction items with
  | nil => simp [allWritable]
  | cons v rest ih => rw [allWritable, Bool.and_eq_true, ih, List.forall_mem_cons]

theorem entriesWritable_iff {withKeys withValues : Bool} {entries : List (Value × Value)} :
    entriesWritable withKeys withValues entries = true ↔
      ∀ e ∈ entries, (withKeys = true → e.1.isWritable = true) ∧ (withValues = true → e.2.isWritable = true) := by
  induction entries with
  | nil => simp [entriesWritable]
  | cons e rest ih =>
    rw [entriesWritable, Bool.and_eq_true, ih, List.forall_mem_cons]
    cases withKeys <;> cases withValues <;> simp

theorem allWritable_pick {items : List Value} (h : allWritable items = true) (st : Store) (id : Ident) :
    allWritable (st.pick id items) = true :=
  allWritable_iff.mpr fun v hv => allWritable_iff.mp h v (Store.mem_of_mem_pick hv)

theorem entriesWritable_pick {withKeys withValues : Bool} {entries : List (Value × Value)}
    (h : entriesWritable withKeys withValues entries = true) (st : Store) (id : Ident) :
    entriesWritable withKeys withValues (st.pick id entries) = true :=
  entriesWritable_iff.mpr fun e he => entriesWritable_iff.mp h e (Store.mem_of_mem_pick he)

mutual

/-- No change makes a value too long to be written. -/
theorem isWritable_settle (st : Store) : (v : Value) → v.isWritable = true → (v.settle st).isWritable = true
  | .list id items => fun h => by
    rw [settle, isWritable]
    rw [isWritable] at h
    exact allWritable_pick (allWritable_settleAll st items h) st id
  | .tuple items => fun h => by
    rw [settle, isWritable]
    rw [isWritable] at h
    exact allWritable_settleAll st items h
  | .mapping id entries => fun h => by
    rw [settle, isWritable]
    rw [isWritable] at h
    exact entriesWritable_pick (entriesWritable_settleEntries st true true entries h) st id
  | .view kind id source entries => fun h => by
    rw [settle, isWritable]
    rw [isWritable] at h
    exact entriesWritable_pick (entriesWritable_settleEntries st _ _ entries h) st source
  | .int _ | .set _ => fun h => by rwa [settle]
  | .none | .bool _ | .float _ | .nan _ | .text _ | .onceOnly _ _ | .hostObject _ _ | .hostType _ _
  | .hostFunction _ _ _ => fun _ => rfl

theorem allWritable_settleAll (st : Store) : (items : List Value) → allWritable items = true →
    allWritable (settleAll st items) = true
  | [] => fun h => h
  | v :: rest => fun h => by
    rw [allWritable, Bool.and_eq_true] at h
    rw [settleAll, allWritable, isWritable_settle st v h.1, allWritable_settleAll st rest h.2]
    rfl

theorem entriesWritable_settleEntries (st : Store) (withKeys withValues : Bool) : (entries : List (Value × Value)) →
    entriesWritable withKeys withValues entries = true →
    entriesWritable withKeys withValues (settleEntries st entries) = true
  | [] => fun h => h
  | (k, v) :: rest => fun h => by
    rw [entriesWritable, Bool.and_eq_true, Bool.and_eq_true, Bool.or_eq_true, Bool.or_eq_true] at h
    obtain ⟨⟨hk, hv⟩, hrest⟩ := h
    rw [settleEntries, entriesWritable, Bool.and_eq_true, Bool.and_eq_true, Bool.or_eq_true, Bool.or_eq_true]
    exact ⟨⟨hk.imp_right (isWritable_settle st k), hv.imp_right (isWritable_settle st v)⟩,
      entriesWritable_settleEntries st withKeys withValues rest hrest⟩

end

mutual

theorem isWritable_of_isOrdinary : (v : Value) → v.isOrdinary = true → v.isWritable = true
  | .int _ => fun h => by rwa [isOrdinary] at h
  | .list _ items | .tuple items | .set items => fun h => by
    rw [isOrdinary] at h
    rw [isWritable]
    exact allWritable_of_allOrdinary items h
  | .mapping _ entries => fun h => by
    rw [isOrdinary] at h
    rw [isWritable]
    exact entriesWritable_of_entriesOrdinary entries h
  | .none | .bool _ | .float _ | .nan _ | .text _ | .hostObject _ _ | .hostType _ _ | .onceOnly _ _
  | .hostFunction _ _ _ => fun _ => rfl
  | .view _ _ _ _ => nofun

theorem allWritable_of_allOrdinary : (items : List Value) → allOrdinary items = true → allWritable items = true
  | [] => fun _ => rfl
  | v :: rest => fun h => by
    rw [allOrdinary, Bool.and_eq_true] at h
    rw [allWritable, isWritable_of_isOrdinary v h.1, allWritable_of_allOrdinary rest h.2]
    rfl

theorem entriesWritable_of_entriesOrdinary : (entries : List (Value × Value)) → entriesOrdinary entries = true →
    entriesWritable true true entries = true
  | [] => fun _ => rfl
  | (k, v) :: rest => fun h => by
    rw [entriesOrdinary, Bool.and_eq_true, Bool.and_eq_true] at h
    rw [entriesWritable, isWritable_of_isOrdinary k h.1.1, isWritable_of_isOrdinary v h.1.2,
      entriesWritable_of_entriesOrdinary rest h.2]
    rfl

end

theorem write_of_isWritable {v : Value} (h : v.isWritable = true) (st : Store) : ∃ s, v.write st = .ok s st := by
  refine ⟨(v.settle st).written, ?_⟩
  rw [write, run_bind_get, if_pos (isWritable_settle st v h)]
  rfl

/-- Ordinary data is written, and nothing is changed by it. -/
theorem write_of_isOrdinary {v : Value} (h : v.isOrdinary = true) (st : Store) : ∃ s, v.write st = .ok s st :=
  write_of_isWritable (isWritable_of_isOrdinary v h) st

end TextTemplate.Value
