import TextTemplate.Proofs.Node.Assignment
import TextTemplate.Proofs.Node.Scopes

/-!
# What is visible in a context

A name that is looked up has the value that the innermost scope with the name gives it, and all ways of asking for it
agree: the look-up goes from the innermost scope outwards, the flattened names are put together from the outermost scope
inwards. They agree because no scope has a name twice, and that is so in every context that is made from mappings and
then only assigned to and pushed on, in blocks that end or fail. A block leaves the context as it found it.
-/

namespace TextTemplate

namespace Context

variable {c : Context} {name : String} {v : Value}

/-- No scope has a name twice. -/
def Sound (c : Context) : Prop := ∀ scope ∈ c.scopes, (scope.map (·.1)).Nodup

/-- The innermost scope that has the name gives it the value. -/
def Binds (c : Context) (name : String) (v : Value) : Prop :=
  ∃ inside scope outside, c.scopes = inside ++ scope :: outside ∧ (name, v) ∈ scope ∧
    ∀ s ∈ inside, name ∉ s.map (·.1)

/-! ## Ways of asking for a name -/

theorem isSome_get? (c : Context) (name : String) : (c.get? name).isSome = c.contains name := by
  rw [Bool.eq_iff_iff, get?, contains, List.findSome?_isSome_iff, List.any_eq_true]

/-- A name has the value that the innermost scope with it gives it. -/
theorem Sound.get?_eq_some_iff (h : c.Sound) : c.get? name = some v ↔ c.Binds name v := by
  rw [get?, List.findSome?_eq_some_iff, Binds]
  refine exists_congr fun inside => exists_congr fun scope => exists_congr fun outside => ?_
  refine and_congr_right fun hscopes => and_congr ?_ ?_
  · exact Entries.lookup_eq_some_iff_mem (h scope (by simp [hscopes]))
  · exact forall₂_congr fun s _ => Entries.lookup_eq_none_iff_notMem

/-- Scopes put together from the outermost one on are searched from the innermost one on. -/
theorem lookup_foldr_putAll {scopes : List Scope} (h : ∀ scope ∈ scopes, (scope.map (·.1)).Nodup) (name : String) :
    (scopes.foldr (fun scope found => Entries.putAll found scope) []).lookup name =
      scopes.findSome? (·.lookup name) := by
  induction scopes with
  | nil => rfl
  | cons scope outside ih =>
    obtain ⟨hscope, houtside⟩ := List.forall_mem_cons.mp h
    rw [List.foldr_cons, Entries.lookup_putAll, Entries.lookup_reverse_of_nodup hscope, ih houtside,
      List.findSome?_cons]
    cases scope.lookup name <;> rfl

theorem Sound.lookup_flatten (h : c.Sound) (name : String) : c.flatten.lookup name = c.get? name := by
  rw [flatten, List.foldl_reverse]
  exact lookup_foldr_putAll h name

theorem Sound.isSome_get?_iff (h : c.Sound) : (c.get? name).isSome = true ↔ name ∈ c.flatten.map (·.1) := by
  rw [← h.lookup_flatten, Option.isSome_iff_ne_none, ne_eq, Entries.lookup_eq_none_iff_notMem, not_not]

theorem nodup_flatten (c : Context) : (c.flatten.map (·.1)).Nodup := by
  rw [flatten, List.foldl_reverse]
  generalize c.scopes = scopes
  induction scopes with
  | nil => exact List.nodup_nil
  | cons scope outside ih => exact Entries.nodup_keys_putAll scope ih

/-! ## Assignments and blocks -/

/-- An assignment gives its name the value, and every other name keeps the value that it had. -/
theorem get?_assign (c : Context) (key name : String) (v : Value) :
    (c.assign key v).get? name = if name = key then some v else c.get? name := by
  obtain ⟨inner, outermost, ifInvalid⟩ := c
  cases inner with
  | nil =>
    simp only [assign, get?, scopes, List.nil_append, List.findSome?_singleton, Entries.lookup_put, beq_iff_eq]
  | cons scope rest =>
    simp only [assign, get?, scopes, List.cons_append, List.findSome?_cons, Entries.lookup_put, beq_iff_eq]
    split_ifs <;> rfl

/-- A change of nothing but the innermost scope, if one is open over the outermost one, that leaves no scope with a name
twice. -/
structure LocalChange (c c' : Context) : Prop where
  sameBelow : c.SameBelow c'
  sound : c.Sound → c'.Sound

theorem LocalChange.refl (c : Context) : c.LocalChange c := ⟨.refl c, id⟩

theorem LocalChange.trans {c' c'' : Context} (h : c.LocalChange c') (h' : c'.LocalChange c'') : c.LocalChange c'' :=
  ⟨h.sameBelow.trans h'.sameBelow, h'.sound ∘ h.sound⟩

theorem Sound.assign (h : c.Sound) (name : String) (v : Value) : (c.assign name v).Sound := by
  obtain ⟨inner, outermost, ifInvalid⟩ := c
  cases inner with
  | nil =>
    obtain ⟨houtermost, -⟩ := List.forall_mem_cons.mp h
    exact List.forall_mem_cons.mpr ⟨Entries.nodup_keys_put name v houtermost, by simp⟩
  | cons scope rest =>
    obtain ⟨hscope, hrest⟩ := List.forall_mem_cons.mp h
    exact List.forall_mem_cons.mpr ⟨Entries.nodup_keys_put name v hscope, hrest⟩

theorem localChange_assign (c : Context) (name : String) (v : Value) : c.LocalChange (c.assign name v) :=
  ⟨sameBelow_assign c name v, fun h => h.assign name v⟩

/-- Names with their values as a caller hands them over: none of them comes twice. -/
structure Bindings where
  entries : Scope
  nodup : (entries.map (·.1)).Nodup

/-- The scope of a block that is given a mapping and some more names, which go before those of the mapping. -/
def Bindings.extend (values more : Bindings) : Scope := Entries.putAll values.entries more.entries

theorem Sound.ofScope (data : Bindings) (ifInvalid : String) : (ofScope data.entries ifInvalid).Sound :=
  List.forall_mem_singleton.mpr data.nodup

theorem Sound.push (h : c.Sound) (values more : Bindings) : (c.push (values.extend more)).Sound :=
  List.forall_mem_cons.mpr ⟨Entries.nodup_keys_putAll more.entries values.nodup, h⟩

/-! ## Uses of a context -/

/-- What code does with a context: it assigns names and opens blocks. It can fail, also in the middle of blocks, and it
can go on behind a part that has failed. -/
inductive Use where
  | assign (name : String) (v : Value)
  | block (values more : Bindings) (body : List Use)
  | fail (e : RenderError)
  | guarded (body : List Use)

namespace Use

mutual

def run : Use → RenderM Unit
  | assign name v => modify fun s => { s with context := s.context.assign name v }
  | block values more body => RenderM.withScope (values.extend more) (runAll body)
  | fail e => throw e
  | guarded body => tryCatch (runAll body) fun _ => pure ()

def runAll : List Use → RenderM Unit
  | [] => pure ()
  | u :: rest => do
    u.run
    runAll rest

end

/-- The contexts that there are while a list of uses runs: before and after each of them, and within it. -/
inductive Passes : List Use → RenderState → Context → Prop
  | here {uses : List Use} {s : RenderState} : Passes uses s s.context
  | inBlock {values more : Bindings} {body rest : List Use} {s : RenderState} {c : Context}
    (h : Passes body { s with context := s.context.push (values.extend more) } c) :
    Passes (.block values more body :: rest) s c
  | inGuarded {body rest : List Use} {s : RenderState} {c : Context} (h : Passes body s c) :
    Passes (.guarded body :: rest) s c
  | next {u : Use} {rest : List Use} {s s' : RenderState} {c : Context} (hu : u.run s = .ok () s')
    (h : Passes rest s' c) : Passes (u :: rest) s c
  | failed {u : Use} {rest : List Use} {s s' : RenderState} {e : RenderError} (hu : u.run s = .error e s') :
    Passes (u :: rest) s s'.context

open RenderM

theorem run_guarded (body : List Use) (s : RenderState) : (guarded body).run s = match runAll body s with
    | .ok _ s' => .ok () s'
    | .error _ s' => .ok () s' := by
  rw [run]
  change EStateM.tryCatch (runAll body) (fun _ => pure ()) s = _
  rw [EStateM.tryCatch]
  cases runAll body s <;> rfl

/-- A failure is caught in the context that it leaves. -/
theorem contextAfter_guarded (body : List Use) (s : RenderState) :
    (guarded body).run.contextAfter s = (runAll body).contextAfter s := by
  rw [contextAfter, run_guarded, contextAfter]
  cases runAll body s <;> rfl

/-- A block changes nothing if its body changes nothing below the scope of the block. -/
theorem restores_block (values more : Bindings) {body : List Use} (hbody : (runAll body).Keeps LocalChange) :
    (block values more body).run.Restores := by
  rw [run]
  exact restores_withScope _ fun s => (hbody s).sameBelow

mutual

/-- A use changes nothing below the innermost scope, whether it ends or fails. -/
theorem run_localChange : (u : Use) → u.run.Keeps LocalChange
  | assign name v => fun s => localChange_assign s.context name v
  | block values more body => fun s => by
    -- what the body changes is in the scope of the block, and that is dropped
    rw [restores_block values more (runAll_localChange body) s]
    exact .refl _
  | fail e => fun s => .refl s.context
  | guarded body => fun s => by
    rw [contextAfter_guarded]
    exact runAll_localChange body s

theorem runAll_localChange : (uses : List Use) → (runAll uses).Keeps LocalChange
  | [] => fun s => .refl s.context
  | u :: rest => by
    rw [runAll]
    exact Keeps.bind (R := LocalChange) LocalChange.trans (run_localChange u) fun _ => runAll_localChange rest

end

/-- No scope gets a name twice, at whatever moment the context is looked at. -/
theorem Passes.sound {uses : List Use} {s : RenderState} {c : Context} (h : Passes uses s c) (hs : s.context.Sound) :
    c.Sound := by
  -- on the way to the moment: what has run before it keeps scopes sound, also if it failed
  induction h with
  | here => exact hs
  | inBlock _ ih => exact ih (hs.push _ _)
  | inGuarded _ ih => exact ih hs
  | @next u _ s s' _ hu _ ih =>
    have hchange := run_localChange u s
    rw [contextAfter, hu] at hchange
    exact ih (hchange.sound hs)
  | @failed u _ s s' _ hu =>
    have hchange := run_localChange u s
    rw [contextAfter, hu] at hchange
    exact hchange.sound hs

/-- At every moment while a context is used, the ways of asking for a name agree: it is looked up if the context contains
it and if it is among the flattened names, which have no name twice, and then it has the value that it has among these,
which is the one that the innermost scope with the name gives it. An assignment changes the value of no other name, and
after a block, whether it ends or fails, the context is the one that there was before, so every name has the value that
it had. -/
theorem visible_names (data : Bindings) {ifInvalid : String} {store : Store} {uses : List Use} {c : Context}
    (h : Passes uses ⟨ofScope data.entries ifInvalid, store⟩ c) (name : String) :
    ((c.get? name).isSome = true ↔ c.contains name = true) ∧
      ((c.get? name).isSome = true ↔ name ∈ c.flatten.map (·.1)) ∧
      c.get? name = c.flatten.lookup name ∧ (c.flatten.map (·.1)).Nodup ∧
      (∀ v, c.get? name = some v ↔ c.Binds name v) ∧
      (∀ key v, (c.assign key v).get? name = if name = key then some v else c.get? name) ∧
      ∀ values more body st, (block values more body).run.contextAfter ⟨c, st⟩ = c := by
  have hsound : c.Sound := h.sound (.ofScope data ifInvalid)
  refine ⟨by rw [isSome_get?], hsound.isSome_get?_iff, (hsound.lookup_flatten name).symm, c.nodup_flatten,
    fun v => hsound.get?_eq_some_iff, fun key v => c.get?_assign key name v, fun values more body st => ?_⟩
  exact restores_block values more (runAll_localChange body) ⟨c, st⟩

/-- A name is bound again in a block, and once more in a block within it that fails. -/
def shadowing : List Use :=
  [.block ⟨[("a", .int 2)], by decide⟩ ⟨[], List.nodup_nil⟩
    [.guarded [.block ⟨[("a", .int 3)], by decide⟩ ⟨[("b", .int 4)], by decide⟩ [.fail .unsupportedKind]],
      .assign "c" (.int 5)]]

/-- The context of the outer block behind the failure. -/
def shadowed : Context := ⟨[[("a", .int 2), ("c", .int 5)]], [("a", .int 1)], ""⟩

theorem visible_names_shadowed :
    Passes shadowing ⟨ofScope [("a", .int 1)] "", .empty 0⟩ shadowed ∧ shadowed.get? "a" = some (.int 2) ∧
      shadowed.flatten.lookup "a" = some (.int 2) ∧ shadowed.Binds "a" (.int 2) ∧
      (shadowed.assign "c" .none).get? "a" = some (.int 2) ∧
      (block ⟨[("c", .none)], by decide⟩ ⟨[], List.nodup_nil⟩ shadowing).run.contextAfter ⟨shadowed, .empty 0⟩ =
        shadowed := by
  have hpasses : Passes shadowing ⟨ofScope [("a", .int 1)] "", .empty 0⟩ shadowed :=
    .inBlock (.next rfl (.next rfl .here))
  have hvalue : shadowed.get? "a" = some (.int 2) := rfl
  obtain ⟨-, -, hflat, -, hbinds, hassign, hblock⟩ := visible_names ⟨[("a", .int 1)], by decide⟩ hpasses "a"
  exact ⟨hpasses, hvalue, hflat ▸ hvalue, (hbinds _).mp hvalue, hassign "c" .none, hblock _ _ _ _⟩

end Use

end Context

end TextTemplate
