import TextTemplate.Proofs.Condition.Evaluation
import TextTemplate.Proofs.Expression.Steady
import TextTemplate.Proofs.Node.Assignment
import TextTemplate.Proofs.Node.Scopes
import TextTemplate.Proofs.Value.Children

/-!
# Loops, iteration by iteration

A loop opens one scope for all its iterations, and one `forloop` that each of them brings up to date. Here it is
shown to render as if every iteration had a scope of its own, with nothing in it but `forloop` and the names of the
loop: what an iteration assigns is what the one before it had assigned, under the same names in the same places.

The one trace that an iteration can leave to the next is what its body takes out of `forloop`. The counting entries are
put back, the entry for the outer loop is not.
-/

namespace TextTemplate

open RenderM

namespace Loop

variable {v : Value} {items : List Value} {st st' st₂ : Store}

/-! ## Iterations by the rules -/

/-- The items that a loop goes through, in order. A once-only sequence is read to its end. -/
def inOrder (v : Value) : EvalM (List Value) :=
  match v with
  | .none => pure []
  | v => v.items

/-- What the names of a loop are bound to by an item: a single name to the item, several to its parts. -/
def bindings (names : List String) (item : Value) : EvalM Scope :=
  match names with
  | [name] => pure [(name, item)]
  | _ => do
    let values ← parts item
    if values.length = names.length then pure (names.zip values)
    else throw (.unpackMismatch names.length values.length)

/-- A loop that knows how many items it has. -/
structure Pass where
  names : List String
  /-- The ident of its `forloop`. -/
  id : Ident
  /-- The `forloop` outside. -/
  parent : Value
  length : Nat
  body : RenderM String

namespace Pass

variable (p : Pass)

def forloop (index : Nat) : Value := .mapping p.id (entries p.parent p.length index)

/-- The scope of an iteration. -/
def frame (index : Nat) (bound : Scope) : Scope := Entries.putAll [("forloop", p.forloop index)] bound

/-- One iteration: the body, in a scope of its own. -/
def round (index : Nat) (item : Value) : RenderM String := do
  onValues (modify (restore p.id))
  let bound ← onValues (bindings p.names item)
  withScope (p.frame index bound) p.body

/-- The iterations over the items that are left. -/
def rounds : (index : Nat) → List Value → RenderM String
  | _, [] => return ""
  | index, item :: rest => do
    let text ← p.round index item
    return text ++ (← rounds (index + 1) rest)

/-- The states before each iteration and after the last one. -/
def pauses : (index : Nat) → List Value → RenderState → List RenderState
  | _, [], s => [s]
  | index, item :: rest, s => s :: match p.round index item s with
    | .ok _ s' => pauses (index + 1) rest s'
    | .error _ _ => []

end Pass

/-! ## What a loop goes through -/

theorem items_eq_ok (h : v.items st = .ok items st') :
    (v.sizedItems? st = some items ∧ st' = st) ∨ ∃ id all, v = .onceOnly id all := by
  rw [Value.items, run_bind_get] at h
  cases hsized : v.sizedItems? st with
  | some items' =>
    rw [hsized] at h
    cases h
    exact .inl ⟨rfl, rfl⟩
  | none =>
    rw [hsized] at h
    cases v with
    | onceOnly id all => exact .inr ⟨id, all, rfl⟩
    | _ => cases h

theorem live_item? (fixedSize : Bool) (h : v.sizedItems? st = some items) (n : Nat) :
    (Source.live v fixedSize items.length).item? n st = .ok items[n]? st := by
  refine (run_bind_get _ _).trans ?_
  simp only [h, Option.getD_some, bne_self_eq_false, Bool.and_false]
  rfl

/-- As long as a value has the items that it had, a loop is given them one after the other. -/
theorem source_eq (h : inOrder v st = .ok items st') : ∃ found, source v st = .ok found st' ∧
    found.length = items.length ∧
    ∀ n st₂, v.sizedItems? st₂ = v.sizedItems? st' → found.item? n st₂ = .ok items[n]? st₂ := by
  have hfixed (h : (do return .ofItems (← v.items) : EvalM Source) st = source v st)
      (hitems : v.items st = .ok items st') : source v st = .ok (.ofItems items) st' := by
    rw [← h, run_bind_ok hitems]
    rfl
  cases v with
  | none =>
    cases h
    exact ⟨.ofItems [], rfl, rfl, fun _ _ _ => rfl⟩
  | onceOnly id all => exact ⟨_, hfixed rfl h, rfl, fun _ _ _ => rfl⟩
  | text | tuple | set => exact ⟨_, hfixed rfl h, rfl, fun _ _ _ => rfl⟩
  | list id all =>
    obtain ⟨hsized, rfl⟩ | ⟨_, _, ⟨⟩⟩ := items_eq_ok (v := .list id all) h
    cases hsized
    exact ⟨_, rfl, rfl, fun n st₂ hst₂ => live_item? false hst₂ n⟩
  | mapping id all =>
    obtain ⟨hsized, rfl⟩ | ⟨_, _, ⟨⟩⟩ := items_eq_ok (v := .mapping id all) h
    cases hsized
    exact ⟨_, rfl, rfl, fun n st₂ hst₂ => live_item? true hst₂ n⟩
  | view kind id of all =>
    obtain ⟨hsized, rfl⟩ | ⟨_, _, ⟨⟩⟩ := items_eq_ok (v := .view kind id of all) h
    cases hsized
    exact ⟨_, rfl, rfl, fun n st₂ hst₂ => live_item? true hst₂ n⟩
  | _ => cases h

/-- From the end, the items come in reverse. -/
theorem reverse_item? {found : Source} (hlength : found.length = items.length)
    (hitem : ∀ n, found.item? n st = .ok items[n]? st) (n : Nat) :
    found.reverse.item? n st = .ok items.reverse[n]? st := by
  by_cases hn : n < items.length
  · rw [List.getElem?_reverse hn, ← hitem, Source.reverse, hlength]
    simp only [if_pos hn]
  · have hpast : items.length ≤ n := Nat.le_of_not_lt hn
    rw [Source.reverse, hlength]
    simp only [if_neg hn, hitem]
    rw [List.getElem?_eq_none hpast, List.getElem?_eq_none (by simpa using hpast)]

/-! ## One iteration -/

theorem assignAll_run (bound : Scope) (c : Context) (scope : Scope) (st : Store) :
    assignAll bound ⟨c.push scope, st⟩ = .ok () ⟨c.push (Entries.putAll scope bound), st⟩ := by
  induction bound generalizing scope with
  | nil => rfl
  | cons e rest ih => exact ih (Entries.put e.1 e.2 scope)

/-- The names are bound in the scope that is open. -/
theorem bind_run (names : List String) (item : Value) (c : Context) (scope : Scope) (st : Store) :
    bind names item ⟨c.push scope, st⟩ = match bindings names item st with
      | .ok bound st' => .ok () ⟨c.push (Entries.putAll scope bound), st'⟩
      | .error e st' => .error e ⟨c.push scope, st'⟩ := by
  rw [bind.eq_def]
  split
  · exact assignAll_run _ c scope st
  · rename_i hnames
    rw [bindings.eq_2 _ _ hnames, run_bind, run_bind, onValues]
    dsimp only
    cases hparts : parts item st with
    | error e st' => rfl
    | ok values st' =>
      dsimp only
      by_cases hlength : values.length = names.length
      · rw [if_pos (by simpa using hlength), if_pos hlength]
        exact assignAll_run _ c scope st'
      · rw [if_neg (by simpa using hlength), if_neg hlength]
        rfl

/-- All names of the loop are bound, and no others. -/
theorem bindings_keys {names : List String} {item : Value} {bound : Scope}
    (h : bindings names item st = .ok bound st') : bound.map (·.1) = names := by
  rw [bindings.eq_def] at h
  split at h
  · cases h
    rfl
  · rw [run_bind] at h
    cases hparts : parts item st with
    | error e st' =>
      rw [hparts] at h
      cases h
    | ok values st₁ =>
      rw [hparts] at h
      dsimp only at h
      split_ifs at h with hlength
      · cases h
        exact List.map_fst_zip hlength.ge
      · cases h

namespace Pass

variable {p : Pass} {c : Context} {scope : Scope} {index : Nat} {item : Value}

/-- One iteration in the scope that is open for all of them. -/
def turn (p : Pass) (index : Nat) (item : Value) : RenderM String := do
  modify fun s => { s with store := restore p.id s.store }
  assignAll [("forloop", p.forloop index)]
  bind p.names item
  p.body

/-- A scope that holds nothing but `forloop` and the names of the loop. -/
def Used (p : Pass) (scope : Scope) : Prop :=
  ∃ v bound, scope = Entries.putAll [("forloop", v)] bound ∧ (bound = [] ∨ bound.map (·.1) = p.names)

/-- The scope that is open is the frame of the iteration as soon as its names are bound. -/
theorem Used.putAll_eq (h : p.Used scope) {bound : Scope} (hbound : bound.map (·.1) = p.names) (index : Nat) :
    Entries.putAll (Entries.put "forloop" (p.forloop index) scope) bound = p.frame index bound := by
  obtain ⟨v, bound', rfl, rfl | hnames⟩ := h
  · rfl
  · exact Entries.putAll_again _ _ _ (hnames.trans hbound.symm)

theorem used_frame {bound : Scope} (hbound : bound.map (·.1) = p.names) : p.Used (p.frame index bound) :=
  ⟨_, bound, rfl, .inr hbound⟩

/-- The outcome with the innermost scope dropped. -/
def popped {α : Type} : RenderOutcome α → RenderOutcome α
  | .ok a s => .ok a { s with context := s.context.pop }
  | .error e s => .error e { s with context := s.context.pop }

theorem withScope_eq {α : Type} (scope : Scope) (m : RenderM α) (s : RenderState) :
    withScope scope m s = popped (m { s with context := s.context.push scope }) := by
  rw [withScope]
  cases m { s with context := s.context.push scope } <;> rfl

/-- An iteration in the scope that is open: `forloop` is brought up to date, then the names are bound. -/
theorem turn_eq (p : Pass) (scope : Scope) (index : Nat) (item : Value) (c : Context) (st : Store) :
    p.turn index item ⟨c.push scope, st⟩ = match bindings p.names item (restore p.id st) with
      | .ok bound st' => p.body ⟨c.push (Entries.putAll (Entries.put "forloop" (p.forloop index) scope) bound), st'⟩
      | .error e st' => .error e ⟨c.push (Entries.put "forloop" (p.forloop index) scope), st'⟩ := by
  have hrestored : (modify fun s => { s with store := restore p.id s.store } : RenderM Unit) ⟨c.push scope, st⟩ =
    .ok () ⟨c.push scope, restore p.id st⟩ := rfl
  rw [turn, run_bind_ok hrestored, run_bind_ok (assignAll_run _ _ _ _), run_bind, bind_run]
  cases bindings p.names item (restore p.id st) <;> rfl

/-- An iteration in a scope of its own. -/
theorem round_eq (p : Pass) (index : Nat) (item : Value) (c : Context) (st : Store) :
    p.round index item ⟨c, st⟩ = match bindings p.names item (restore p.id st) with
      | .ok bound st' => withScope (p.frame index bound) p.body ⟨c, st'⟩
      | .error e st' => .error e ⟨c, st'⟩ := by
  have hrestored : onValues (modify (restore p.id)) ⟨c, st⟩ = .ok () ⟨c, restore p.id st⟩ := rfl
  rw [round, run_bind_ok hrestored, run_bind, onValues]
  dsimp only
  cases bindings p.names item (restore p.id st) <;> rfl

/-- An iteration in the scope that is open does what it would do in one of its own, and leaves that one. -/
theorem turn_run (hbody : p.body.Restores) (hscope : p.Used scope) (index : Nat) (item : Value) (c : Context)
    (st : Store) : popped (p.turn index item ⟨c.push scope, st⟩) = p.round index item ⟨c, st⟩ ∧
      ∀ text s', p.turn index item ⟨c.push scope, st⟩ = .ok text s' →
        ∃ scope', s'.context = c.push scope' ∧ p.Used scope' := by
  rw [turn_eq, round_eq]
  cases hbindings : bindings p.names item (restore p.id st) with
  | error e st' => exact ⟨rfl, fun _ _ h => by cases h⟩
  | ok bound st' =>
    have hkeys := bindings_keys hbindings
    dsimp only
    rw [hscope.putAll_eq hkeys, withScope_eq]
    refine ⟨rfl, fun text s' h => ⟨p.frame index bound, ?_, used_frame hkeys⟩⟩
    have hcontext := hbody ⟨c.push (p.frame index bound), st'⟩
    rw [contextAfter, h] at hcontext
    exact hcontext

/-- All iterations in one scope do what they would do each in its own, if the loop is given the items that are left. -/
theorem run_turn {item? : Nat → EvalM (Option Value)} {all rest : List Value} {fuel : Nat} {st : Store}
    (hbody : p.body.Restores) (hscope : p.Used scope) (hrest : all.drop index = rest) (hfuel : rest.length < fuel)
    (hitem : ∀ s ∈ p.pauses index rest ⟨c, st⟩, ∀ n, item? n s.store = .ok all[n]? s.store) :
    popped (run item? p.turn fuel index ⟨c.push scope, st⟩) = p.rounds index rest ⟨c, st⟩ := by
  induction rest generalizing index fuel scope st with
  | nil =>
    obtain ⟨fuel, rfl⟩ := Nat.exists_eq_succ_of_ne_zero (Nat.ne_zero_of_lt hfuel)
    have hnone : onValues (item? index) ⟨c.push scope, st⟩ = .ok none ⟨c.push scope, st⟩ := by
      rw [onValues, hitem ⟨c, st⟩ List.mem_cons_self, ← List.head?_drop, hrest]
      rfl
    rw [run, run_bind_ok hnone]
    rfl
  | cons item rest ih =>
    obtain ⟨fuel, rfl⟩ := Nat.exists_eq_succ_of_ne_zero (Nat.ne_zero_of_lt hfuel)
    have hsome : onValues (item? index) ⟨c.push scope, st⟩ = .ok (some item) ⟨c.push scope, st⟩ := by
      rw [onValues, hitem ⟨c, st⟩ List.mem_cons_self, ← List.head?_drop, hrest]
      rfl
    obtain ⟨hround, hnext⟩ := turn_run hbody hscope index item c st
    rw [run, run_bind_ok hsome, rounds, run_bind, ← hround]
    dsimp only
    rw [run_bind]
    cases hturn : p.turn index item ⟨c.push scope, st⟩ with
    | error e s' => rfl
    | ok text s' =>
      obtain ⟨scope', hcontext, hused⟩ := hnext text s' hturn
      obtain ⟨c', st'⟩ := s'
      obtain rfl : c' = c.push scope' := hcontext
      rw [hturn] at hround
      have hdrop : all.drop (index + 1) = rest := by rw [← List.tail_drop, hrest, List.tail_cons]
      have hlater : ∀ s ∈ p.pauses (index + 1) rest ⟨c, st'⟩, ∀ n, item? n s.store = .ok all[n]? s.store := by
        intro s hs
        refine hitem s (List.mem_cons_of_mem _ ?_)
        rw [← hround]
        exact hs
      have hrun := ih hused hdrop (Nat.lt_of_succ_lt_succ hfuel) hlater
      change popped ((run item? p.turn fuel (index + 1) >>= fun more => pure (text ++ more)) ⟨c.push scope', st'⟩) =
        (p.rounds (index + 1) rest >>= fun more => pure (text ++ more)) ⟨c, st'⟩
      rw [run_bind, run_bind, ← hrun]
      cases run item? p.turn fuel (index + 1) ⟨c.push scope', st'⟩ <;> rfl

/-- The iterations from the first one on, in the scope that is opened for them. -/
theorem withScope_run {item? : Nat → EvalM (Option Value)} {all : List Value} {s : RenderState} {fuel : Nat}
    (hbody : p.body.Restores)
    (hitem : ∀ s' ∈ p.pauses 0 all s, ∀ n, item? n s'.store = .ok all[n]? s'.store) (hfuel : all.length < fuel)
    (v : Value) : withScope [("forloop", v)] (run item? p.turn fuel 0) s = p.rounds 0 all s := by
  rw [withScope_eq]
  exact run_turn hbody ⟨v, [], rfl, .inl rfl⟩ rfl hfuel hitem

theorem round_restores (hbody : p.body.Restores) (index : Nat) (item : Value) : (p.round index item).Restores :=
  (restores_onValues _).bind fun _ => (restores_onValues _).bind fun _ => restores_withScope _ hbody.staysInScope

/-- Nothing is left of the scope of an iteration when the next one starts. -/
theorem context_of_mem_pauses (hbody : p.body.Restores) {rest : List Value} {s s' : RenderState}
    (h : s' ∈ p.pauses index rest s) : s'.context = s.context := by
  induction rest generalizing index s with
  | nil =>
    obtain rfl := List.mem_singleton.mp h
    rfl
  | cons item rest ih =>
    rcases List.mem_cons.mp h with rfl | hlater
    · rfl
    · have hround := round_restores hbody index item s
      rw [contextAfter] at hround
      cases hrun : p.round index item s with
      | error e s₁ =>
        rw [hrun] at hlater
        cases hlater
      | ok text s₁ =>
        rw [hrun] at hlater hround
        exact (ih hlater).trans hround

end Pass

/-! ## What the body finds under `forloop` -/

/-- What `forloop` tells of an iteration. -/
def counters (length index : Nat) : List (String × Value) :=
  [("counter0", .int index), ("counter", .int (index + 1)), ("revcounter", .int ((length : Int) - index)),
    ("revcounter0", .int ((length : Int) - index - 1)), ("first", .bool (index = 0)),
    ("last", .bool (index + 1 = length))]

theorem entries_eq (parent : Value) (length index : Nat) : entries parent length index =
    (.text "parentloop", parent) :: (counters length index).map fun e => (.text e.1, e.2) := rfl

/-- The counting entries are there at the start of an iteration, whatever was taken out before. -/
theorem mem_pick_restore {id : Ident} {es : List (Value × Value)} {n : Nat} {e : Value × Value}
    (hn : n ∈ [1, 2, 3, 4, 5, 6]) (he : es[n]? = some e) : e ∈ (restore id st).pick id es := by
  rw [restore]
  cases horder : st.orders.lookup id with
  | none =>
    dsimp only
    rw [Store.pick, horder]
    exact List.mem_of_getElem? he
  | some order =>
    dsimp only
    have hlookup : (st.setOrder id (order ++ [1, 2, 3, 4, 5, 6].filter (!order.contains ·))).orders.lookup id =
        some (order ++ [1, 2, 3, 4, 5, 6].filter (!order.contains ·)) := by
      simp [Store.setOrder]
    rw [Store.pick, hlookup]
    refine List.mem_filterMap.mpr ⟨n, ?_, he⟩
    by_cases hmem : n ∈ order
    · exact List.mem_append_left _ hmem
    · exact List.mem_append_right _ (List.mem_filter.mpr ⟨hn, by simpa using hmem⟩)

/-- Reading items takes nothing out of lists and mappings. -/
theorem orders_parts {item : Value} {values : List Value} (h : parts item st = .ok values st') :
    st'.orders = st.orders := by
  rw [parts, Value.items, run_bind_get] at h
  cases hsized : item.sizedItems? st with
  | some items =>
    rw [hsized] at h
    cases h
    rfl
  | none =>
    rw [hsized] at h
    cases item <;> cases h <;> rfl

theorem orders_bindings {names : List String} {item : Value} {bound : Scope}
    (h : bindings names item st = .ok bound st') : st'.orders = st.orders := by
  rw [bindings.eq_def] at h
  split at h
  · cases h
    rfl
  · rw [run_bind] at h
    cases hparts : parts item st with
    | error e st₁ =>
      rw [hparts] at h
      cases h
    | ok values st₁ =>
      rw [hparts] at h
      dsimp only at h
      split_ifs at h
      · cases h
        exact orders_parts hparts
      · cases h

/-- What the body of an iteration finds in the scope that is opened for it, and under `forloop`. The entry for the
outer loop is the only one that stays away if it was taken out. -/
structure Pass.Visible (p : Pass) (index : Nat) (bound : Scope) (st : Store) : Prop where
  lookup : ∀ name, (p.frame index bound).lookup name =
    (bound.reverse.lookup name).or (if name = "forloop" then some (p.forloop index) else none)
  counter : ∀ key value, (key, value) ∈ counters p.length index →
    ∀ missing, Operand.step missing (p.forloop index) key st = .ok value st
  parentloop : (∀ order, st.orders.lookup p.id = some order → 0 ∈ order) →
    ∀ missing, Operand.step missing (p.forloop index) "parentloop" st = p.parent.called missing st

theorem Pass.visible (p : Pass) (index : Nat) {item : Value} {bound : Scope}
    (h : bindings p.names item (restore p.id st) = .ok bound st') : p.Visible index bound st' := by
  have hpick {α : Type} (children : List α) : st'.pick p.id children = (restore p.id st).pick p.id children := by
    rw [Store.pick, Store.pick, orders_bindings h]
  constructor
  · intro name
    rw [frame, Entries.lookup_putAll, Entries.lookup_cons]
    simp
  · intro key value hmem missing
    have hfound : (.text key, value) ∈ st'.pick p.id (entries p.parent p.length index) := by
      obtain ⟨n, hn⟩ := List.mem_iff_getElem?.mp hmem
      have hsix : n < 6 := (List.getElem?_eq_some_iff.mp hn).1
      have hentry : (entries p.parent p.length index)[n + 1]? = some (.text key, value) := by
        rw [entries_eq, List.getElem?_cons_succ, List.getElem?_map, hn]
        rfl
      rw [hpick]
      exact mem_pick_restore (by simp only [List.mem_cons]; omega) hentry
    simp only [counters, List.mem_cons, Prod.mk.injEq, List.not_mem_nil, or_false] at hmem
    have hunique : ∀ w, (.text key, w) ∈ entries p.parent p.length index → w = value := by
      rcases hmem with ⟨rfl, rfl⟩ | ⟨rfl, rfl⟩ | ⟨rfl, rfl⟩ | ⟨rfl, rfl⟩ | ⟨rfl, rfl⟩ | ⟨rfl, rfl⟩ <;>
        simp [entries_eq, counters]
    have hcalled : value.called missing = pure value := by
      rcases hmem with ⟨-, rfl⟩ | ⟨-, rfl⟩ | ⟨-, rfl⟩ | ⟨-, rfl⟩ | ⟨-, rfl⟩ | ⟨-, rfl⟩ <;> rfl
    rw [forloop, Operand.step_of_keyedByText? (Value.keyedByText?_pick hfound hunique), hcalled]
    rfl
  · intro hkept missing
    have hfound : (.text "parentloop", p.parent) ∈ st'.pick p.id (entries p.parent p.length index) := by
      rw [Store.pick]
      cases horder : st'.orders.lookup p.id with
      | none => exact List.mem_cons_self
      | some order => exact List.mem_filterMap.mpr ⟨0, hkept order horder, rfl⟩
    have hunique : ∀ w, (.text "parentloop", w) ∈ entries p.parent p.length index → w = p.parent := by simp [entries]
    exact Operand.step_of_keyedByText? (Value.keyedByText?_pick hfound hunique) missing

/-- The loop over so many items that starts in a state. -/
def Pass.of (names : List String) (length : Nat) (body : RenderM String) (s : RenderState) : Pass :=
  ⟨names, s.store.fresh, (s.context.get? "forloop").getD (.mapping (s.store.fresh + 1) []), length, body⟩

/-- The state in which the first iteration starts: idents have been given out for `forloop` and for the empty mapping
that stands in for one outside. -/
def started (s : RenderState) : RenderState := { s with store := { s.store with fresh := s.store.fresh + 2 } }

/-- A loop renders its empty part, or its iterations one by one. -/
theorem render_eq {names : List String} {sequence : Expression} {reversed : Bool} {body : RenderM String}
    (empty : RenderM String) (hbody : body.Restores) {s s₁ : RenderState}
    (hresolve : sequence.resolve .ignore s = .ok v s₁) (hitems : inOrder v s₁.store = .ok items st)
    (hreversible : reversed = true → isReversible v = true)
    (hsame : ∀ s' ∈ (Pass.of names items.length body ⟨s₁.context, st⟩).pauses 0
      (if reversed then items.reverse else items) (started ⟨s₁.context, st⟩),
      v.sizedItems? s'.store = v.sizedItems? st) :
    render names sequence reversed body empty s = if items = [] then empty ⟨s₁.context, st⟩ else
      (Pass.of names items.length body ⟨s₁.context, st⟩).rounds 0 (if reversed then items.reverse else items)
        (started ⟨s₁.context, st⟩) := by
  obtain ⟨found, hfound, hlength, hitem⟩ := source_eq hitems
  have hsource : onValues (source v) s₁ = .ok found ⟨s₁.context, st⟩ := by rw [onValues, hfound]
  rw [← hlength] at hsame ⊢
  rw [render, run_bind_ok hresolve, run_bind_ok hsource]
  by_cases hempty : items = []
  · rw [if_pos hempty, if_pos (by simp [hlength, hempty])]
  · have hkind : ¬(reversed && !isReversible v) = true := by
      cases reversed with
      | false => simp
      | true => simp [hreversible rfl]
    rw [if_neg hempty, if_neg (by simpa [hlength] using hempty), if_neg hkind]
    have hid : onValues EvalM.freshIdent ⟨s₁.context, st⟩ =
      .ok st.fresh ⟨s₁.context, { st with fresh := st.fresh + 1 }⟩ := rfl
    have houter : onValues EvalM.freshIdent ⟨s₁.context, { st with fresh := st.fresh + 1 }⟩ =
      .ok (st.fresh + 1) (started ⟨s₁.context, st⟩) := rfl
    dsimp only
    rw [run_bind_ok hid, run_bind_ok houter]
    cases reversed with
    | false => exact Pass.withScope_run hbody (fun s' hs' n => hitem n s'.store (hsame s' hs')) (by simp [hlength]) _
    | true =>
      exact Pass.withScope_run hbody (fun s' hs' => reverse_item? hlength fun n => hitem n s'.store (hsame s' hs'))
        (by simp [hlength, Source.reverse]) _

end Loop

namespace Node

/-- A loop over the items of a value writes its empty part if there are none. Else it writes its body once for each
item, in order or in reverse, each time in a scope of its own in which the names are bound to that item and `forloop`
tells where the loop is. It ends at the first item that has not as many parts as there are names, if there are
several. All this as long as nothing changes the items on the way. -/
theorem render_loop (names : List String) (sequence : Expression) (reversed : Bool) (body empty : List Node)
    {s s₁ : RenderState} {v : Value} {items : List Value} {st : Store} (hresolve : Resolves sequence s (.ok v s₁))
    (hitems : Loop.inOrder v s₁.store = .ok items st) (hreversible : reversed = true → Loop.isReversible v = true)
    (hsame : ∀ s' ∈ (Loop.Pass.of names items.length (renderAll body) ⟨s.context, st⟩).pauses 0
      (if reversed then items.reverse else items) (Loop.started ⟨s.context, st⟩),
      v.sizedItems? s'.store = v.sizedItems? st) :
    let p := Loop.Pass.of names items.length (renderAll body) ⟨s.context, st⟩
    let order := if reversed then items.reverse else items
    (loop names sequence reversed body empty).render s =
        (if items = [] then renderAll empty ⟨s.context, st⟩ else p.rounds 0 order (Loop.started ⟨s.context, st⟩)) ∧
      (∀ s' ∈ p.pauses 0 order (Loop.started ⟨s.context, st⟩), s'.context = s.context) ∧
      ∀ index item st₁ bound st₂, Loop.bindings names item (Loop.restore p.id st₁) = .ok bound st₂ →
        p.Visible index bound st₂ := by
  intro p order
  have hcontext : s₁.context = s.context := by
    have hrestores := sequence.resolve_restores .ignore s
    rwa [contextAfter, hresolve.eq] at hrestores
  rw [← hcontext] at hsame
  have hrender :=
    Loop.render_eq (renderAll empty) (renderAll_restores body) hresolve.eq hitems hreversible hsame
  rw [hcontext] at hrender
  refine ⟨hrender, fun s' hs' => ?_, fun index _ _ _ _ => p.visible index⟩
  have hpause := Loop.Pass.context_of_mem_pauses (renderAll_restores body) hs'
  exact hpause

/-- The text that was written, if rendering did not fail. -/
def written? : RenderOutcome String → Option String
  | .ok written _ => some written
  | .error _ _ => none

/-- A path that runs through no filter. -/
def path (first : String) (rest : List String) : Expression :=
  let source := ".".intercalate (first :: rest)
  ⟨source, ⟨source, .path first rest⟩, []⟩

/-- A loop over the characters of `v`, which counts them and the iterations of the loop outside. -/
def innerLoop : Node :=
  loop ["x"] (path "v" []) false
    [output (path "forloop" ["parentloop", "counter"]), text ".", output (path "forloop" ["revcounter"]), text ":",
      output (path "k" []), output (path "x" []), text " "] []

def letters : List (Value × Value) := [(.text "a", .text "pq"), (.text "b", .text ""), (.text "c", .text "r")]

def lettersState : RenderState := ⟨.ofScope [("d", .mapping 0 letters)] "", .empty 1⟩

/-- Two loops, the outer one over the entries of a mapping from the last to the first. -/
theorem render_loop_nested :
    let node := loop ["k", "v"] (path "d" ["items"]) true [innerLoop] [text "nothing"]
    let s := { lettersState with store := .empty 2 }
    let p := Loop.Pass.of ["k", "v"] 3 (renderAll [innerLoop]) s
    let order := (letters.map (Value.ofEntry .items)).reverse
    node.render lettersState = p.rounds 0 order (Loop.started s) ∧
      written? (p.rounds 0 order (Loop.started s)) = some "1.1:cr 3.2:ap 3.1:aq " := by
  intro node s p order
  have hresolve : Resolves (path "d" ["items"]) lettersState (.ok (.view .items 1 0 letters) s) :=
    (path "d" ["items"]).resolves lettersState
  have hkept : (p.pauses 0 order (Loop.started s)).all (fun s' => (s'.store.orders.lookup 0).isNone) = true := by
    decide +kernel
  have hsame : ∀ s' ∈ p.pauses 0 order (Loop.started s), (Value.view .items 1 0 letters).sizedItems? s'.store =
      (Value.view .items 1 0 letters).sizedItems? s.store := by
    intro s' hs'
    have hnone := Option.isNone_iff_eq_none.mp (List.all_eq_true.mp hkept s' hs')
    rw [Value.sizedItems?, Store.pick, hnone]
    rfl
  obtain ⟨hrender, -, -⟩ := render_loop ["k", "v"] (path "d" ["items"]) true [innerLoop] [text "nothing"] hresolve rfl
    (fun _ => rfl) hsame
  exact ⟨hrender, by decide +kernel⟩

/-- A loop whose body writes the entry for the outer loop and then takes all entries out. -/
def clearing : List Node := [output (path "forloop" ["parentloop"]), output (path "forloop" ["clear"])]

def numbersState : RenderState := ⟨.ofScope [("xs", .list 0 [.int 1, .int 2])] "", .empty 1⟩

/-- Each time on its own, with all entries in place, the body writes an empty mapping for the outer loop. In the loop
it does so the first time only: the entry is not put back. -/
theorem render_loop_cleared :
    let p := Loop.Pass.of ["x"] 2 (renderAll clearing) numbersState
    written? (withScope (p.frame 0 [("x", .int 1)]) p.body (Loop.started numbersState)) = some "{}None" ∧
      written? (withScope (p.frame 1 [("x", .int 2)]) p.body (Loop.started numbersState)) = some "{}None" ∧
      written? ((loop ["x"] (path "xs" []) false clearing []).render numbersState) = some "{}NoneNone" ∧
      "{}None" ++ "{}None" ≠ "{}NoneNone" := by
  decide +kernel

end Node

end TextTemplate
