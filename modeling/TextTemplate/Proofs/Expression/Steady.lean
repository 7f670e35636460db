import TextTemplate.Expression.Resolve
import TextTemplate.Proofs.Node.Calm

/-!
# Looking up a path again

Looking up a path may change lists and mappings, make new objects and count calls. If it does none of this, then it
leads to the very same value whenever lists and mappings are as they were, and a longer path goes on from that value.
How the path is written in the template matters for nothing but the text of a failed lookup.
-/

namespace TextTemplate

/-! ## Stores -/

namespace Store

/-- Idents are given out and calls are counted, but neither is taken back. -/
structure Grows (st st' : Store) : Prop where
  fresh_le : st.fresh ≤ st'.fresh
  count_le : ∀ id, st.count id ≤ st'.count id

theorem Grows.refl (st : Store) : st.Grows st := ⟨Nat.le_refl _, fun _ => Nat.le_refl _⟩

theorem Grows.trans {st st' st'' : Store} (h : st.Grows st') (h' : st'.Grows st'') : st.Grows st'' :=
  ⟨h.fresh_le.trans h'.fresh_le, fun id => (h.count_le id).trans (h'.count_le id)⟩

theorem grows_setOrder (st : Store) (id : Ident) (order : List Nat) : st.Grows (st.setOrder id order) :=
  ⟨Nat.le_refl _, fun _ => Nat.le_refl _⟩

theorem count_setCount_self (st : Store) (id : Ident) (n : Nat) : (st.setCount id n).count id = n := by
  simp [setCount, count]

theorem count_setCount_of_ne (st : Store) {id id' : Ident} (h : id' ≠ id) (n : Nat) :
    (st.setCount id n).count id' = st.count id' := by
  have hkept : (st.counts.filter (·.1 != id)).lookup id' = st.counts.lookup id' := by
    induction st.counts with
    | nil => rfl
    | cons e rest ih =>
      obtain ⟨key, found⟩ := e
      rw [List.filter_cons, Entries.lookup_cons]
      split
      · rw [Entries.lookup_cons, ih]
      · rename_i hkey
        rw [if_neg (by grind), ih]
  rw [count, count, setCount, Entries.lookup_cons, if_neg (by simpa using h), hkept]

section SameOrders

variable {st st' : Store} (h : st'.orders = st.orders)
include h

theorem pick_congr {α : Type} (id : Ident) (children : List α) : st'.pick id children = st.pick id children := by
  rw [pick, pick, h]

theorem order_congr (id : Ident) (size : Nat) : st'.order id size = st.order id size := by rw [order, order, h]

end SameOrders

end Store

section Settle

variable {st st' : Store}

mutual

theorem Value.settle_congr (h : st'.orders = st.orders) : (v : Value) → v.settle st' = v.settle st
  | .list id items => by rw [settle, settle, settleAll_congr h items, Store.pick_congr h]
  | .tuple items => by rw [settle, settle, settleAll_congr h items]
  | .mapping id entries => by rw [settle, settle, settleEntries_congr h entries, Store.pick_congr h]
  | .view kind id source entries => by rw [settle, settle, settleEntries_congr h entries, Store.pick_congr h]
  | .none | .bool _ | .int _ | .float _ | .nan _ | .text _ | .set _ | .onceOnly _ _ | .hostObject _ _
  | .hostType _ _ | .hostFunction _ _ _ => rfl

theorem Value.settleAll_congr (h : st'.orders = st.orders) : (items : List Value) →
    settleAll st' items = settleAll st items
  | [] => rfl
  | v :: rest => by rw [settleAll, settleAll, settle_congr h v, settleAll_congr h rest]

theorem Value.settleEntries_congr (h : st'.orders = st.orders) : (entries : List (Value × Value)) →
    settleEntries st' entries = settleEntries st entries
  | [] => rfl
  | (k, v) :: rest => by
    rw [settleEntries, settleEntries, settle_congr h k, settle_congr h v, settleEntries_congr h rest]

end

end Settle

/-! ## Computing again -/

/-- If `m` makes no new object and counts nothing, then `m'` gives the same answer at every store in which lists and
mappings are as they were for `m`, and changes them in the same way. -/
def Repeats {α : Type} (m m' : EvalM α) : Prop :=
  ∀ st : Store, st.Grows (m.storeAfter st) ∧ ∀ a st₁, m st = .ok a st₁ → st₁.Grows st →
    ∀ st' : Store, st'.orders = st.orders → m' st' = .ok a { st' with orders := st₁.orders }

section Repeating

variable {α β : Type} {m m' : EvalM α}

theorem Repeats.bind {f f' : α → EvalM β} (hm : Repeats m m') (hf : ∀ a, Repeats (f a) (f' a)) :
    Repeats (m >>= f) (m' >>= f') := by
  intro st
  obtain ⟨hgrows, hagain⟩ := hm st
  rw [EvalM.storeAfter] at hgrows ⊢
  rw [run_bind]
  cases hrun : m st with
  | error e st₁ =>
    rw [hrun] at hgrows
    refine ⟨hgrows, fun b st₂ hnext => ?_⟩
    cases hnext
  | ok a st₁ =>
    rw [hrun] at hgrows
    obtain ⟨hgrows', hagain'⟩ := hf a st₁
    rw [EvalM.storeAfter] at hgrows'
    refine ⟨hgrows.trans hgrows', fun b st₂ hnext hback st' horders => ?_⟩
    simp only [hnext] at hgrows'
    have hfirst := hagain a st₁ hrun (hgrows'.trans hback) st' horders
    rw [run_bind_ok hfirst]
    exact hagain' b st₂ hnext (hback.trans hgrows) _ rfl

theorem repeats_pure (a : α) : Repeats (pure a) (pure a) := by
  refine fun st => ⟨Store.Grows.refl st, fun b st₁ hrun _ st' horders => ?_⟩
  cases hrun
  rw [← horders]
  rfl

theorem repeats_throw (e e' : RenderError) : Repeats (throw e : EvalM α) (throw e') :=
  fun st => ⟨Store.Grows.refl st, fun _ _ hrun => by cases hrun⟩

/-- What is read off the store may go into a computation if it depends on lists and mappings only. -/
theorem Repeats.get {f f' : Store → EvalM β}
    (hf : ∀ st st' : Store, st'.orders = st.orders → Repeats (f st) (f' st')) :
    Repeats (do f (← get)) (do f' (← get)) := by
  intro st
  refine ⟨(hf st st rfl st).1, fun b st₁ hrun hback st' horders => ?_⟩
  exact (hf st st' horders st).2 b st₁ hrun hback st' horders

theorem repeats_setOrder (id : Ident) (order : List Nat) :
    Repeats (modify (·.setOrder id order)) (modify (·.setOrder id order)) := by
  refine fun st => ⟨st.grows_setOrder id order, fun b st₁ hrun _ st' horders => ?_⟩
  cases hrun
  change EStateM.Result.ok _ (st'.setOrder id order) = _
  rw [Store.setOrder, horders]
  rfl

theorem repeats_freshIdent : Repeats EvalM.freshIdent EvalM.freshIdent := by
  refine fun st => ⟨⟨Nat.le_succ _, fun _ => Nat.le_refl _⟩, fun id st₁ hrun hback => ?_⟩
  cases hrun
  exact absurd hback.fresh_le (Nat.not_succ_le_self st.fresh)

end Repeating

namespace Value

theorem newList_repeats (items : List Value) : Repeats (newList items) (newList items) :=
  repeats_freshIdent.bind fun _ => repeats_pure _

theorem newView_repeats (kind : ViewKind) (source : Ident) (entries : List (Value × Value)) :
    Repeats (newView kind source entries) (newView kind source entries) :=
  repeats_freshIdent.bind fun _ => repeats_pure _

/-- A call that is counted is not repeated; one that only answers is. -/
theorem respond_repeats (id : Ident) (response : Response) (result : Value) :
    Repeats (respond id response result) (respond id response result) := by
  cases response with
  | answers => exact repeats_pure result
  | fails kind => exact repeats_throw _ _
  | counts =>
    intro st
    have hgrows : st.Grows (st.setCount id (st.count id + 1)) := by
      refine ⟨Nat.le_refl _, fun id' => ?_⟩
      by_cases hid : id' = id
      · rw [hid, Store.count_setCount_self]
        exact Nat.le_succ _
      · rw [Store.count_setCount_of_ne st hid]
    refine ⟨hgrows, fun v st₁ hrun hback => ?_⟩
    cases hrun
    have hcount := hback.count_le id
    change (st.setCount id (st.count id + 1)).count id ≤ st.count id at hcount
    rw [Store.count_setCount_self] at hcount
    exact absurd hcount (Nat.not_succ_le_self _)

theorem called_repeats (missing missing' : RenderError) (v : Value) :
    Repeats (v.called missing) (v.called missing') := by
  unfold called
  split
  · rw [callFunction, callFunction]
    split
    · exact repeats_throw _ _
    · exact respond_repeats _ _ _
  · exact repeats_pure _

theorem textMethod?_repeats {s name : String} {operation : EvalM Value} (h : textMethod? s name = some operation) :
    Repeats operation operation := by
  unfold textMethod? at h
  split at h <;> cases h
  all_goals first | exact repeats_pure _ | exact newList_repeats _

theorem mappingMethod?_repeats {id : Ident} {entries : List (Value × Value)} {name : String}
    {operation : EvalM Value} (h : mappingMethod? id entries name = some operation) :
    Repeats operation operation := by
  unfold mappingMethod? at h
  split at h <;> cases h
  · exact newView_repeats _ _ _
  · exact newView_repeats _ _ _
  · exact newView_repeats _ _ _
  · refine Repeats.get fun st st' horders => ?_
    rw [Store.pick_congr horders]
    exact repeats_freshIdent.bind fun _ => repeats_pure _
  · exact (repeats_setOrder _ _).bind fun _ => repeats_pure _
  · refine Repeats.get fun st st' horders => ?_
    rw [Store.pick_congr horders, Store.order_congr horders]
    split
    · exact repeats_throw _ _
    · exact (repeats_setOrder _ _).bind fun _ => repeats_pure _

theorem sortList_repeats (id : Ident) (items : List Value) : Repeats (sortList id items) (sortList id items) := by
  refine Repeats.get fun st st' horders => ?_
  simp only [Store.order_congr horders, settle_congr horders]
  split
  · exact (repeats_setOrder _ _).bind fun _ => repeats_pure _
  · exact (repeats_setOrder _ _).bind fun _ => repeats_throw _ _

theorem listMethod?_repeats {id : Ident} {items : List Value} {name : String} {operation : EvalM Value}
    (h : listMethod? id items name = some operation) : Repeats operation operation := by
  unfold listMethod? at h
  split at h <;> cases h
  · refine Repeats.get fun st st' horders => ?_
    rw [Store.pick_congr horders]
    exact newList_repeats _
  · refine Repeats.get fun st st' horders => ?_
    rw [Store.pick_congr horders, Store.order_congr horders]
    split
    · exact repeats_throw _ _
    · exact (repeats_setOrder _ _).bind fun _ => repeats_pure _
  · refine Repeats.get fun st st' horders => ?_
    rw [Store.order_congr horders]
    exact (repeats_setOrder _ _).bind fun _ => repeats_pure _
  · exact sortList_repeats id items
  · exact (repeats_setOrder _ _).bind fun _ => repeats_pure _

theorem intMethod?_repeats {n : Int} {name : String} {operation : EvalM Value}
    (h : intMethod? n name = some operation) : Repeats operation operation := by
  unfold intMethod? at h
  split at h <;> cases h
  all_goals exact repeats_pure _

theorem floatMethod?_repeats {v : Value} {whole : Bool} {hex name : String} {operation : EvalM Value}
    (h : floatMethod? v whole hex name = some operation) : Repeats operation operation := by
  unfold floatMethod? at h
  split at h <;> cases h
  all_goals exact repeats_pure _

/-- An operation that a value offers is repeated unless it makes something new. -/
theorem method?_repeats {v : Value} {name : String} {operation : EvalM Value} (h : v.method? name = some operation) :
    Repeats operation operation := by
  unfold method? at h
  split at h
  · exact textMethod?_repeats h
  · exact mappingMethod?_repeats h
  · exact listMethod?_repeats h
  · exact intMethod?_repeats h
  · exact intMethod?_repeats h
  · exact floatMethod?_repeats h
  · exact floatMethod?_repeats h
  · cases h

theorem itemAt?_congr {st st' : Store} (h : st'.orders = st.orders) (n : Int) (v : Value) :
    v.itemAt? st' n = v.itemAt? st n := by
  cases v <;> simp [itemAt?, Store.pick_congr h]

end Value

/-- Only a function is called. -/
theorem Value.called_eq_pure {v : Value} (h : ∀ id shape result, v ≠ .hostFunction id shape result)
    (missing : RenderError) : v.called missing = pure v := by
  cases v with
  | hostFunction id shape result => exact absurd rfl (h id shape result)
  | _ => rfl

namespace Operand

theorem step_repeats (missing missing' : RenderError) (current : Value) (segment : String) :
    Repeats (step missing current segment) (step missing' current segment) := by
  refine Repeats.get fun st st' horders => ?_
  simp only [Store.pick_congr horders, Value.itemAt?_congr horders]
  split
  · exact Value.called_repeats missing missing' _
  split
  · rename_i hoperation
    exact Value.method?_repeats hoperation
  split
  · exact Value.called_repeats missing missing' _
  split
  · exact Value.called_repeats missing missing' _
  · exact repeats_throw _ _

/-- An entry of a mapping goes before everything that the mapping offers under the same name. -/
theorem step_of_keyedByText? {st : Store} {v : Value} {id : Ident} {es : List (Value × Value)} {key : String}
    (h : Value.keyedByText? key (st.pick id es) = some v) (missing : RenderError) :
    step missing (.mapping id es) key st = v.called missing st := by
  rw [step, run_bind_get]
  simp only [h]

theorem follow_repeats (source source' : String) (current : Value) (segments : List String) :
    Repeats (follow source current segments) (follow source' current segments) := by
  induction segments generalizing current with
  | nil => exact repeats_pure current
  | cons segment rest ih => exact (step_repeats _ _ current segment).bind ih

/-- A path is followed in two parts. -/
theorem follow_append (source : String) (current : Value) (segments more : List String) :
    follow source current (segments ++ more) = (do follow source (← follow source current segments) more) := by
  induction segments generalizing current with
  | nil => rfl
  | cons segment rest ih => simp [follow, ih]

end Operand

/-! ## Failures of one class -/

/-- The failures are of one class; all failed lookups are, whatever was looked up. -/
def RenderError.SameClass : RenderError → RenderError → Prop
  | missing _ _, missing _ _ => True
  | e, e' => e = e'

theorem RenderError.sameClass_missing (path segment path' segment' : String) :
    (missing path segment).SameClass (missing path' segment') := trivial

theorem RenderError.SameClass.refl (e : RenderError) : e.SameClass e := by cases e <;> simp [SameClass]

section Alike

variable {σ α β : Type}

/-- The same answer, or failures of one class, and the same state at the end. -/
inductive SameOutcome : EStateM.Result RenderError σ α → EStateM.Result RenderError σ α → Prop
  | ok (a : α) (s : σ) : SameOutcome (.ok a s) (.ok a s)
  | error {e e' : RenderError} (sameClass : e.SameClass e') (s : σ) : SameOutcome (.error e s) (.error e' s)

theorem SameOutcome.refl (r : EStateM.Result RenderError σ α) : SameOutcome r r := by
  cases r with
  | ok a s => exact .ok a s
  | error e s => exact .error (.refl e) s

/-- Two computations have the same outcome wherever they start. -/
def Alike (m m' : EStateM RenderError σ α) : Prop := ∀ s, SameOutcome (m s) (m' s)

theorem Alike.refl (m : EStateM RenderError σ α) : Alike m m := fun s => .refl (m s)

theorem Alike.bind {m m' : EStateM RenderError σ α} {f f' : α → EStateM RenderError σ β} (hm : Alike m m')
    (hf : ∀ a, Alike (f a) (f' a)) : Alike (m >>= f) (m' >>= f') := by
  intro s
  have hs := hm s
  rw [run_bind, run_bind]
  generalize m s = r, m' s = r' at hs
  cases hs with
  | ok a s' => exact hf a s'
  | error hclass s' => exact .error hclass s'

theorem alike_throw {e e' : RenderError} (h : e.SameClass e') :
    Alike (throw e : EStateM RenderError σ α) (throw e') :=
  fun s => .error h s

end Alike

section Looking

variable {missing missing' : RenderError} (h : missing.SameClass missing')
include h

theorem Value.called_alike (v : Value) : Alike (v.called missing) (v.called missing') := by
  unfold called
  split
  · rw [callFunction, callFunction]
    split
    · split
      · exact alike_throw h
      · exact .refl _
    · exact .refl _
  · exact .refl _

theorem Operand.step_alike (current : Value) (segment : String) :
    Alike (step missing current segment) (step missing' current segment) := by
  refine (Alike.refl _).bind fun st => ?_
  dsimp only
  split
  · exact Value.called_alike h _
  split
  · exact .refl _
  split
  · exact Value.called_alike h _
  split
  · exact Value.called_alike h _
  · exact alike_throw h

end Looking

namespace Operand

theorem follow_alike (source source' : String) (current : Value) (segments : List String) :
    Alike (follow source current segments) (follow source' current segments) := by
  induction segments generalizing current with
  | nil => exact .refl _
  | cons segment rest ih => exact (step_alike (RenderError.sameClass_missing _ _ _ _) current segment).bind ih

variable {o : Operand} {first : String} {rest : List String} {v : Value} {s : RenderState}

theorem resolve_path (hmeaning : o.meaning = .path first rest) (s : RenderState) :
    o.resolve s = match s.context.get? first with
      | none => .error (.missing o.source first) s
      | some start => RenderM.onValues (do
          follow o.source (← start.called (.missing o.source first)) rest) s := by
  rw [resolve, hmeaning]
  dsimp only
  rw [run_bind_get]
  cases s.context.get? first <;> rfl

/-- A path that leads to a value and changes nothing leads there again wherever its first segment is the same value
and lists and mappings are as they were, and longer paths go on from this value. -/
theorem resolve_longer {o' : Operand} {more : List String} {z : RenderState}
    (hmeaning : o.meaning = .path first rest) (hresolve : o.resolve s = .ok v s)
    (hmeaning' : o'.meaning = .path first (rest ++ more)) (hfirst : z.context.get? first = s.context.get? first)
    (horders : z.store.orders = s.store.orders) :
    o'.resolve z = RenderM.onValues (follow o'.source v more) z := by
  rw [resolve_path hmeaning] at hresolve
  rw [resolve_path hmeaning', hfirst]
  cases hstart : s.context.get? first with
  | none =>
    rw [hstart] at hresolve
    cases hresolve
  | some start =>
    rw [hstart] at hresolve
    dsimp only at hresolve ⊢
    have hleads : (do follow o.source (← start.called (.missing o.source first)) rest) s.store = .ok v s.store := by
      rw [RenderM.onValues] at hresolve
      split at hresolve
      · rename_i hrun
        obtain ⟨rfl, hs⟩ := EStateM.Result.ok.inj hresolve
        rw [hrun, ← hs]
      · cases hresolve
    have hrepeats : Repeats (do follow o.source (← start.called (.missing o.source first)) rest)
        (do follow o'.source (← start.called (.missing o'.source first)) rest) :=
      (Value.called_repeats _ _ start).bind fun _ => follow_repeats _ _ _ rest
    have hagain := (hrepeats s.store).2 v s.store hleads (.refl _) z.store horders
    rw [← horders] at hagain
    simp only [follow_append]
    rw [RenderM.onValues, RenderM.onValues, ← bind_assoc, run_bind_ok hagain]

/-- Whatever looking up an operand does, it gives no ident back. -/
theorem resolve_fresh_le (o : Operand) (s : RenderState) : s.store.fresh ≤ (o.resolve.storeAfter s).fresh := by
  cases hmeaning : o.meaning with
  | literal v =>
    rw [RenderM.storeAfter, resolve, hmeaning]
    exact Nat.le_refl _
  | path first rest =>
    rw [RenderM.storeAfter, resolve_path hmeaning]
    cases s.context.get? first with
    | none => exact Nat.le_refl _
    | some start =>
      have hrepeats := (Value.called_repeats (.missing o.source first) (.missing o.source first) start).bind
        fun w => follow_repeats o.source o.source w rest
      have hgrows := (hrepeats s.store).1.fresh_le
      rw [← RenderM.storeAfter_onValues] at hgrows
      exact hgrows

end Operand

end TextTemplate
