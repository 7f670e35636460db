import TextTemplate.Library.Standard
import TextTemplate.Node.Render
import TextTemplate.Proofs.Token.Reading

/-!
# Calm computations

Most of what rendering does with values is put together from a few parts: it answers, looks at the store, gives out
an ident, counts or fails, and may take an answer in place of a failure. Such a computation fails over no lookup
and changes no list and no mapping. Besides the looking up of paths, all that nodes do with values is of this kind,
and so are the standard filters.
-/

namespace TextTemplate

/-- The computation with an answer in place of some of its failures. -/
def EvalM.recover {α : Type} (m : EvalM α) (answer? : RenderError → Option α) : EvalM α := fun st =>
  match m st with
  | .ok a st' => .ok a st'
  | .error e st' => match answer? e with
    | some a => .ok a st'
    | none => .error e st'

/-- Whether the failure is that of a lookup. -/
def RenderError.isMissing : RenderError → Bool
  | .missing _ _ => true
  | _ => false

/-- Computations that are put together from parts that change no list and no mapping and look up nothing. -/
inductive Calm : {α : Type} → EvalM α → Prop
  | pure {α : Type} (a : α) : Calm (pure a)
  | throw {α : Type} {e : RenderError} (notMissing : e.isMissing = false) : Calm (throw e : EvalM α)
  | get : Calm get
  | freshIdent : Calm EvalM.freshIdent
  | setCount (id : Ident) (count : Store → Nat) : Calm (modify fun st => st.setCount id (count st))
  | bind {α β : Type} {m : EvalM α} {f : α → EvalM β} (first : Calm m) (next : ∀ a, Calm (f a)) : Calm (m >>= f)
  | recover {α : Type} {m : EvalM α} (inside : Calm m) (answer? : RenderError → Option α) :
      Calm (m.recover answer?)

theorem calm_ofComparison (answer : Option Bool) : Calm (EvalM.ofComparison answer) := by
  cases answer with
  | none => exact .throw rfl
  | some b => exact .pure b

/-! ## Values -/

namespace Value

theorem write_calm (v : Value) : Calm v.write := by
  refine Calm.get.bind fun st => ?_
  dsimp only
  split
  · exact .pure _
  · exact .throw rfl

theorem items_calm (v : Value) : Calm v.items := by
  refine Calm.get.bind fun st => ?_
  split
  · exact .pure _
  · split
    · exact (Calm.setCount _ _).bind fun _ => .pure _
    · exact .throw rfl

theorem isEqual_calm (a b : Value) : Calm (a.isEqual b) := Calm.get.bind fun _ => calm_ofComparison _

theorem isRelated_calm (r : Relation) (a b : Value) : Calm (a.isRelated r b) :=
  Calm.get.bind fun _ => calm_ofComparison _

theorem isIn_calm (x container : Value) : Calm (x.isIn container) := by
  refine Calm.get.bind fun st => ?_
  dsimp only
  split
  · split
    · exact .pure _
    · exact .throw rfl
  · exact calm_ofComparison _
  · exact calm_ofComparison _
  · split
    · exact .pure _
    · exact .throw rfl
  · exact (Calm.setCount _ _).bind fun _ => calm_ofComparison _
  · exact calm_ofComparison _
  · exact calm_ofComparison _

theorem respond_calm (id : Ident) (response : Response) (result : Value) : Calm (respond id response result) := by
  cases response with
  | answers => exact .pure _
  | counts => exact Calm.get.bind fun _ => (Calm.setCount id _).bind fun _ => .pure _
  | fails kind => exact .throw rfl

theorem calledWithOne_calm (v : Value) : Calm v.calledWithOne := by
  unfold calledWithOne
  split
  · split
    · exact .throw rfl
    · exact respond_calm _ _ _
  · exact .throw rfl

end Value

/-! ## The standard filters -/

/-- A filter that is calm, whatever it is given. -/
def Filter.IsCalm (f : Filter) : Prop := ∀ arguments, Calm (f.run arguments)

theorem Filter.IsCalm.call {f : Filter} (hf : f.IsCalm) (arguments : List Value) :
    Calm (f.call arguments) := by
  rw [Filter.call]
  split
  · exact hf arguments
  · exact .throw rfl

namespace StandardFilter

theorem ofValue_isCalm {f : Value → EvalM Value} (hf : ∀ v, Calm (f v)) : (ofValue f).IsCalm := by
  intro arguments
  rw [ofValue]
  dsimp only
  split
  · exact hf _
  · exact .throw rfl

theorem ofPair_isCalm {f : Value → Value → EvalM Value} (hf : ∀ v a, Calm (f v a)) : (ofPair f).IsCalm := by
  intro arguments
  rw [ofPair]
  dsimp only
  split
  · exact hf _ _
  · exact .throw rfl

theorem ofOptional_isCalm {f : Value → Option Value → EvalM Value} (hf : ∀ v a, Calm (f v a)) :
    (ofOptional f).IsCalm := by
  intro arguments
  rw [ofOptional]
  dsimp only
  split
  · exact hf _ _
  · exact hf _ _
  · exact .throw rfl

theorem ofText_isCalm (f : List Char → List Char) : (ofText f).IsCalm :=
  ofValue_isCalm fun v => v.write_calm.bind fun _ => .pure _

theorem toInteger?_calm (v : Value) : Calm (toInteger? v) := by
  unfold toInteger?
  split
  · exact .pure _
  · exact .pure _
  · split
    · exact .pure _
    · exact .throw rfl
  · exact .pure _
  · exact .pure _

theorem cut_calm (v argument : Value) : Calm (cut v argument) :=
  v.write_calm.bind fun _ => argument.write_calm.bind fun _ => .pure _

theorem truncateChars_calm (v argument : Value) : Calm (truncateChars v argument) := by
  refine (toInteger?_calm argument).bind fun n => ?_
  cases n with
  | none => exact .pure v
  | some n =>
    refine v.write_calm.bind fun s => ?_
    split
    · exact .pure _
    split
    · exact .pure _
    · exact .pure _

theorem defaultIfNone_calm (v argument : Value) : Calm (defaultIfNone v argument) := by
  unfold defaultIfNone
  split
  · exact .pure _
  · exact .pure _

theorem writeAll_calm (items : List Value) : Calm (writeAll items) := by
  induction items with
  | nil => exact .pure []
  | cons v rest ih => exact v.write_calm.bind fun _ => ih.bind fun _ => .pure _

theorem join_calm (v argument : Value) : Calm (join v argument) := by
  refine argument.write_calm.bind fun separator => Calm.get.bind fun st => ?_
  split
  · exact v.items_calm.bind fun items => (writeAll_calm items).bind fun _ => .pure _
  · exact .pure v

theorem append_calm (a b : Value) : Calm (append a b) := by
  unfold append
  split
  · exact .pure _
  · exact Calm.get.bind fun _ => Calm.freshIdent.bind fun _ => .pure _
  · exact .pure _
  · split
    · split
      · exact .throw rfl
      · exact Calm.freshIdent.bind fun _ => .pure _
    · exact .pure _

theorem add_calm (v argument : Value) : Calm (add v argument) := by
  refine (toInteger?_calm v).bind fun a => ?_
  cases a with
  | none => exact append_calm v argument
  | some a =>
    refine (toInteger?_calm argument).bind fun b => ?_
    cases b with
    | none => exact append_calm v argument
    | some b => exact .pure _

theorem choices_calm (argument : Option Value) : Calm (choices argument) := by
  unfold choices
  split
  · exact .pure _
  · exact .pure _
  · exact .pure _
  · split
    · exact Value.calledWithOne_calm _
    · exact .throw rfl

theorem itemAt_calm (n : Nat) (v : Value) : Calm (itemAt n v) := by
  refine Calm.get.bind fun st => ?_
  split
  · exact .pure _
  · exact .throw rfl
  · exact .throw rfl

theorem yesNo_calm (v : Value) (argument : Option Value) : Calm (yesNo v argument) := by
  refine (choices_calm argument).bind fun offered => Calm.get.bind fun st => ?_
  split
  · exact .throw rfl
  · split
    · exact .pure v
    · split
      · exact .throw rfl
      · refine (itemAt_calm _ _).bind fun yes => (itemAt_calm _ _).bind fun no => ?_
        refine (itemAt_calm _ _).bind fun maybe => ?_
        split
        · exact .pure maybe
        · exact Calm.get.bind fun _ => .pure _

/-- The standard filters are calm. -/
theorem isCalm_of_lookup {name : String} {f : Filter} (h : all.lookup name = some f) : f.IsCalm := by
  have hall : ∀ e ∈ all, e.2.IsCalm := by
    rw [all]
    simp only [List.forall_mem_cons, List.not_mem_nil, false_imp_iff, implies_true, and_true]
    refine ⟨ofText_isCalm _, ofText_isCalm _, ofText_isCalm _, ofText_isCalm _, ofPair_isCalm cut_calm,
      ofPair_isCalm truncateChars_calm, ?_, ofPair_isCalm defaultIfNone_calm, ?_,
      ofPair_isCalm join_calm, ?_, ?_, ofPair_isCalm add_calm, ofOptional_isCalm yesNo_calm⟩
    · exact ofPair_isCalm fun v a => Calm.get.bind fun _ => .pure _
    all_goals exact ofValue_isCalm fun v => Calm.get.bind fun _ => .pure _
  obtain ⟨before, after, hsplit, -⟩ := List.lookup_eq_some_iff.mp h
  exact hall (name, f) (hsplit ▸ List.mem_append_right before List.mem_cons_self)

end StandardFilter

/-! ## Comparisons and loops -/

theorem Comparison.test_calm (op : Comparison) (a b : Value) : Calm (op.test a b) := by
  cases op with
  | equal => exact a.isEqual_calm b
  | unequal => exact (a.isEqual_calm b).bind fun _ => .pure _
  | isIn => exact a.isIn_calm b
  | isNotIn => exact (a.isIn_calm b).bind fun _ => .pure _
  | less | greater | atMost | atLeast => exact Value.isRelated_calm _ a b

/-- What a comparison that fails comes to: values of kinds that do not compare are not related. -/
def RenderError.compared? : RenderError → Option Bool
  | .unsupportedKind => some false
  | _ => none

theorem Comparison.holds_calm (op : Comparison) (a b : Value) : Calm (op.holds a b) := by
  have hholds : op.holds a b = (op.test a b).recover RenderError.compared? := by
    funext st
    rw [holds, EvalM.recover]
    cases op.test a b st with
    | ok holds st' => rfl
    | error e st' => cases e <;> rfl
  rw [hholds]
  exact (op.test_calm a b).recover _

namespace Loop

theorem parts_calm (item : Value) : Calm (parts item) := by
  have hparts : parts item = item.items.recover fun _ => some [item] := by
    funext st
    rw [parts, EvalM.recover]
    cases item.items st <;> rfl
  rw [hparts]
  exact item.items_calm.recover _

/-- Every item that a loop can ask for is got calmly. -/
def Source.IsCalm (s : Source) : Prop := ∀ n, Calm (s.item? n)

theorem Source.ofItems_isCalm (items : List Value) : (Source.ofItems items).IsCalm := fun _ => .pure _

theorem Source.live_isCalm (v : Value) (fixedSize : Bool) (length : Nat) :
    (Source.live v fixedSize length).IsCalm := by
  intro n
  refine Calm.get.bind fun st => ?_
  dsimp only
  split
  · exact .throw rfl
  · exact .pure _

theorem Source.reverse_isCalm {s : Source} (h : s.IsCalm) : s.reverse.IsCalm := fun _ => h _

/-- A loop goes through a value as it changes, or reads all its items at the start. -/
theorem source_cases (v : Value) (st : Store) :
    (∃ found : Source, found.IsCalm ∧ source v st = .ok found st) ∨
      source v st = (do return Source.ofItems (← v.items) : EvalM Source) st := by
  rw [source.eq_def]
  split
  · exact .inl ⟨_, Source.ofItems_isCalm [], rfl⟩
  · rw [run_bind_get]
    cases v.length? st with
    | none => exact .inr rfl
    | some n =>
      dsimp only
      split
      · exact .inl ⟨_, Source.live_isCalm _ _ _, rfl⟩
      · exact .inl ⟨_, Source.live_isCalm _ _ _, rfl⟩
      · exact .inl ⟨_, Source.live_isCalm _ _ _, rfl⟩
      · exact .inr rfl

theorem source_calm (v : Value) : Calm (source v) := by
  have hread : Calm (do return Source.ofItems (← v.items)) := v.items_calm.bind fun _ => .pure _
  rw [source.eq_def]
  split
  · exact .pure _
  · refine Calm.get.bind fun st => ?_
    split
    · split
      · exact .pure _
      · exact .pure _
      · exact .pure _
      · exact hread
    · exact hread

/-- Whatever a loop goes through, its items are got calmly. -/
theorem isCalm_of_source {v : Value} {st st' : Store} {found : Source} (h : source v st = .ok found st') :
    found.IsCalm := by
  -- where all items are read at the start, the source is a list of them
  rcases source_cases v st with ⟨found', hfound, hsource⟩ | hsource
  · rw [hsource] at h
    cases h
    exact hfound
  · rw [hsource, run_bind] at h
    cases hrun : v.items st with
    | ok items st₁ =>
      rw [hrun] at h
      cases h
      exact Source.ofItems_isCalm items
    | error e st₁ =>
      rw [hrun] at h
      cases h

end Loop

/-! ## Lists and mappings -/

namespace Store

/-- What was recorded about lists and mappings is as it was, and no ident that was given out is new again. -/
structure Untouched (st st' : Store) : Prop where
  orders_eq : st'.orders = st.orders
  fresh_le : st.fresh ≤ st'.fresh

theorem Untouched.refl (st : Store) : st.Untouched st := ⟨rfl, Nat.le_refl _⟩

theorem Untouched.trans {st st' st'' : Store} (h : st.Untouched st') (h' : st'.Untouched st'') : st.Untouched st'' :=
  ⟨h'.orders_eq.trans h.orders_eq, h.fresh_le.trans h'.fresh_le⟩

end Store

/-- The store in which a computation ends, whether it gives an answer or fails. -/
def EvalM.storeAfter {α : Type} (m : EvalM α) (st : Store) : Store :=
  match m st with
  | .ok _ st' => st'
  | .error _ st' => st'

/-- The store in which a rendering ends, whether it gives an answer or fails. -/
def RenderM.storeAfter {α : Type} (m : RenderM α) (s : RenderState) : Store :=
  match m s with
  | .ok _ s' => s'.store
  | .error _ s' => s'.store

theorem RenderM.storeAfter_onValues {α : Type} (m : EvalM α) (s : RenderState) :
    (onValues m).storeAfter s = m.storeAfter s.store := by
  rw [storeAfter, onValues, EvalM.storeAfter]
  cases m s.store <;> rfl

/-- A computation that leaves lists and mappings alone, also when it fails. -/
def Silent {α : Type} (m : EvalM α) : Prop := ∀ st : Store, st.Untouched (m.storeAfter st)

/-- A calm computation leaves lists and mappings alone. -/
theorem Calm.silent {α : Type} {m : EvalM α} (h : Calm m) : Silent m := by
  induction h with
  | pure a => exact Store.Untouched.refl
  | throw hother => exact Store.Untouched.refl
  | get => exact Store.Untouched.refl
  | freshIdent => exact fun st => ⟨rfl, Nat.le_succ _⟩
  | setCount id count => exact fun st => ⟨rfl, Nat.le_refl _⟩
  | @bind _ _ m f _ _ ihfirst ihnext =>
    intro st
    have hst := ihfirst st
    rw [EvalM.storeAfter] at hst ⊢
    rw [run_bind]
    cases hrun : m st with
    | ok a st' =>
      rw [hrun] at hst
      exact hst.trans (ihnext a st')
    | error e st' =>
      rw [hrun] at hst
      exact hst
  | @recover _ m _ answer? ih =>
    intro st
    have hst := ih st
    rw [EvalM.storeAfter] at hst ⊢
    rw [EvalM.recover]
    cases hrun : m st with
    | ok a st' =>
      rw [hrun] at hst
      exact hst
    | error e st' =>
      rw [hrun] at hst
      dsimp only at hst ⊢
      cases answer? e <;> exact hst

/-- A filter that leaves lists and mappings alone, whatever it is given. -/
def Filter.IsSilent (f : Filter) : Prop := ∀ arguments, Silent (f.run arguments)

theorem Filter.IsSilent.call {f : Filter} (hf : f.IsSilent) (arguments : List Value) :
    Silent (f.call arguments) := by
  rw [Filter.call]
  split
  · exact hf arguments
  · exact Store.Untouched.refl

end TextTemplate
