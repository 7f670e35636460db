import TextTemplate.Proofs.Expression.Steady
import TextTemplate.Proofs.Node.Alias
import TextTemplate.Proofs.Node.Watch

/-!
# Rendering with a name and with its path

Two runs side by side: one in a scope that gives a name to a lookup path, the other one without that scope and with
the path written out. As long as nothing changes a list or a mapping and nothing takes the name or the start of the
path for something else, the two runs agree: they give the same answers and fail in the same way, and keep the same
store and, but for the scope of the name, the same scopes.
-/

namespace TextTemplate

namespace Store

/-- Changes are recorded of objects only whose idents were given out. -/
def Sound (st : Store) : Prop := ∀ e ∈ st.orders, e.1 < st.fresh

theorem sound_empty (fresh : Ident) : (empty fresh).Sound := List.forall_mem_nil _

/-- Nothing is recorded of an object that is new. -/
theorem Sound.lookup_eq_none {st : Store} (h : st.Sound) {id : Ident} (hid : st.fresh ≤ id) :
    st.orders.lookup id = none := by
  rw [List.lookup_eq_none_iff]
  intro e he
  simpa using ((h e he).trans_le hid).ne'

end Store

/-- The entry is no lookup that changes a list or a mapping. -/
def RenderEntry.LooksOnly (entry : RenderEntry) : Prop :=
  match entry.event with
  | .lookup o => (o.resolve.storeAfter entry.state).orders = entry.state.store.orders
  | .call _ _ => True

instance : DecidablePred RenderEntry.LooksOnly := fun ⟨state, event⟩ =>
  match event with
  | .lookup o => inferInstanceAs (Decidable ((o.resolve.storeAfter state).orders = state.store.orders))
  | .call _ _ => .isTrue trivial

/-- The event leaves lists and mappings alone. -/
def RenderEntry.IsQuiet (entry : RenderEntry) : Prop :=
  match entry.event with
  | .lookup o => (o.resolve.storeAfter entry.state).orders = entry.state.store.orders
  | .call f arguments => entry.state.store.Untouched ((f.call arguments).storeAfter entry.state.store)

/-- The event is a lookup, or the call of a filter that leaves lists and mappings alone. -/
def RenderEvent.IsSilent : RenderEvent → Prop
  | .lookup _ => True
  | .call f _ => f.IsSilent

/-- The alias `a` names the value `v` in the state `s`: its path leads there without changing anything, nothing is
recorded of objects that are not there yet, and the value is not a function, which would be called. -/
structure Alias.Names (a : Alias) (v : Value) (s : RenderState) : Prop where
  resolves : a.operand.resolve s = .ok v s
  notFunction : ∀ id shape result, v ≠ .hostFunction id shape result
  sound : s.store.Sound

/-- The scope has neither the name of the alias nor the one that its path starts with. -/
structure Alias.Spared (a : Alias) (scope : Scope) : Prop where
  name : scope.lookup a.name = none
  first : scope.lookup a.first = none

namespace Alias

variable {a : Alias}

theorem Spared.put {scope : Scope} (h : a.Spared scope) {name : String} (hfree : a.FreeOf [name]) (v : Value) :
    a.Spared (Entries.put name v scope) := by
  constructor
  · rw [Entries.lookup_put, if_neg (by simpa using hfree.name), h.name]
  · rw [Entries.lookup_put, if_neg (by simpa using hfree.first), h.first]

theorem Spared.putAll {scope : Scope} (h : a.Spared scope) {more : Scope} (hfree : a.FreeOf (more.map (·.1))) :
    a.Spared (Entries.putAll scope more) := by
  induction more generalizing scope with
  | nil => exact h
  | cons e rest ih =>
    obtain ⟨hfirst, hrest⟩ := FreeOf.cons hfree
    exact ih (h.put hfirst e.2) hrest

end Alias

/-! ## The two runs -/

/-- The states of the two runs, `w` with the scope for the alias and `z` without it, where `depth` more scopes are
open than in the state `s` in which they started. -/
structure Twin (a : Alias) (v : Value) (s : RenderState) (depth : Nat) (w z : RenderState) : Prop where
  scopes : ∃ opened : List Scope, opened.length = depth ∧ (∀ scope ∈ opened, a.Spared scope) ∧
    w.context = { s.context with inner := opened ++ [(a.name, v)] :: s.context.inner } ∧
    z.context = { s.context with inner := opened ++ s.context.inner }
  store_eq : z.store = w.store
  untouched : s.store.Untouched w.store

namespace Twin

variable {a : Alias} {v : Value} {s w z : RenderState} {depth : Nat}

theorem start (a : Alias) (v : Value) (s : RenderState) :
    Twin a v s 0 { s with context := s.context.push [(a.name, v)] } s :=
  ⟨⟨[], rfl, List.forall_mem_nil _, rfl, rfl⟩, rfl, .refl _⟩

theorem pop_eq (h : Twin a v s 0 w z) : { w with context := w.context.pop } = z := by
  obtain ⟨⟨opened, hlength, -, hw, hz⟩, hstore, -⟩ := h
  obtain rfl := List.length_eq_zero_iff.mp hlength
  obtain ⟨context, store⟩ := z
  dsimp only at hz hstore
  rw [hz, hstore, hw]
  rfl

/-- The stores of both runs may change together. -/
theorem withStore (h : Twin a v s depth w z) {st : Store} (hst : w.store.Untouched st) :
    Twin a v s depth { w with store := st } { z with store := st } :=
  ⟨h.scopes, rfl, h.untouched.trans hst⟩

theorem ifInvalid_eq (h : Twin a v s depth w z) : z.context.ifInvalid = w.context.ifInvalid := by
  obtain ⟨opened, -, -, hw, hz⟩ := h.scopes
  rw [hw, hz]

private theorem get?_inner (context : Context) (inner : List Scope) (name : String) :
    { context with inner := inner }.get? name =
      (inner.findSome? (·.lookup name)).or (context.outermost.lookup name) := by
  rw [Context.get?, Context.scopes, List.findSome?_append, List.findSome?_singleton]

/-- A name other than that of the alias has the same value in both runs. -/
theorem get?_eq (h : Twin a v s depth w z) {name : String} (hname : name ≠ a.name) :
    z.context.get? name = w.context.get? name := by
  obtain ⟨opened, -, -, hw, hz⟩ := h.scopes
  have hskip : [(a.name, v)].lookup name = none := by
    rw [Entries.lookup_cons, if_neg (by simpa using hname)]
    rfl
  rw [hw, hz, get?_inner, get?_inner, List.findSome?_append, List.findSome?_append, List.findSome?_cons, hskip]

theorem findSome?_opened {opened : List Scope} {name : String} (h : ∀ scope ∈ opened, scope.lookup name = none) :
    opened.findSome? (·.lookup name) = none := List.findSome?_eq_none_iff.mpr h

/-- The alias has its value in the one run. -/
theorem get?_name (h : Twin a v s depth w z) : w.context.get? a.name = some v := by
  obtain ⟨opened, -, hspared, hw, -⟩ := h.scopes
  have hopened := findSome?_opened fun scope hscope => (hspared scope hscope).name
  rw [hw, get?_inner, List.findSome?_append, hopened, List.findSome?_cons, Entries.lookup_cons]
  simp

/-- The path starts in the other run where it started. -/
theorem get?_first (h : Twin a v s depth w z) : z.context.get? a.first = s.context.get? a.first := by
  obtain ⟨opened, -, hspared, -, hz⟩ := h.scopes
  have hopened := findSome?_opened fun scope hscope => (hspared scope hscope).first
  rw [hz, get?_inner, List.findSome?_append, hopened, Option.none_or]
  exact (get?_inner s.context s.context.inner a.first).symm

theorem push (h : Twin a v s depth w z) {scope : Scope} (hscope : a.Spared scope) :
    Twin a v s (depth + 1) { w with context := w.context.push scope }
      { z with context := z.context.push scope } := by
  obtain ⟨opened, hlength, hspared, hw, hz⟩ := h.scopes
  refine ⟨⟨scope :: opened, by rw [List.length_cons, hlength], ?_, by rw [hw]; rfl, by rw [hz]; rfl⟩, h.store_eq,
    h.untouched⟩
  exact List.forall_mem_cons.mpr ⟨hscope, hspared⟩

theorem pop (h : Twin a v s (depth + 1) w z) :
    Twin a v s depth { w with context := w.context.pop } { z with context := z.context.pop } := by
  obtain ⟨opened, hlength, hspared, hw, hz⟩ := h.scopes
  obtain ⟨scope, opened, rfl⟩ := List.exists_cons_of_length_eq_add_one hlength
  refine ⟨⟨opened, Nat.succ.inj hlength, (List.forall_mem_cons.mp hspared).2, by rw [hw]; rfl, by rw [hz]; rfl⟩,
    h.store_eq, h.untouched⟩

/-- A name that is spared may be assigned in a scope that both runs have opened. -/
theorem assign (h : Twin a v s (depth + 1) w z) {name : String} (hname : a.FreeOf [name]) (item : Value) :
    Twin a v s (depth + 1) { w with context := w.context.assign name item }
      { z with context := z.context.assign name item } := by
  obtain ⟨opened, hlength, hspared, hw, hz⟩ := h.scopes
  obtain ⟨scope, opened, rfl⟩ := List.exists_cons_of_length_eq_add_one hlength
  obtain ⟨hscope, hopened⟩ := List.forall_mem_cons.mp hspared
  refine ⟨⟨Entries.put name item scope :: opened, by rw [← hlength]; rfl, ?_, by rw [hw]; rfl, by rw [hz]; rfl⟩,
    h.store_eq, h.untouched⟩
  exact List.forall_mem_cons.mpr ⟨hscope.put hname item, hopened⟩

end Twin

/-! ## Runs that agree -/

open WatchM

/-- The same answer, of which `P` holds, or failures of one class, and twin states at the end. -/
inductive TwinOutcome (a : Alias) (v : Value) (s : RenderState) (depth : Nat) {α : Type} (P : α → Prop) :
    EStateM.Result RenderError RenderState α → EStateM.Result RenderError RenderState α → Prop
  | ok {b : α} {w z : RenderState} (holds : P b) (twin : Twin a v s depth w z) :
      TwinOutcome a v s depth P (.ok b w) (.ok b z)
  | error {e e' : RenderError} {w z : RenderState} (sameClass : e.SameClass e') (twin : Twin a v s depth w z) :
      TwinOutcome a v s depth P (.error e w) (.error e' z)

/-- Started in twin states, the two runs have twin outcomes. This is asked only where the first one leaves lists and
mappings alone. -/
def Follows (a : Alias) (v : Value) (s : RenderState) {α : Type} (depth : Nat) (P : α → Prop) (m m' : WatchM α) :
    Prop :=
  ∀ w z, Twin a v s depth w z → (∀ entry ∈ m.entries w, entry.IsQuiet) →
    TwinOutcome a v s depth P (m.plain w) (m'.plain z)

section Combining

variable {a : Alias} {v : Value} {s : RenderState} {α β : Type} {depth : Nat} {P : α → Prop} {Q : β → Prop}

theorem follows_pure {b : α} (h : P b) : Follows a v s depth P (pure b) (pure b) :=
  fun _ _ htwin _ => .ok h htwin

theorem Follows.bind {m m' : WatchM α} {f f' : α → WatchM β} (hm : Follows a v s depth P m m')
    (hf : ∀ b, P b → Follows a v s depth Q (f b) (f' b)) : Follows a v s depth Q (m >>= f) (m' >>= f') := by
  intro w z htwin hquiet
  rw [entries_bind] at hquiet
  obtain ⟨hquiet, hlater⟩ := List.forall_mem_append.mp hquiet
  have hboth := hm w z htwin hquiet
  rw [plain_bind, plain_bind, run_bind, run_bind]
  generalize m.plain w = r, m'.plain z = r' at hboth hlater
  cases hboth with
  | ok hb htwin' => exact hf _ hb _ _ htwin' hlater
  | error hclass htwin' => exact .error hclass htwin'

/-- What is read off the states may go into runs that agree whatever the twin states are. -/
theorem Follows.get {f f' : RenderState → WatchM α}
    (hf : ∀ w z, Twin a v s depth w z → Follows a v s depth P (f w) (f' z)) :
    Follows a v s depth P (do f (← quietly get)) (do f' (← quietly get)) :=
  fun w z htwin hquiet => hf w z htwin w z htwin hquiet

theorem follows_throw (e : RenderError) : Follows a v s depth P (quietly (throw e)) (quietly (throw e)) :=
  fun _ _ htwin _ => .error (.refl e) htwin

/-- What is done to values has the same outcome in both runs, if it leaves lists and mappings alone in the first. -/
theorem Twin.onValues {w z : RenderState} (htwin : Twin a v s depth w z) {m m' : EvalM α} (hm : Alike m m')
    (huntouched : w.store.Untouched (m.storeAfter w.store)) (hP : ∀ b st, m w.store = .ok b st → P b) :
    TwinOutcome a v s depth P (RenderM.onValues m w) (RenderM.onValues m' z) := by
  have hboth := hm w.store
  rw [EvalM.storeAfter] at huntouched
  rw [RenderM.onValues, RenderM.onValues, htwin.store_eq]
  generalize m w.store = r, m' w.store = r' at hboth huntouched hP
  cases hboth with
  | ok b st => exact .ok (hP b st rfl) (htwin.withStore huntouched)
  | error hclass st => exact .error hclass (htwin.withStore huntouched)

theorem follows_values {m : EvalM α} (hm : Silent m)
    (hP : ∀ st b st', s.store.Untouched st → m st = .ok b st' → P b) :
    Follows a v s depth P (quietly (RenderM.onValues m)) (quietly (RenderM.onValues m)) :=
  fun w _ htwin _ => htwin.onValues (.refl m) (hm w.store) fun b st => hP w.store b st htwin.untouched

theorem follows_calm {m : EvalM α} (hm : Calm m) :
    Follows a v s depth (fun _ => True) (quietly (RenderM.onValues m)) (quietly (RenderM.onValues m)) :=
  follows_values hm.silent fun _ _ _ _ _ => trivial

theorem follows_call (f : Filter) (arguments : List Value) :
    Follows a v s depth (fun _ => True) (call f arguments) (call f arguments) :=
  fun _ _ htwin hquiet => htwin.onValues (.refl _) (hquiet _ List.mem_cons_self) fun _ _ _ => trivial

theorem Follows.ifMissing {m m' : WatchM α} {f f' : α → WatchM β} {g g' : WatchM β}
    (hm : Follows a v s depth P m m') (hf : ∀ b, P b → Follows a v s depth Q (f b) (f' b))
    (hg : Follows a v s depth Q g g') : Follows a v s depth Q (ifMissing m f g) (ifMissing m' f' g') := by
  intro w z htwin hquiet
  rw [entries_ifMissing] at hquiet
  obtain ⟨hquiet, hlater⟩ := List.forall_mem_append.mp hquiet
  have hboth := hm w z htwin hquiet
  rw [plain_ifMissing, plain_ifMissing]
  generalize m.plain w = r, m'.plain z = r' at hboth hlater
  cases hboth with
  | ok hb htwin' => exact hf _ hb _ _ htwin' hlater
  | @error e e' w' z' hclass htwin' =>
    cases e with
    | missing path segment =>
      cases e' with
      | missing path' segment' => exact hg _ _ htwin' hlater
      | _ => cases hclass
    | _ =>
      obtain rfl := hclass
      exact .error (.refl _) htwin'

theorem Follows.withScope {m m' : WatchM α} (hm : Follows a v s (depth + 1) P m m') {scope : Scope}
    (hscope : a.Spared scope) : Follows a v s depth P (withScope scope m) (withScope scope m') := by
  intro w z htwin hquiet
  have hboth := hm _ _ (htwin.push hscope) hquiet
  rw [plain_withScope, plain_withScope, RenderM.withScope, RenderM.withScope]
  generalize m.plain { w with context := w.context.push scope } = r,
    m'.plain { z with context := z.context.push scope } = r' at hboth
  cases hboth with
  | ok hb htwin' => exact .ok hb htwin'.pop
  | error hclass htwin' => exact .error hclass htwin'.pop

end Combining

/-! ## Expressions -/

section Expressions

variable {a : Alias} {v : Value} {s : RenderState} {depth : Nat}

/-- Two operands that come down to the same operations on values lead to the same value in both runs. -/
theorem Twin.resolve {w z : RenderState} (htwin : Twin a v s depth w z) {o o' : Operand} {m m' : EvalM Value}
    (hw : o.resolve w = RenderM.onValues m w) (hz : o'.resolve z = RenderM.onValues m' z) (hm : Alike m m')
    (huntouched : w.store.Untouched (o.resolve.storeAfter w)) :
    TwinOutcome a v s depth (fun _ => True) (o.resolve w) (o'.resolve z) := by
  rw [RenderM.storeAfter, hw, ← RenderM.storeAfter.eq_1, RenderM.storeAfter_onValues] at huntouched
  rw [hw, hz]
  exact htwin.onValues hm huntouched fun _ _ _ => trivial

variable (hnames : a.Names v s)
include hnames

/-- An operand leads to the same value in both runs. One that starts with the alias goes on from its value, which is
where the written out path leads as well. -/
theorem Operand.lookup_follows (o : Operand) :
    Follows a v s depth (fun _ => True) (lookup o) (lookup (o.expand a)) := by
  intro w z htwin hquiet
  have horders : (o.resolve.storeAfter w).orders = w.store.orders := hquiet ⟨w, .lookup o⟩ List.mem_cons_self
  have huntouched : w.store.Untouched (o.resolve.storeAfter w) := ⟨horders, o.resolve_fresh_le w⟩
  rw [plain_lookup, plain_lookup, expand]
  cases hmeaning : o.meaning with
  | literal found =>
    have hpure (s : RenderState) : o.resolve s = RenderM.onValues (pure found) s := by
      rw [resolve, hmeaning]
      rfl
    exact htwin.resolve (hpure w) (hpure z) (.refl _) huntouched
  | path first rest =>
    have hw := resolve_path hmeaning w
    dsimp only
    by_cases hfirst : first = a.name
    · rw [if_pos hfirst]
      have hpath : a.operand.meaning = .path a.first a.rest := by simp [Alias.operand, Alias.longer]
      rw [hfirst, htwin.get?_name] at hw
      simp only [Value.called_eq_pure hnames.notFunction, pure_bind] at hw
      have hz : (a.longer rest).resolve z = RenderM.onValues (follow (a.longer rest).source v rest) z :=
        resolve_longer hpath hnames.resolves rfl htwin.get?_first
          (htwin.store_eq ▸ htwin.untouched.orders_eq)
      exact htwin.resolve hw hz (follow_alike _ _ v rest) huntouched
    · rw [if_neg hfirst]
      have hz := resolve_path hmeaning z
      rw [htwin.get?_eq hfirst] at hz
      cases hstart : w.context.get? first with
      | none =>
        rw [hstart] at hw hz
        have hfails (s : RenderState) : EStateM.Result.error (.missing o.source first) s =
            RenderM.onValues (throw (.missing o.source first) : EvalM Value) s := rfl
        exact htwin.resolve (hw.trans (hfails w)) (hz.trans (hfails z)) (.refl _) huntouched
      | some start =>
        rw [hstart] at hw hz
        exact htwin.resolve hw hz (.refl _) huntouched

theorem FilterCall.watch_follows (c : FilterCall) (found : Value) :
    Follows a v s depth (fun _ => True) (c.watch found) ((c.expand a).watch found) := by
  rw [watch, watch, expand]
  cases c.argument with
  | none => exact follows_call c.filter [found]
  | some o => exact (o.lookup_follows hnames).bind fun argument _ => follows_call c.filter [found, argument]

theorem FilterCall.watchAll_follows (calls : List FilterCall) (found : Value) :
    Follows a v s depth (fun _ => True) (watchAll calls found) (watchAll (calls.map (·.expand a)) found) := by
  induction calls generalizing found with
  | nil => exact follows_pure trivial
  | cons c rest ih => exact (c.watch_follows hnames found).bind fun next _ => ih next

namespace Expression

theorem watch_follows (e : Expression) (onMissing : OnMissing) :
    Follows a v s depth (fun _ => True) (e.watch onMissing) ((e.expand a).watch onMissing) := by
  have hcalls (found : Value) : Follows a v s depth (fun _ => True) (FilterCall.watchAll e.calls found)
      (FilterCall.watchAll (e.calls.map (·.expand a)) found) :=
    FilterCall.watchAll_follows hnames e.calls found
  refine (e.operand.lookup_follows hnames).ifMissing (fun found _ => hcalls found) ?_
  cases onMissing with
  | ignore => exact hcalls .none
  | substitute =>
    refine Follows.get fun w z htwin => ?_
    rw [htwin.ifInvalid_eq]
    split
    · exact hcalls (.text "")
    · exact follows_pure trivial

theorem watchRender_follows (e : Expression) :
    Follows a v s depth (fun _ => True) e.watchRender (e.expand a).watchRender :=
  (e.watch_follows hnames .substitute).bind fun found _ => follows_calm found.write_calm

end Expression

theorem Condition.watch_follows (c : Condition) :
    Follows a v s depth (fun _ => True) c.watch (c.expand a).watch := by
  induction c with
  | operand e =>
    refine (e.watch_follows hnames .ignore).bind fun found _ => Follows.get fun w z htwin => ?_
    rw [htwin.store_eq]
    exact follows_pure trivial
  | comparison left op right =>
    exact (left.watch_follows hnames .ignore).bind fun found _ =>
      (right.watch_follows hnames .ignore).bind fun found' _ => follows_calm (op.holds_calm found found')
  | group inside ih => exact ih
  | not inside ih => exact ih.bind fun _ _ => follows_pure trivial
  | and left right ihleft ihright =>
    refine ihleft.bind fun holds _ => ?_
    cases holds
    · exact follows_pure trivial
    · exact ihright
  | or left right ihleft ihright =>
    refine ihleft.bind fun holds _ => ?_
    cases holds
    · exact ihright
    · exact follows_pure trivial

end Expressions

end TextTemplate
