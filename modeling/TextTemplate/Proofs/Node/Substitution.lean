import TextTemplate.Proofs.Node.Scopes
import TextTemplate.Proofs.Node.Twin
import TextTemplate.Proofs.Node.WellFormed

/-!
# Writing out the path of a name

A `with` tag that gives a name to a lookup path can be taken away: its body with the path written out renders the
same text. For this the path must lead to the very same value each time, the body must not take the name or the start
of the path for something else, and nothing in the body may change a list or a mapping.
-/

namespace TextTemplate

open WatchM

variable {a : Alias} {v : Value} {s : RenderState}

/-! ## Loops -/

namespace Loop

theorem assignAll_follows {depth : Nat} (found : List (String × Value)) (hfree : a.FreeOf (found.map (·.1))) :
    Follows a v s (depth + 1) (fun _ => True) (quietly (assignAll found)) (quietly (assignAll found)) := by
  induction found with
  | nil => exact follows_pure trivial
  | cons e rest ih =>
    obtain ⟨hfirst, hrest⟩ := Alias.FreeOf.cons hfree
    have hassign : Follows a v s (depth + 1) (fun _ => True)
        (quietly (modify fun s => { s with context := s.context.assign e.1 e.2 }))
        (quietly (modify fun s => { s with context := s.context.assign e.1 e.2 })) :=
      fun _ _ htwin _ => .ok trivial (htwin.assign hfirst e.2)
    rw [assignAll, quietly_bind]
    exact hassign.bind fun _ _ => ih hrest

theorem bind_follows {depth : Nat} (names : List String) (hfree : a.FreeOf names) (item : Value) :
    Follows a v s (depth + 1) (fun _ => True) (quietly (bind names item)) (quietly (bind names item)) := by
  unfold bind
  split
  · exact assignAll_follows [_] hfree
  · rw [quietly_bind]
    refine (follows_calm (parts_calm item)).bind fun values _ => ?_
    split
    · rename_i hlength
      have hkeys : (names.zip values).map (·.1) = names :=
        List.map_fst_zip (Nat.le_of_eq (beq_iff_eq.mp hlength).symm)
      exact assignAll_follows _ (hkeys.symm ▸ hfree)
    · exact follows_throw _

section Rounds

variable (hsound : s.store.Sound) {id : Ident} (hid : s.store.fresh ≤ id)
include hsound hid

/-- Nothing was taken out of `forloop`, so nothing is put back. -/
theorem restore_follows {depth : Nat} :
    Follows a v s depth (fun _ => True) (quietly (modify fun s => { s with store := restore id s.store }))
      (quietly (modify fun s => { s with store := restore id s.store })) := by
  intro w z htwin _
  have hnone : w.store.orders.lookup id = none := htwin.untouched.orders_eq ▸ hsound.lookup_eq_none hid
  have hrestore : restore id w.store = w.store := by rw [restore, hnone]
  refine .ok trivial ?_
  dsimp only
  rw [htwin.store_eq, hrestore]
  exact htwin.withStore (.refl _)

variable {names : List String} (hfree : a.FreeOf ("forloop" :: names)) {body body' : WatchM String} {depth : Nat}
  (hbody : Follows a v s (depth + 1) (fun _ => True) body body')
include hfree hbody

theorem watchRound_follows (parent : Value) (length index : Nat) (item : Value) :
    Follows a v s (depth + 1) (fun _ => True) (watchRound names id parent length body index item)
      (watchRound names id parent length body' index item) := by
  obtain ⟨hforloop, hnames⟩ := Alias.FreeOf.cons hfree
  have hbound : Follows a v s (depth + 1) (fun _ => True)
      (quietly do assignAll [("forloop", .mapping id (entries parent length index))]; bind names item)
      (quietly do assignAll [("forloop", .mapping id (entries parent length index))]; bind names item) := by
    rw [quietly_bind]
    exact (assignAll_follows [_] hforloop).bind fun _ _ => bind_follows names hnames item
  rw [watchRound, watchRound, quietly_bind]
  exact ((restore_follows hsound hid).bind fun _ _ => hbound).bind fun _ _ => hbody

/-- The rounds of a loop agree if its bodies do. -/
theorem watchRun_follows {source : Source} (hsource : source.IsCalm) (parent : Value) (length fuel index : Nat) :
    Follows a v s (depth + 1) (fun _ => True)
      (watchRun source.item? (watchRound names id parent length body) fuel index)
      (watchRun source.item? (watchRound names id parent length body') fuel index) := by
  induction fuel generalizing index with
  | zero => exact follows_pure trivial
  | succ fuel ih =>
    refine (follows_calm (hsource index)).bind fun found _ => ?_
    cases found with
    | none => exact follows_pure trivial
    | some item =>
      exact (watchRound_follows hsound hid hfree hbody parent length index item).bind fun _ _ =>
        (ih (index + 1)).bind fun _ _ => follows_pure trivial

end Rounds

variable {names : List String} (hfree : a.FreeOf ("forloop" :: names)) {body body' empty empty' : WatchM String}
  {depth : Nat} (hbody : Follows a v s (depth + 1) (fun _ => True) body body')
include hfree hbody

theorem watchItems_follows (hsound : s.store.Sound) {source : Source} (hsource : source.IsCalm) :
    Follows a v s depth (fun _ => True) (watchItems names source body) (watchItems names source body') := by
  have hfresh : Follows a v s depth (fun id => s.store.fresh ≤ id) (quietly (RenderM.onValues EvalM.freshIdent))
      (quietly (RenderM.onValues EvalM.freshIdent)) := by
    refine follows_values Calm.freshIdent.silent fun st id st' huntouched hrun => ?_
    cases hrun
    exact huntouched.fresh_le
  obtain ⟨hforloop, -⟩ := Alias.FreeOf.cons hfree
  refine hfresh.bind fun id hid => hfresh.bind fun outer _ => Follows.get fun w z htwin => ?_
  have hname : "forloop" ≠ a.name := fun h => hforloop.name (by rw [← h]; exact List.mem_cons_self)
  rw [htwin.get?_eq hname]
  refine (watchRun_follows hsound hid hfree hbody hsource _ _ _ 0).withScope ?_
  have hspared : a.Spared [] := ⟨rfl, rfl⟩
  exact hspared.put hforloop _

/-- Loops agree if their sequences, bodies and empty parts do. -/
theorem watch_follows (hnames : a.Names v s) (sequence : Expression) (reversed : Bool)
    (hempty : Follows a v s depth (fun _ => True) empty empty') :
    Follows a v s depth (fun _ => True) (watch names sequence reversed body empty)
      (watch names (sequence.expand a) reversed body' empty') := by
  refine (sequence.watch_follows hnames .ignore).bind fun found _ => ?_
  have hsource : Follows a v s depth Source.IsCalm (quietly (RenderM.onValues (source found)))
      (quietly (RenderM.onValues (source found))) :=
    follows_values (source_calm found).silent fun _ _ _ _ hrun => isCalm_of_source hrun
  refine hsource.bind fun source hcalm => ?_
  split
  · exact hempty
  split
  · exact follows_throw _
  split
  · exact watchItems_follows hfree hbody hnames.sound (Source.reverse_isCalm hcalm)
  · exact watchItems_follows hfree hbody hnames.sound hcalm

end Loop

/-! ## Nodes -/

namespace Node

section Follows

variable (hnames : a.Names v s)
include hnames

theorem watchAssignments_follows {depth : Nat} (assignments : List (String × Expression)) :
    Follows a v s depth (fun scope => scope.map (·.1) = assignments.map (·.1)) (watchAssignments assignments)
      (watchAssignments (assignments.map fun e => (e.1, e.2.expand a))) := by
  induction assignments with
  | nil => exact follows_pure rfl
  | cons e rest ih =>
    refine (e.2.watch_follows hnames .substitute).bind fun found _ => ih.bind fun scope hscope => ?_
    exact follows_pure (by rw [List.map_cons, List.map_cons, hscope])

theorem watchFirstTrue_follows {depth : Nat} (candidates : List Expression) :
    Follows a v s depth (fun _ => True) (watchFirstTrue candidates)
      (watchFirstTrue (candidates.map (·.expand a))) := by
  induction candidates with
  | nil => exact follows_pure trivial
  | cons e rest ih =>
    refine (e.watch_follows hnames .ignore).bind fun found _ => Follows.get fun w z htwin => ?_
    rw [htwin.store_eq]
    split
    · exact follows_calm found.write_calm
    · exact ih

theorem watchEqual_follows {depth : Nat} (left right : Expression) :
    Follows a v s depth (fun _ => True) (watchEqual left right) (watchEqual (left.expand a) (right.expand a)) :=
  (left.watch_follows hnames .ignore).bind fun found _ =>
    (right.watch_follows hnames .ignore).bind fun found' _ => follows_calm (found.isEqual_calm found')

end Follows

mutual

theorem watch_follows (hnames : a.Names v s) : (n : Node) → a.FreeOf n.binders → ∀ depth,
    Follows a v s depth (fun _ => True) n.watch (n.expand a).watch
  | text _, _, _ => follows_pure trivial
  | output e, _, _ => e.watchRender_follows hnames
  | choice branches otherwise, hfree, depth => by
    obtain ⟨hbranches, hotherwise⟩ := Alias.FreeOf.append hfree
    exact watchBranches_follows hnames branches hbranches (watchOption_follows hnames otherwise hotherwise depth)
  | loop names sequence reversed body empty, hfree, depth => by
    obtain ⟨hbinders, hinner⟩ := Alias.FreeOf.append hfree
    obtain ⟨hbody, hempty⟩ := hinner.append
    exact Loop.watch_follows hbinders (watchAll_follows hnames body hbody (depth + 1)) hnames sequence reversed
      (watchAll_follows hnames empty hempty depth)
  | binding assignments body, hfree, depth => by
    obtain ⟨hassigned, hbody⟩ := Alias.FreeOf.append hfree
    refine (watchAssignments_follows hnames assignments).bind fun scope hscope => ?_
    have hspared : a.Spared [] := ⟨rfl, rfl⟩
    exact (watchAll_follows hnames body hbody (depth + 1)).withScope (hspared.putAll (hscope ▸ hassigned))
  | equality negated left right whenTrue whenFalse, hfree, depth => by
    obtain ⟨htrue, hfalse⟩ := Alias.FreeOf.append hfree
    refine (watchEqual_follows hnames left right).bind fun equal _ => ?_
    split
    · exact watchAll_follows hnames whenTrue htrue depth
    · exact watchAll_follows hnames whenFalse hfalse depth
  | firstTrue candidates, _, _ => watchFirstTrue_follows hnames candidates
  | spaceless body, hfree, depth => (watchAll_follows hnames body hfree depth).bind fun _ _ => follows_pure trivial
  | filtered calls body, hfree, depth =>
    (watchAll_follows hnames body hfree depth).bind fun text _ =>
      (FilterCall.watchAll_follows hnames calls (.text text)).bind fun found _ => follows_calm found.write_calm
  | labelled _ body, hfree, depth => (watchAll_follows hnames body hfree depth).bind fun _ _ => follows_pure trivial
  | marker _, _, _ => follows_pure trivial

/-- A body agrees with the same body with the path written out. -/
theorem watchAll_follows (hnames : a.Names v s) : (nodes : List Node) → a.FreeOf (allBinders nodes) → ∀ depth,
    Follows a v s depth (fun _ => True) (watchAll nodes) (watchAll (expandAll a nodes))
  | [], _, _ => follows_pure trivial
  | n :: rest, hfree, depth => by
    obtain ⟨hfirst, hrest⟩ := Alias.FreeOf.append hfree
    exact (watch_follows hnames n hfirst depth).bind fun _ _ =>
      (watchAll_follows hnames rest hrest depth).bind fun _ _ => follows_pure trivial

theorem watchBranches_follows (hnames : a.Names v s) {depth : Nat} {otherwise otherwise' : WatchM String} :
    (branches : List (Condition × List Node)) → a.FreeOf (branchBinders branches) →
      Follows a v s depth (fun _ => True) otherwise otherwise' →
      Follows a v s depth (fun _ => True) (watchBranches otherwise branches)
        (watchBranches otherwise' (expandBranches a branches))
  | [], _, hotherwise => hotherwise
  | (condition, body) :: rest, hfree, hotherwise => by
    obtain ⟨hbody, hrest⟩ := Alias.FreeOf.append hfree
    refine (condition.watch_follows hnames).bind fun holds _ => ?_
    split
    · exact watchAll_follows hnames body hbody depth
    · exact watchBranches_follows hnames rest hrest hotherwise

theorem watchOption_follows (hnames : a.Names v s) : (otherwise : Option (List Node)) →
    a.FreeOf (optionBinders otherwise) → ∀ depth,
      Follows a v s depth (fun _ => True) (watchOption otherwise) (watchOption (expandOption a otherwise))
  | none, _, _ => follows_pure trivial
  | some body, hfree, depth => watchAll_follows hnames body hfree depth

end

/-- Filters that leave lists and mappings alone are all that a tree calls, if all its calls are of such filters. -/
theorem quiet_of_looksOnly {nodes : List Node} (hfilters : ∀ c ∈ allCalls nodes, c.filter.IsSilent)
    {s : RenderState} (hlookups : ∀ entry ∈ (watchAll nodes).entries s, entry.LooksOnly) :
    ∀ entry ∈ (watchAll nodes).entries s, entry.IsQuiet := by
  have hpermits : ∀ p ∈ allPipes nodes, p.Permits RenderEvent.IsSilent := by
    refine fun p hp => ⟨fun _ _ => trivial, fun c hc _ _ => hfilters c ?_⟩
    rw [allCalls_eq]
    exact List.mem_flatMap.mpr ⟨p, hp, hc⟩
  rintro ⟨state, event⟩ hentry
  have hevent := watchAll_asks nodes hpermits s _ hentry
  cases event with
  | lookup o => exact hlookups _ hentry
  | call f arguments => exact (Filter.IsSilent.call hevent arguments) state.store

theorem render_alias {v : Value} (hresolves : a.operand.resolve s = .ok v s) (body : List Node) :
    (binding [(a.name, a.expression)] body).render s = RenderM.withScope [(a.name, v)] (renderAll body) s := by
  have hvalue : a.expression.resolve .substitute s = .ok v s := by
    rw [Expression.resolve, Alias.expression, hresolves]
    rfl
  have hscope : resolveAll [(a.name, a.expression)] s = .ok [(a.name, v)] s := by
    rw [resolveAll, run_bind_ok hvalue]
    rfl
  rw [render, run_bind_ok hscope]
  rfl

/-- A binding that gives a name to a lookup path renders as its body with the path written out does: the same text,
or a failure of the same class, and the same state at the end. The path leads to a value that is no function, and
looking it up changes nothing, so it makes no new object either; the body takes neither the name nor the start of
the path for something else, and its lookups and filters change no list and no mapping. -/
theorem render_binding_alias (hnames : a.Names v s) {body : List Node} (hfree : a.FreeOf (allBinders body))
    (hfilters : ∀ c ∈ allCalls body, c.filter.IsSilent)
    (hlookups : ∀ entry ∈ (watchAll body).entries { s with context := s.context.push [(a.name, v)] },
      entry.LooksOnly) :
    SameOutcome ((binding [(a.name, a.expression)] body).render s) (renderAll (expandAll a body) s) := by
  have hboth := watchAll_follows hnames body hfree 0 _ _ (Twin.start a v s) (quiet_of_looksOnly hfilters hlookups)
  rw [plain_watchAll, plain_watchAll] at hboth
  rw [render_alias hnames.resolves, RenderM.withScope]
  generalize renderAll body { s with context := s.context.push [(a.name, v)] } = r,
    renderAll (expandAll a body) s = r' at hboth
  cases hboth with
  | ok _ htwin =>
    rw [← htwin.pop_eq]
    exact .ok _ _
  | error hclass htwin =>
    rw [← htwin.pop_eq]
    exact .error hclass _

/-- The tags of a user, one after the other, without the name of the user in them. -/
def userBody : List Node :=
  [.loop ["x"] ⟨"u.tags", ⟨"u.tags", .path "u" ["tags"]⟩, []⟩ false
    [.output ⟨"x|cut:u.name", ⟨"x", .path "x" []⟩,
      [⟨"cut", StandardFilter.ofPair StandardFilter.cut, some ⟨"u.name", .path "u" ["name"]⟩⟩]⟩] []]

/-- A name for the user of some data. -/
def userAlias : Alias := ⟨"u", "data", ["user"]⟩

def user : Value := .mapping 1 [(.text "name", .text "Ann"), (.text "tags", .list 2 [.text "Anna", .text "bAnn"])]

def userState : RenderState := ⟨.ofScope [("data", .mapping 0 [(.text "user", user)])] "", .empty 3⟩

/-- The user may be written out in a loop and in the argument of a filter. -/
theorem render_binding_alias_user : userAlias.Names user userState ∧ userAlias.FreeOf (allBinders userBody) ∧
    (∀ c ∈ allCalls userBody, c.filter.IsSilent) ∧
    (∀ entry ∈ (watchAll userBody).entries
      { userState with context := userState.context.push [(userAlias.name, user)] }, entry.LooksOnly) ∧
    SameOutcome ((binding [(userAlias.name, userAlias.expression)] userBody).render userState)
      (renderAll (expandAll userAlias userBody) userState) := by
  have hnames : userAlias.Names user userState := ⟨rfl, nofun, Store.sound_empty 3⟩
  have hfree : userAlias.FreeOf (allBinders userBody) := ⟨by decide, by decide⟩
  have hfilters : ∀ c ∈ allCalls userBody, c.filter.IsSilent := by
    refine List.forall_mem_singleton.mpr fun arguments => Calm.silent ?_
    exact StandardFilter.ofPair_isCalm StandardFilter.cut_calm arguments
  have hlookups : ∀ entry ∈ (watchAll userBody).entries
      { userState with context := userState.context.push [(userAlias.name, user)] }, entry.LooksOnly := by
    decide +kernel
  exact ⟨hnames, hfree, hfilters, hlookups, render_binding_alias hnames hfree hfilters hlookups⟩

/-- The text that is rendered, if there is one. -/
def text? (m : RenderM String) (s : RenderState) : Option String :=
  match m s with
  | .ok found _ => some found
  | .error _ _ => none

/-- A name for the values of a mapping, which are a new view each time the path is looked up. -/
def viewAlias : Alias := ⟨"n", "d", ["values"]⟩

def viewState : RenderState := ⟨.ofScope [("d", .mapping 0 [(.text "a", .int 1)])] "", .empty 1⟩

/-- A test whether `n` equals itself. -/
def viewBody : List Node :=
  let n : Expression := ⟨"n", ⟨"n", .path "n" []⟩, []⟩
  [.choice [(.comparison n .equal n, [.text "yes"])] (some [.text "no"])]

/-- A view is equal to itself and to no other view: under a name it is the same view in both places, and with the
path written out it is not. No lookup changes a list or a mapping, and no filter is called. -/
theorem render_alias_of_view : ∃ view s', viewAlias.operand.resolve viewState = .ok view s' ∧
    (∀ id shape result, view ≠ .hostFunction id shape result) ∧ viewState.store.Sound ∧
    viewAlias.FreeOf (allBinders viewBody) ∧ allCalls viewBody = [] ∧
    (∀ entry ∈ (watchAll viewBody).entries { s' with context := s'.context.push [(viewAlias.name, view)] },
      entry.LooksOnly) ∧
    (∀ entry ∈ (watchAll (expandAll viewAlias viewBody)).entries viewState, entry.LooksOnly) ∧
    text? (binding [(viewAlias.name, viewAlias.expression)] viewBody).render viewState = some "yes" ∧
    text? (renderAll (expandAll viewAlias viewBody)) viewState = some "no" :=
  ⟨_, _, rfl, nofun, Store.sound_empty 1, ⟨by decide, by decide⟩, rfl, by decide +kernel, by decide +kernel,
    by decide +kernel, by decide +kernel⟩

end Node

end TextTemplate
