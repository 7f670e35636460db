import TextTemplate.Proofs.Compile.Journal
import TextTemplate.Proofs.Tag.Conduct

/-!
# What a journal accounts for

The loads in a journal are those of the `load` tags in it, each tag followed by what it loads from left to right,
unless a tag of a host loads libraries of its own. And the filter calls in an answer are made with the filters
that the journal shows to have been handed out. Both are carried together through scripts, calls, blocks and
bodies.
-/

namespace TextTemplate

/-! ## The loads of tags -/

/-- The journal of loading libraries one after the other, up to the first that cannot be loaded. -/
def loadEntries (env : Environment) : (active : List Nat) → List String → List Entry
  | _, [] => []
  | active, name :: rest =>
    ⟨active, .load name (env.find name)⟩ :: match env.find name with
      | .ok number => loadEntries env (active.filter (· != number) ++ [number]) rest
      | .error _ => []

/-- What a tag loads: if it is `load`, the libraries that it names, from left to right. -/
def TagRole.loads (env : Environment) (active : List Nat) (content : String) : TagRole → List Entry
  | standard d => if d = .load then loadEntries env active ((Text.words content.toList).map String.ofList) else []
  | host _ => []

namespace Entry

def isLoad (e : Entry) : Bool :=
  match e.inquiry with
  | .load .. => true
  | _ => false

/-- What the tag loads that was dispatched or called. -/
def loads (env : Environment) (roles : TagRoles) (e : Entry) : List Entry :=
  match e.inquiry with
  | .tag t (some (number, _)) => (roles number t.tagName).loads env e.active t.tagContent
  | .call name content (some (number, _)) => (roles number name).loads env e.active content
  | _ => []

/-- The filters that were handed out have the property, in whatever call they stand. -/
def Gives (P : FilterCall → Prop) (e : Entry) : Prop :=
  match e.inquiry with
  | .variable _ filters | .header filters => filters.Gives P
  | _ => True

end Entry

/-- The loads in a journal are those of the tags in it, each right after its tag. -/
def LoadsAsTagged (env : Environment) (roles : TagRoles) (entries : List Entry) : Prop :=
  entries = (entries.filter (!·.isLoad)).flatMap fun e => e :: e.loads env roles

section Loads

variable {env : Environment} {roles : TagRoles}

theorem loadsAsTagged_nil : LoadsAsTagged env roles [] := rfl

theorem LoadsAsTagged.append {l l' : List Entry} (h : LoadsAsTagged env roles l)
    (h' : LoadsAsTagged env roles l') : LoadsAsTagged env roles (l ++ l') := by
  rw [LoadsAsTagged, List.filter_append, List.flatMap_append, ← h, ← h']

theorem loadEntries_isLoad (active : List Nat) (names : List String) :
    ∀ e ∈ loadEntries env active names, e.isLoad = true := by
  induction names generalizing active with
  | nil => exact List.forall_mem_nil _
  | cons name rest ih =>
    refine List.forall_mem_cons.mpr ⟨rfl, ?_⟩
    cases env.find name with
    | ok number => exact ih _
    | error reason => exact List.forall_mem_nil _

theorem TagRole.loads_isLoad (role : TagRole) (active : List Nat) (content : String) :
    ∀ e ∈ role.loads env active content, e.isLoad = true := by
  cases role with
  | standard d =>
    rw [TagRole.loads]
    split
    · exact loadEntries_isLoad _ _
    · exact List.forall_mem_nil _
  | host script => exact List.forall_mem_nil _

theorem Entry.loads_isLoad (e : Entry) : ∀ e' ∈ e.loads env roles, e'.isLoad = true := by
  unfold Entry.loads
  split
  · exact TagRole.loads_isLoad _ _ _
  · exact TagRole.loads_isLoad _ _ _
  · exact List.forall_mem_nil _

/-- An inquiry with the loads that it leads to, in front of a journal. -/
theorem LoadsAsTagged.cons {e : Entry} {rest : List Entry} (he : e.isLoad = false)
    (hrest : LoadsAsTagged env roles rest) : LoadsAsTagged env roles (e :: (e.loads env roles ++ rest)) := by
  have hnone : (e.loads env roles).filter (!·.isLoad) = [] :=
    List.filter_eq_nil_iff.mpr fun e' he' => by simp [e.loads_isLoad e' he']
  rw [LoadsAsTagged, List.filter_cons_of_pos (by simp [he]), List.filter_append, hnone, List.nil_append,
    List.flatMap_cons, ← hrest, List.cons_append]

end Loads

/-! ## What computations account for -/

/-- A computation accounts for its journal, if the filters in it have the property: if it may not load, the
loads are those of `load` tags, and its answer is as described. -/
def Accounts (env : Environment) (roles : TagRoles) (mayLoad : Bool) (P : FilterCall → Prop) {α : Type}
    (Q : α → Prop) (m : JournalM α) (s : Session) : Prop :=
  (∀ e ∈ m.entries s, e.Gives P) →
    (mayLoad = false → LoadsAsTagged env roles (m.entries s)) ∧ ∀ a s', m.plain s = .ok a s' → Q a

section Accounting

open CompileM JournalM

variable {env : Environment} {roles : TagRoles} {mayLoad : Bool} {P : FilterCall → Prop} {α β : Type}
  {Q : α → Prop} {m : JournalM α} {s : Session}

theorem Accounts.bind {f : α → JournalM β} {Q' : β → Prop} (hm : Accounts env roles mayLoad P Q m s)
    (hf : ∀ a s', Q a → Accounts env roles mayLoad P Q' (f a) s') :
    Accounts env roles mayLoad P Q' (m >>= f) s := by
  intro hgives
  rw [entries_bind] at hgives ⊢
  rw [plain_bind]
  obtain ⟨hloads, hanswer⟩ := hm fun e he => hgives e (List.mem_append_left _ he)
  cases hrun : m.plain s with
  | error e s' =>
    rw [List.append_nil]
    exact ⟨hloads, nofun⟩
  | ok a s' =>
    rw [hrun] at hgives
    obtain ⟨hloads', hanswer'⟩ := hf a s' (hanswer a s' hrun) fun e he => hgives e (List.mem_append_right _ he)
    exact ⟨fun hmay => (hloads hmay).append (hloads' hmay), hanswer'⟩

/-- What is described of the answers does not depend on the loads. -/
theorem Accounts.relax (h : Accounts env roles mayLoad P Q m s) : Accounts env roles true P Q m s :=
  fun hgives => ⟨nofun, (h hgives).2⟩

theorem accounts_quietly {m : CompileM α} : Accounts env roles mayLoad P (fun _ => True) (quietly m) s :=
  fun _ => ⟨fun _ => loadsAsTagged_nil, fun _ _ _ => trivial⟩

theorem accounts_pure {a : α} (h : Q a) : Accounts env roles mayLoad P Q (pure a) s := by
  refine fun _ => ⟨fun _ => loadsAsTagged_nil, fun a' s' hrun => ?_⟩
  cases hrun
  exact h

theorem accounts_throw (e : CompileError) : Accounts env roles mayLoad P Q (quietly (throw e)) s :=
  fun _ => ⟨fun _ => loadsAsTagged_nil, nofun⟩

theorem Accounts.of_run {n : JournalM α} (h : Accounts env roles mayLoad P Q n s) (hrun : m s = n s) :
    Accounts env roles mayLoad P Q m s := by
  rw [Accounts, JournalM.entries, JournalM.plain, hrun]
  exact h

/-- An inquiry that leads to no load. -/
theorem Accounts.note {inquiry : Inquiry} {n : JournalM α}
    (hn : (∀ e ∈ [(⟨s.active, inquiry⟩ : Entry)], e.Gives P) → Accounts env roles mayLoad P Q n s)
    (hload : (⟨s.active, inquiry⟩ : Entry).isLoad = false)
    (hloads : (⟨s.active, inquiry⟩ : Entry).loads env roles = []) :
    Accounts env roles mayLoad P Q (do JournalM.note inquiry; n) s := by
  have hentries : (do JournalM.note inquiry; n : JournalM α).entries s = ⟨s.active, inquiry⟩ :: n.entries s := rfl
  intro hgives
  rw [hentries] at hgives ⊢
  obtain ⟨he, hrest⟩ := List.forall_mem_cons.mp hgives
  obtain ⟨hn, hanswer⟩ := hn (by simpa using he) hrest
  refine ⟨fun hmay => ?_, hanswer⟩
  have hcons := (hn hmay).cons hload
  rwa [hloads, List.nil_append] at hcons

variable {parse : List String → JournalM (List Node)} {call : String → String → JournalM (Option Node)}

/-- The filter calls of all nodes have the property. -/
abbrev AllGiven (P : FilterCall → Prop) (nodes : List Node) : Prop := ∀ c ∈ Node.allCalls nodes, P c

/-- The filter calls of a node, if there is one, have the property. -/
abbrev NodeGiven (P : FilterCall → Prop) (node : Option Node) : Prop := AllGiven P node.toList

theorem request_accounts (hparse : ∀ stop s, Accounts env roles mayLoad P (AllGiven P) (parse stop) s)
    (hcall : ∀ name content s, Accounts env roles mayLoad P (NodeGiven P) (call name content) s)
    (r : Request α) (hr : r.isLoad = true → mayLoad = true) (s : Session) :
    Accounts env roles mayLoad P (r.Gives P) (r.journal env parse call) s := by
  cases r with
  | next | hasNext | prepend | skipPast | rounds | currentToken => exact accounts_quietly
  | parse stop => exact hparse stop s
  | load name =>
    intro _
    refine ⟨fun hmay => ?_, fun _ _ _ => trivial⟩
    rw [hr rfl] at hmay
    cases hmay
  | filters =>
    intro hgives
    refine ⟨fun _ => rfl, fun a s' hrun => ?_⟩
    obtain rfl : env.filterLookup s.active = a := (EStateM.Result.ok.inj hrun).1
    exact hgives ⟨s.active, .header (env.filterLookup s.active)⟩ (List.mem_singleton_self _)
  | callTag name content => exact hcall name content s

theorem Accounts.attempt (h : Accounts env roles mayLoad P Q m s) :
    Accounts env roles mayLoad P (fun result => ∀ a, result = .ok a → Q a) (JournalM.attempt m) s := by
  intro hgives
  obtain ⟨hloads, hanswer⟩ := h hgives
  refine ⟨hloads, fun result s' hrun a ha => ?_⟩
  subst ha
  rw [JournalM.plain, JournalM.attempt, CompileM.attempt] at hrun
  cases hm : m.plain s with
  | ok a' s₁ =>
    rw [hm] at hrun
    cases hrun
    exact hanswer a s' hm
  | error e s₁ =>
    rw [hm] at hrun
    cases hrun

/-- A script accounts for what it does, if it keeps to what it may do. -/
theorem script_accounts (hparse : ∀ stop s, Accounts env roles mayLoad P (AllGiven P) (parse stop) s)
    (hcall : ∀ name content s, Accounts env roles mayLoad P (NodeGiven P) (call name content) s)
    {script : TagScript} (hscript : script.KeepsTo mayLoad P) (s : Session) :
    Accounts env roles mayLoad P (NodeGiven P) (script.journal env parse call) s := by
  induction script generalizing s with
  | done node => exact accounts_pure hscript
  | raise e => exact accounts_throw e
  | ask r continuation ih =>
    exact (request_accounts hparse hcall r hscript.1 s).bind fun a s' ha => ih a (hscript.2 a ha) s'
  | attempt r continuation ih =>
    refine (request_accounts hparse hcall r hscript.1 s).attempt.bind fun result s' hresult => ?_
    cases result with
    | ok a => exact ih _ (hscript.2.1 a (hresult a rfl)) s'
    | error e => exact ih _ (hscript.2.2 e) s'

/-- The script of `load` makes the loads that its names ask for. -/
theorem loadAll_entries (names : List String) (s : Session) :
    ((TagScript.loadAll names).journal env parse call).entries s = loadEntries env s.active names := by
  induction names generalizing s with
  | nil => rfl
  | cons name rest ih =>
    rw [TagScript.loadAll, TagScript.journal, entries_bind, loadEntries]
    have hentries : ((Request.load name).journal env parse call).entries s =
        [⟨s.active, .load name (env.find name)⟩] := rfl
    have hplain : ((Request.load name).journal env parse call).plain s = env.load name s := rfl
    rw [hentries, hplain, List.singleton_append, Environment.load]
    cases env.find name with
    | error reason => rfl
    | ok number => exact congrArg _ (ih _)

/-- What the tags of a host do besides reading: they load only if they may, and place only calls that they are
given. -/
def TagRoles.HostsKeepTo (roles : TagRoles) (mayLoad : Bool) (P : FilterCall → Prop) : Prop :=
  ∀ number name script, roles number name = .host script → ∀ content, (script content).KeepsTo mayLoad P

/-- A tag first makes the loads that it is known for; for the others it asks other tags. -/
def AccountsFor (env : Environment) (roles : TagRoles) (mayLoad : Bool) (P : FilterCall → Prop)
    (loads : List Entry) (m : JournalM (Option Node)) (s : Session) : Prop :=
  (∀ e ∈ m.entries s, e.Gives P) →
    (mayLoad = false → ∃ rest, LoadsAsTagged env roles rest ∧ m.entries s = loads ++ rest) ∧
      ∀ node s', m.plain s = .ok node s' → NodeGiven P node

theorem AccountsFor.withOpenTag {t : Token} {loads : List Entry} {m : JournalM (Option Node)}
    (h : AccountsFor env roles mayLoad P loads m { s with openTags := t :: s.openTags }) :
    AccountsFor env roles mayLoad P loads (JournalM.withOpenTag t m) s := by
  intro hgives
  obtain ⟨hloads, hanswer⟩ := h hgives
  refine ⟨hloads, fun node s' hrun => ?_⟩
  rw [JournalM.plain, JournalM.withOpenTag, CompileM.withOpenTag] at hrun
  cases hm : m.plain { s with openTags := t :: s.openTags } with
  | ok node' s₁ =>
    rw [hm] at hrun
    cases hrun
    exact hanswer node s₁ hm
  | error e s₁ =>
    rw [hm] at hrun
    cases hrun

/-- A tag with its role. -/
theorem role_accounts (hparse : ∀ stop s, Accounts env roles mayLoad P (AllGiven P) (parse stop) s)
    (hcall : ∀ name content s, Accounts env roles mayLoad P (NodeGiven P) (call name content) s)
    {role : TagRole} (hrole : ∀ script, role = .host script → ∀ content, (script content).KeepsTo mayLoad P)
    (content : String) (s : Session) :
    AccountsFor env roles mayLoad P (role.loads env s.active content)
      ((role.script content).journal env parse call) s := by
  have hplain {script : TagScript} (hscript : script.KeepsTo mayLoad P) :
      AccountsFor env roles mayLoad P [] (script.journal env parse call) s := by
    intro hgives
    obtain ⟨hloads, hanswer⟩ := script_accounts hparse hcall hscript s hgives
    exact ⟨fun hmay => ⟨_, hloads hmay, rfl⟩, hanswer⟩
  cases role with
  | host script => exact hplain (hrole script rfl content)
  | standard d =>
    rw [TagRole.loads]
    by_cases hd : d = .load
    · subst hd
      rw [if_pos rfl]
      -- `load` alone loads even where other tags may not; its filter calls are those of any tag
      have hscript : (Directive.load.script content).KeepsTo true P := Directive.load.script_places content
      have hanswer := script_accounts (fun stop s => (hparse stop s).relax)
        (fun name content s => (hcall name content s).relax) hscript s
      refine fun hgives => ⟨fun _ => ⟨[], loadsAsTagged_nil, ?_⟩, (hanswer hgives).2⟩
      rw [List.append_nil, TagRole.script, Directive.script]
      split
      · rename_i hnames
        rw [List.isEmpty_iff.mp hnames]
        rfl
      · exact loadAll_entries _ s
    · rw [if_neg hd]
      exact hplain (d.script_keepsTo hd content).mono

/-- An inquiry after a tag, and what the tag does then. -/
theorem AccountsFor.dispatch (inquiry : Inquiry) {m : JournalM (Option Node)} {loads : List Entry}
    (hm : AccountsFor env roles mayLoad P loads m s) (hload : (⟨s.active, inquiry⟩ : Entry).isLoad = false)
    (hloads : (⟨s.active, inquiry⟩ : Entry).loads env roles = loads) :
    Accounts env roles mayLoad P (NodeGiven P) (do JournalM.note inquiry; m) s := by
  have hentries : (do JournalM.note inquiry; m : JournalM (Option Node)).entries s =
      ⟨s.active, inquiry⟩ :: m.entries s := rfl
  intro hgives
  rw [hentries] at hgives ⊢
  obtain ⟨hrest, hanswer⟩ := hm fun e he => hgives e (List.mem_cons_of_mem _ he)
  refine ⟨fun hmay => ?_, hanswer⟩
  obtain ⟨rest, hrest, hsplit⟩ := hrest hmay
  rw [hsplit, ← hloads]
  exact hrest.cons hload

theorem call_accounts (hroles : roles.HostsKeepTo mayLoad P)
    (hparse : ∀ stop s, Accounts env roles mayLoad P (AllGiven P) (parse stop) s) (calls : Nat)
    (name content : String) (s : Session) :
    Accounts env roles mayLoad P (NodeGiven P)
      (env.journalCall roles parse calls name content) s := by
  induction calls generalizing name content s with
  | zero => exact accounts_throw _
  | succ calls ih =>
    cases howner : env.owner? s.active name with
    | none =>
      have hfail : Accounts env roles mayLoad P (NodeGiven P)
          (do JournalM.note (.call name content none); quietly (fail (.unknownTag name []))) s :=
        Accounts.note (fun _ => accounts_throw _) rfl rfl
      refine hfail.of_run ?_
      rw [Environment.journalCall, active_bind, howner]
    | some found =>
      obtain ⟨number, factory⟩ := found
      have htag := role_accounts hparse ih (hroles number name) content s
      refine Accounts.of_run (AccountsFor.dispatch (.call name content (some (number, factory))) htag rfl rfl) ?_
      rw [Environment.journalCall, active_bind, howner]

theorem block_accounts (hroles : roles.HostsKeepTo mayLoad P)
    {inner : Option (List String → JournalM (List Node))}
    (hinner : ∀ parse, inner = some parse → ∀ stop s, Accounts env roles mayLoad P (AllGiven P) (parse stop) s)
    (t : Token) (stop : List String) (s : Session) :
    Accounts env roles mayLoad P (NodeGiven P) (env.journalBlock roles inner t stop) s := by
  cases howner : env.owner? s.active t.tagName with
  | none =>
    have hfail : Accounts env roles mayLoad P (NodeGiven P)
        (do JournalM.note (.tag t none); quietly (throw ⟨.unknownTag t.tagName stop, some t.line⟩)) s :=
      Accounts.note (fun _ => accounts_throw _) rfl rfl
    refine hfail.of_run ?_
    rw [Environment.journalBlock, active_bind, howner]
  | some found =>
    obtain ⟨number, factory⟩ := found
    cases inner with
    | none =>
      refine (accounts_throw ⟨.tooManyOpenTags Environment.maxOpenTags, some t.line⟩).of_run ?_
      rw [Environment.journalBlock, active_bind, howner]
    | some parse =>
      have hparse := hinner parse rfl
      have htag := role_accounts hparse (call_accounts hroles hparse t.content.length) (hroles number t.tagName)
        t.tagContent { s with openTags := t :: s.openTags }
      refine Accounts.of_run (AccountsFor.dispatch (.tag t (some (number, factory))) htag.withOpenTag rfl rfl) ?_
      rw [Environment.journalBlock, active_bind, howner]

theorem variable_accounts (t : Token) (s : Session) :
    Accounts env roles mayLoad P (fun e => ∀ c ∈ e.calls, P c) (env.journalVariable t) s := by
  have hnoted : Accounts env roles mayLoad P (fun e => ∀ c ∈ e.calls, P c)
      (do JournalM.note (.variable t (env.filterLookup s.active)); quietly (env.compileVariable t)) s := by
    refine Accounts.note (fun hgives _ => ⟨fun _ => loadsAsTagged_nil, fun e s' hrun => ?_⟩) rfl rfl
    have hlookup : (env.filterLookup s.active).Gives P := hgives _ (List.mem_singleton_self _)
    have hcompile : env.compileVariable t s = .ok e s' := hrun
    rw [Environment.compileVariable, run_bind_get, atLine, CompileM.ofResult_run] at hcompile
    cases he : Pipeline.compile (env.filterLookup s.active) t.content with
    | ok e' =>
      rw [he] at hcompile
      cases hcompile
      exact Pipeline.compile_gives hlookup he
    | error e' =>
      rw [he] at hcompile
      cases hcompile
  exact hnoted.of_run rfl

theorem within_accounts (hroles : roles.HostsKeepTo mayLoad P)
    {inner : Option (List String → JournalM (List Node))}
    (hinner : ∀ parse, inner = some parse → ∀ stop s, Accounts env roles mayLoad P (AllGiven P) (parse stop) s)
    (stop : List String) (n : Nat) (s : Session) :
    Accounts env roles mayLoad P (AllGiven P) (env.journalWithin roles inner stop n) s := by
  induction n generalizing s with
  | zero => exact accounts_throw _
  | succ n ih =>
    refine accounts_quietly.bind fun more s₁ _ => ?_
    split
    · refine accounts_quietly.bind fun t s₂ _ => ?_
      split
      · refine (ih s₂).bind fun nodes s₃ hnodes => accounts_pure ?_
        rw [AllGiven, Node.allCalls, Node.calls, List.nil_append]
        exact hnodes
      · split
        · exact accounts_throw _
        · refine (variable_accounts t s₂).bind fun e s₃ he => (ih s₃).bind fun nodes s₄ hnodes => accounts_pure ?_
          rw [AllGiven, Node.allCalls, Node.calls]
          exact List.forall_mem_append.mpr ⟨he, hnodes⟩
      · exact ih s₂
      · split
        · exact accounts_throw _
        · split
          · exact accounts_quietly.bind fun _ _ _ => accounts_pure (List.forall_mem_nil _)
          · refine (block_accounts hroles hinner t stop s₂).bind fun node s₃ hnode =>
              (ih s₃).bind fun nodes s₄ hnodes => accounts_pure ?_
            rw [AllGiven, Node.allCalls_append]
            exact List.forall_mem_append.mpr ⟨hnode, hnodes⟩
    · split
      · exact accounts_pure (List.forall_mem_nil _)
      · refine fun _ => ⟨fun _ => loadsAsTagged_nil, fun _ _ hrun => ?_⟩
        cases hrun

theorem at_accounts (hroles : roles.HostsKeepTo mayLoad P) (room : Nat) (stop : List String) (s : Session) :
    Accounts env roles mayLoad P (AllGiven P) (env.journalAt roles room stop) s := by
  induction room generalizing stop s with
  | zero => exact accounts_quietly.bind fun n s' _ => within_accounts hroles (by simp) stop n s'
  | succ room ih =>
    refine accounts_quietly.bind fun n s' _ => within_accounts hroles (fun parse hparse => ?_) stop n s'
    obtain rfl : env.journalAt roles room = parse := Option.some.inj hparse
    exact ih

end Accounting

end TextTemplate
