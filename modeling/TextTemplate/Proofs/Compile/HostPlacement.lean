import TextTemplate.Proofs.Compile.Placement

/-!
# Failures in the tags of a host

What a tag of a host asks for is traced, and so is the script as a whole. A failure within it is placed
already, or the tag itself is where it comes from: then it has the line that the host gave it, or none yet.
-/

namespace TextTemplate

open CompileM

/-- A failure within a tag of the host that was called with the given tags open: it is placed, or comes from
the tag itself and has no line but one given by the host. -/
def CompileError.PlacedInHost (host : HostTags) (fault : Option CompileError) (tags : List Token) (s : Session)
    (e : CompileError) : Prop :=
  e.Placed host fault s ∨
    e.cause.isUserError = true ∧ s.openTags = tags ∧ (e.line = none ∨ host.Raises s.active e)

/-- The session `s` is within a tag of the host that was called in `s₀` and has `held` tokens in hand. -/
structure Session.Holding (s₀ s : Session) (held : Nat) : Prop where
  shorter : s.stream.unread.length + held ≤ s₀.stream.unread.length
  fault : s.stream.fault = s₀.stream.fault ∨ s.stream.fault = none
  active : s₀.active ⊆ s.active
  openTags : s.openTags = s₀.openTags

variable {env : Environment} {host : HostTags} {fault : Option CompileError} {s₀ s s' : Session} {held : Nat}

namespace Session

theorem Holding.refl (s : Session) : s.Holding s 0 := ⟨Nat.le_refl _, .inl rfl, List.Subset.refl _, rfl⟩

theorem Holding.later (h : s₀.Holding s held) : s₀.Later s where
  shorter := by
    have := h.shorter
    omega
  fault := h.fault
  active := h.active

/-- Going on costs no token in hand. -/
theorem Holding.trans (h : s₀.Holding s held) (hlater : s.Later s') (hopen : s'.openTags = s.openTags) :
    s₀.Holding s' held where
  shorter := by
    have := h.shorter
    have := hlater.shorter
    omega
  fault := (h.later.trans hlater).fault
  active := (h.later.trans hlater).active
  openTags := hopen.trans h.openTags

end Session

/-- A computation is traced, and its failures are placed as far as a tag of the host lets them. -/
def PlacesInHost (host : HostTags) (fault : Option CompileError) {α : Type} (m m' : CompileM α) (s : Session)
    (Q : α → Session → Prop) : Prop :=
  Traced m m' s Q fun e s' => s.Later s' ∧ e.PlacedInHost host fault s.openTags s'

/-- A tag that is called is traced, and its failures are placed as far as a tag of the host lets them. -/
abbrev PlacesCalled (host : HostTags) (fault : Option CompileError) (m m' : CompileM (Option Node)) (s : Session) :
    Prop :=
  PlacesInHost host fault m m' s fun _ s' => s.Later s'

/-- Tags can call others, and what they call is traced. -/
def PlacesCalls (env : Environment) (host : HostTags) (fault : Option CompileError)
    (parse parse' : List String → CompileM (List Node)) (calls : Nat) : Prop :=
  ∀ name content s, host.rank name content < calls → s.EndsIn fault → s.openTags ≠ [] →
    PlacesCalled host fault ((env.handleWith parse calls).callTag name content)
      ((env.handleWith parse' calls).callTag name content) s

theorem Places.placesInHost {α : Type} {m m' : CompileM α} {Q Q' : α → Session → Prop}
    (h : Places host fault m m' s Q) (hQ : ∀ a s', s.Later s' → s'.openTags = s.openTags → Q' a s') :
    PlacesInHost host fault m m' s Q' :=
  Traced.imp h (fun a s' hopen h => hQ a s' h.1 hopen) fun _ _ h => ⟨h.1, .inl h.2⟩

/-- The failures over a header that have no line yet get none from a tag of the host. -/
theorem PlacesTag.placesCalled {m m' : CompileM (Option Node)} (h : PlacesTag host fault m m' s) :
    PlacesCalled host fault m m' s := by
  refine Traced.imp h (fun _ _ _ h => h) fun e s' ⟨hlater, he⟩ => ⟨hlater, ?_⟩
  obtain hplaced | ⟨hunplaced, hopen, -⟩ := he
  · exact .inl hplaced
  · exact .inr ⟨CompileCause.isUserError_of_isOverContent hunplaced.overContent, hopen, .inl hunplaced.line_eq⟩

/-- A failure without a line that changes nothing. -/
theorem placesInHost_fail {α : Type} {m m' : CompileM α} {Q : α → Session → Prop} {cause : CompileCause}
    (hm : m s = .error (.ofCause cause) s) (hm' : m' s = .error (.ofCause cause) s)
    (huser : cause.isUserError = true) : PlacesInHost host fault m m' s Q :=
  traced_of_error hm hm' ⟨.refl s, .inr ⟨huser, rfl, .inl rfl⟩⟩

/-- What comes from a tag of the host gets the line of the tag if it has none. -/
theorem CompileError.PlacedInHost.atLine {t : Token} {outer : List Token} {e : CompileError}
    (h : e.PlacedInHost host fault (t :: outer) s) (hhas : host.Has s.active t.tagName) :
    (e.atLine t.line).Placed host fault s := by
  obtain hplaced | ⟨huser, hopen, hline⟩ := h
  · rwa [hplaced.atLine]
  · rcases e with ⟨cause, _ | l⟩
    · have hat : (CompileError.mk cause none).atLine t.line = ⟨cause, some t.line⟩ := by
        simp [CompileError.atLine, show cause.isUserError = true from huser]
      rw [hat]
      exact ⟨huser, rfl, .inr ⟨t, outer, hopen, hhas, .inl rfl⟩⟩
    · rw [CompileError.settled_of_line cause l t.line]
      exact ⟨huser, rfl, .inr ⟨t, outer, hopen, hhas, .inr (hline.resolve_left (Option.some_ne_none l))⟩⟩

/-! ## Requests -/

section Requests

variable (hscan : IsScanFailure fault) (hs₀ : s₀.EndsIn fault) (hheld : s₀.Holding s held)
include hheld

theorem prepend_placesInHost (t : Token) (hpos : 0 < held) :
    PlacesInHost host fault (prepend t) (prepend t) s fun _ s' => s₀.Holding s' (held - 1) := by
  refine traced_of_ok rfl rfl rfl ⟨?_, hheld.fault, hheld.active, hheld.openTags⟩
  have := hheld.shorter
  simp only [TokenStream.unread, List.length_append, List.length_cons] at this ⊢
  omega

theorem load_placesInHost (name : String) :
    PlacesInHost host fault (env.load name) (env.load name) s fun _ s' => s₀.Holding s' held := by
  obtain ⟨answer, active, hrun, hsub⟩ | ⟨reason, hrun⟩ := load_cases env name s
  · exact traced_of_ok hrun hrun rfl (hheld.trans ⟨Nat.le_refl _, .inl rfl, hsub⟩ rfl)
  · exact placesInHost_fail hrun hrun rfl

include hscan hs₀

theorem next_placesInHost : PlacesInHost host fault next next s fun _ s' => s₀.Holding s' (held + 1) := by
  obtain ⟨t, s', hrun, htook, hactive, -⟩ | ⟨e, s', hrun, hlater, hopen, he⟩ := next_cases s
  · have hholding := hheld.trans (htook.later hactive) htook.openTags_eq
    refine traced_of_ok hrun hrun htook.openTags_eq ⟨?_, hholding.fault, hholding.active, hholding.openTags⟩
    have := hheld.shorter
    simp only [htook.unread_eq, List.length_append, List.length_singleton] at this
    omega
  · refine .inr ⟨e, s', ?_, hrun, hlater, ?_⟩
    · rw [hrun, ← hopen]
    obtain hfault | rfl := he
    · exact .inl (CompileError.placed_of_fault hscan (hs₀.later hheld.later) hfault)
    · rw [TokenStream.endLine]
      split
      · exact .inr ⟨rfl, hopen, .inl rfl⟩
      · exact .inl (CompileError.placed_of_lastLine rfl rfl rfl)

theorem hasNext_placesInHost : PlacesInHost host fault hasNext hasNext s fun _ s' => s₀.Holding s' held := by
  obtain ⟨s', t, rest, hrun, htook, hactive, -⟩ | ⟨hrun, -⟩ | ⟨e, hrun, -, hfault⟩ := hasNext_cases s
  · exact traced_of_ok hrun hrun htook.openTags_eq (hheld.trans (htook.later hactive) htook.openTags_eq)
  · exact traced_of_ok hrun hrun rfl hheld
  · exact .inr ⟨e, _, hrun, hrun, later_faultless s,
      .inl (CompileError.placed_of_fault hscan (hs₀.later hheld.later) hfault)⟩

/-- Whatever a tag of the host asks for is traced, and costs it no token but those that it puts back. -/
theorem request_placesInHost {parse parse' : List String → CompileM (List Node)} {calls size : Nat}
    (hparse : PlacesBodies host fault parse parse') (hcalls : PlacesCalls env host fault parse parse' calls)
    (hsize : size ≤ calls) (hopen : s₀.openTags ≠ []) {α : Type} (r : Request α)
    (hfair : r.IsFair host.rank size held) :
    PlacesInHost host fault (r.run (env.handleWith parse calls)) (r.run (env.handleWith parse' calls)) s
      fun _ s' => s₀.Holding s' (r.heldAfter held) := by
  have hs : s.EndsIn fault := hs₀.later hheld.later
  have hopen' : s.openTags ≠ [] := hheld.openTags ▸ hopen
  have hload (parse : List String → CompileM (List Node)) : (env.handleWith parse calls).load = env.load := by
    cases calls <;> rfl
  cases r with
  | next => exact next_placesInHost hscan hs₀ hheld
  | hasNext => exact hasNext_placesInHost hscan hs₀ hheld
  | prepend t => exact prepend_placesInHost hheld t hfair
  | skipPast name => exact (places_skipPast hscan hs hopen' name).placesInHost fun _ _ hlater => hheld.trans hlater
  | rounds => exact traced_of_ok rfl rfl rfl hheld
  | currentToken =>
    obtain ⟨t, outer, ht⟩ := List.exists_cons_of_ne_nil hopen'
    exact traced_of_ok (currentToken_run ht) (currentToken_run ht) rfl hheld
  | parse stop =>
    simp only [Request.run, handleWith_parse]
    exact (hparse stop s hs (.inr hopen')).placesInHost fun _ _ hlater => hheld.trans hlater
  | load name =>
    simp only [Request.run, hload]
    exact load_placesInHost hheld name
  | filters =>
    exact traced_of_ok (handleWith_filters_run env parse calls s) (handleWith_filters_run env parse' calls s) rfl
      hheld
  | callTag name content =>
    exact (hcalls name content s (hfair.trans_le hsize) hs hopen').imp
      (fun _ _ hopen hlater => hheld.trans hlater hopen) fun _ _ h => h

end Requests

/-! ## Scripts -/

section Scripts

variable {parse parse' : List String → CompileM (List Node)} {calls : Nat} (hscan : IsScanFailure fault)
  (hparse : PlacesBodies host fault parse parse')
include hscan hparse

/-- A script that plays fair is traced as a whole. -/
theorem script_placesInHost {size : Nat} (hcalls : PlacesCalls env host fault parse parse' calls)
    (hsize : size ≤ calls) (hs₀ : s₀.EndsIn fault) (hopen : s₀.openTags ≠ []) (script : TagScript)
    (hraises : ∀ e, script.Raises e → host.Raises s₀.active e) (hfair : script.IsFair host.rank size held)
    (hheld : s₀.Holding s held) :
    Traced (script.run (env.handleWith parse calls)) (script.run (env.handleWith parse' calls)) s
      (fun _ s' => s₀.Later s') fun e s' => s₀.Later s' ∧ e.PlacedInHost host fault s₀.openTags s' := by
  induction script generalizing s held with
  | done node => exact traced_of_ok rfl rfl rfl hheld.later
  | raise e =>
    have hraised : host.Raises s.active e := (hraises e rfl).mono hheld.active
    exact traced_of_error rfl rfl ⟨hheld.later, .inr ⟨hfair, hheld.openTags, .inr hraised⟩⟩
  | ask r continuation ih =>
    have hrequest := request_placesInHost hscan hs₀ hheld hparse hcalls hsize hopen r hfair.1
    refine Traced.bind (hrequest.imp (fun a s₁ _ hholding => ?_) fun e s' ⟨hlater, he⟩ => ?_)
    · exact ih a (fun e he => hraises e ⟨a, he⟩) (hfair.2 a) hholding
    · exact ⟨hheld.later.trans hlater, hheld.openTags ▸ he⟩
  | attempt r continuation ih =>
    have hrequest := request_placesInHost hscan hs₀ hheld hparse hcalls hsize hopen r hfair.1
    refine Traced.bind (hrequest.attempt.imp (fun result s₁ hopen₁ h => ?_) fun _ _ h => h)
    cases result with
    | ok a => exact ih (.ok a) (fun e he => hraises e ⟨_, he⟩) (hfair.2.1 a) h
    | error e =>
      obtain ⟨tags, hlater, he⟩ := h
      have huser : e.cause.isUserError = true := he.elim (·.user) (·.1)
      exact ih (.error e) (fun e he => hraises e ⟨_, he⟩) (hfair.2.2 e huser)
        (hheld.trans (hlater.withOpenTags s.openTags s₁.openTags) hopen₁)

/-- A tag of the host that is called is traced. -/
theorem hostTag_placesCalled (hcalls : PlacesCalls env host fault parse parse' calls) {number : Nat}
    {name content : String} {script : String → TagScript} (hnumber : number ∈ s.active)
    (hscript : host.script? number name = some script)
    (hfair : (script content).IsFair host.rank (host.rank name content) 0) (hrank : host.rank name content ≤ calls)
    (hs : s.EndsIn fault) (hopen : s.openTags ≠ []) :
    PlacesCalled host fault ((script content).run (env.handleWith parse calls))
      ((script content).run (env.handleWith parse' calls)) s := by
  have hraises (e : CompileError) (he : (script content).Raises e) : host.Raises s.active e :=
    ⟨number, hnumber, name, script, content, hscript, he⟩
  exact script_placesInHost hscan hparse hcalls hrank hs hopen (script content) hraises hfair (.refl s)

/-- However deep calls may go, what is called is traced. -/
theorem placesCalls (henv : env.TagsFollow host) (calls : Nat) :
    PlacesCalls env host fault parse parse' calls := by
  induction calls with
  | zero =>
    intro name content s hrank
    omega
  | succ calls ih =>
    intro name content s hrank hs hopen
    have hcall (parse : List String → CompileM (List Node)) :
        (env.handleWith parse (calls + 1)).callTag name content s =
          (do (← env.findTag name) content (env.handleWith parse calls)) s := rfl
    cases hfind : env.tag? s.active name with
    | none =>
      have hfound : env.findTag name s = .error (.ofCause (.unknownTag name [])) s := by
        rw [Environment.findTag, run_bind_get, hfind]
        rfl
      have hrun (parse : List String → CompileM (List Node)) :
          (env.handleWith parse (calls + 1)).callTag name content s =
            .error (.ofCause (.unknownTag name [])) s := by
        rw [hcall, run_bind_error hfound]
      exact placesInHost_fail (hrun parse) (hrun parse') rfl
    | some factory =>
      have hfound : env.findTag name s = .ok factory s := by
        rw [Environment.findTag, run_bind_get, hfind]
        rfl
      refine Traced.of_run ?_ ((hcall parse).trans (run_bind_ok hfound)) ((hcall parse').trans (run_bind_ok hfound))
      obtain ⟨d, rfl⟩ | ⟨number, hnumber, script, hscript, hfair, hrun⟩ := env.tag?_cases henv hfind
      · exact (directive_placesTag hscan hparse hs hopen calls content d).placesCalled
      · rw [hrun, hrun]
        exact hostTag_placesCalled hscan hparse ih hnumber hscript (hfair content) (Nat.le_of_lt_succ hrank) hs
          hopen

end Scripts

end TextTemplate
