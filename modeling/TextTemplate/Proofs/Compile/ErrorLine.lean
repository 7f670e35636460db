import TextTemplate.Engine
import TextTemplate.Extension.Blocks
import TextTemplate.Library.Standard
import TextTemplate.Proofs.Compile.HostPlacement
import TextTemplate.Proofs.Text.Trim

/-!
# Every failure has its line

Bodies are traced, by induction on the room for open tags and on the tokens that are left, so every failure of
compiling is placed: it is one that the author of a template can mend, it has a line, and the line is the right
one. What comes from a tag of the host is left out: there the host may choose the line.
-/

namespace TextTemplate

open CompileM

/-- The name and the content of a tag are parts of its text. -/
theorem Token.tagName_tagContent_length_le (t : Token) :
    t.tagName.length + t.tagContent.length ≤ t.content.length := by
  have hword := Text.firstWord_length_le t.content.toList
  have htrim := Text.trim_length_le (Text.firstWord t.content.toList).2
  simp only [tagName, tagContent, String.length_ofList]
  rw [← String.length_toList]
  omega

variable {env : Environment} {host : HostTags} {fault : Option CompileError} {s s' : Session}

theorem compileVariable_places {t : Token} (hline : s.stream.lastLine = t.line) :
    Places host fault (env.compileVariable t) (env.compileVariable t) s fun _ s' => s' = s := by
  have hreads : FailsUnplaced (Pipeline.compile (env.filterLookup s.active) t.content) :=
    Pipeline.compile_failsUnplaced (env.filterLookup_failsUnplaced s.active) t.content
  exact (places_atLine hreads rfl rfl hline).of_run rfl rfl

section Bodies

variable {inner inner' : Option (List String → CompileM (List Node))} {t : Token} {stop : List String}

/-- A tag of the stop set is put back and ends the body that began at `s`. -/
theorem traced_stop (htook : s.Took [t] s') (hactive : s'.active = s.active) (hkind : t.kind = .block)
    (hstop : stop.contains t.tagName = true) {E : CompileError → Session → Prop} :
    Traced (do prepend t; return ([] : List Node)) (do prepend t; return []) s'
      (fun _ s'' => s.Later s'' ∧ StoppedAt stop s''.stream) E := by
  obtain ⟨s'', hrun, htook', hactive', hunread⟩ := prepend_run htook
  have hlater : s.Later s'' := htook'.later (hactive'.trans hactive)
  have hopen : s''.openTags = s'.openTags := htook'.openTags_eq.trans htook.openTags_eq.symm
  refine Traced.bind (traced_of_ok hrun hrun hopen ?_)
  exact traced_of_ok rfl rfl rfl ⟨hlater, stoppedAt_of_unread hunread hkind hstop⟩

/-- A body ends where the tokens end, if it is not to end at a tag. -/
theorem places_end (hnil : s.stream.unread = []) (hnone : s.stream.fault = none)
    (hopen : stop = [] ∨ s.openTags ≠ []) :
    Places host fault (do if stop.isEmpty then return [] else throw (unclosed stop (← get)))
      (do if stop.isEmpty then return [] else throw (unclosed stop (← get))) s
      fun (_ : List Node) s' => StoppedAt stop s'.stream := by
  by_cases hstop : stop = []
  · subst hstop
    exact places_pure (by simp [StoppedAt, hnil, hnone])
  · have hne : stop.isEmpty = false := by simpa using hstop
    rw [hne, if_neg Bool.false_ne_true]
    exact traced_of_error rfl rfl ⟨.refl s, CompileError.placed_unclosed (hopen.resolve_left hstop)⟩

variable (hscan : IsScanFailure fault) (henv : env.TagsFollow host)
  (hinner : Option.Rel (PlacesBodies host fault) inner inner')
include hscan henv hinner

/-- A block tag is traced once it has been taken. -/
theorem compileBlock_places (hs : s.EndsIn fault) (hline : s.stream.lastLine = t.line) :
    Places host fault (env.compileBlock inner t stop) (env.traceBlock inner' t stop) s fun _ _ => True := by
  have hget : (get : CompileM Session) s = .ok s s := rfl
  rw [Environment.compileBlock, Environment.traceBlock]
  refine Traced.bind (traced_of_ok hget hget rfl ?_)
  cases hfind : env.tag? s.active t.tagName with
  | none => exact traced_of_error rfl rfl ⟨.refl s, CompileError.placed_of_lastLine rfl rfl hline⟩
  | some factory =>
    cases hinner with
    | none => exact traced_of_error rfl rfl ⟨.refl s, CompileError.placed_of_lastLine rfl rfl hline⟩
    | some hparse =>
      have hopen : t :: s.openTags ≠ [] := List.cons_ne_nil _ _
      refine Traced.withOpenTag ?_
      obtain ⟨d, rfl⟩ | ⟨number, hnumber, script, hscript, hfair, hrun⟩ := env.tag?_cases henv hfind
      · refine (directive_placesTag (s := { s with openTags := t :: s.openTags }) hscan hparse hs hopen
          t.content.length t.tagContent d).imp
          (fun _ s' _ hlater => ⟨hlater.withOpenTags s.openTags s.openTags, trivial⟩)
          fun e s' ⟨hlater, he⟩ => ⟨hlater.withOpenTags s.openTags s'.openTags, ?_⟩
        obtain hplaced | ⟨hunplaced, -, hlast⟩ := he
        · rwa [hplaced.atLine]
        · exact hunplaced.placed (hlast.trans hline)
      · have hrank : host.rank t.tagName t.tagContent ≤ t.content.length :=
          (host.rank_le _ _).trans t.tagName_tagContent_length_le
        rw [hrun, hrun]
        refine (hostTag_placesCalled (s := { s with openTags := t :: s.openTags }) hscan hparse
          (placesCalls hscan hparse henv t.content.length) hnumber hscript (hfair t.tagContent) hrank hs hopen).imp
          (fun _ s' _ hlater => ⟨hlater.withOpenTags s.openTags s.openTags, trivial⟩)
          fun e s' ⟨hlater, he⟩ => ⟨hlater.withOpenTags s.openTags s'.openTags, he.atLine ?_⟩
        exact ⟨number, hlater.active hnumber, by rw [hscript]; rfl⟩

/-- A body is traced item by item. -/
theorem parseWithin_places {n : Nat} (hn : s.stream.unread.length < n) (hs : s.EndsIn fault)
    (hopen : stop = [] ∨ s.openTags ≠ []) :
    Places host fault (env.parseWithin inner stop n) (env.traceWithin inner' stop n) s
      fun _ s' => StoppedAt stop s'.stream := by
  induction n generalizing s with
  | zero => omega
  | succ n ih =>
    rw [Environment.parseWithin, Environment.traceWithin]
    refine traced_read (fun t s₁ htook hactive hline => ?_) (fun e s' hfault hlater _ => ?_) (fun hnil hnone => ?_)
    · have hlater := htook.later hactive
      have hs₁ : s₁.EndsIn fault := hs.later hlater
      have hopen₁ : stop = [] ∨ s₁.openTags ≠ [] := htook.openTags_eq ▸ hopen
      have hlength : s₁.stream.unread.length < n := by simpa [htook.unread_eq] using hn
      have hrest := ih hlength hs₁ hopen₁
      have hfails {cause : CompileCause} (huser : cause.isUserError = true) (hclosed : cause.isUnclosed = false) :
          Places host fault (throw ⟨cause, some t.line⟩) (throw ⟨cause, some t.line⟩) s₁
            fun (_ : List Node) s' => StoppedAt stop s'.stream :=
        traced_of_error rfl rfl ⟨.refl s₁, CompileError.placed_of_lastLine huser hclosed hline⟩
      match hkind : t.kind with
      | .text => exact (hrest.bind fun _ _ _ _ h => places_pure h).after hlater
      | .comment => exact hrest.after hlater
      | .variable =>
        dsimp only
        split_ifs with hempty
        · exact (hfails rfl rfl).after hlater
        · refine Places.after ?_ hlater
          refine (compileVariable_places hline).bind fun _ s₂ hlater₂ hopen₂ hsame => ?_
          subst hsame
          exact hrest.bind fun _ _ _ _ h => places_pure h
      | .block =>
        dsimp only
        split_ifs with hname hstop
        · exact (hfails rfl rfl).after hlater
        · exact traced_stop htook hactive hkind hstop
        · refine Places.after ?_ hlater
          refine (compileBlock_places hscan henv hinner hs₁ hline).bind fun node s₂ hlater₂ hopen₂ _ => ?_
          refine (ih (hlater₂.shorter.trans_lt hlength) (hs₁.later hlater₂) (hopen₂ ▸ hopen₁)).bind
            fun _ _ _ _ h => places_pure h
    · exact ⟨hlater, CompileError.placed_of_fault hscan hs hfault⟩
    · exact places_end hnil hnone hopen

end Bodies

/-- Bodies are traced, however many more tags may be open. -/
theorem parseAt_placesBodies (hscan : IsScanFailure fault) (henv : env.TagsFollow host) (room : Nat) :
    PlacesBodies host fault (env.parseAt room) (env.traceAt room) := by
  induction room with
  | zero =>
    intro stop s hs hopen
    exact places_rounds.bind fun n s₁ hlater hopen₁ hn =>
      parseWithin_places hscan henv .none hn.2 (hs.later hlater) (hopen₁ ▸ hopen)
  | succ room ih =>
    intro stop s hs hopen
    exact places_rounds.bind fun n s₁ hlater hopen₁ hn =>
      parseWithin_places hscan henv (.some ih) hn.2 (hs.later hlater) (hopen₁ ▸ hopen)

/-! ## Source -/

/-- The tokens of source end in nothing but a delimiter that is not closed. -/
theorem isScanFailure_tokens (source : String) : IsScanFailure (Lexer.tokens source).2 := by
  intro e h
  obtain ⟨rest, hrest⟩ := Lexer.scan_partitions source.toList 1
  obtain ⟨kind, -, inside, -, -, rfl⟩ := (hrest.fault_iff e).mp h
  exact ⟨kind, _, rfl⟩

/-- Where compiling source fails, it fails with a trace in the same way, and the failure is placed. -/
theorem compile_error_placed (henv : env.TagsFollow host) {base : List Nat} {source : String} {e : CompileError}
    (h : env.compile base source = .error e) : ∃ s, env.trace base source = .error e s ∧
      (env.parse []).run (Session.ofSource source base) = .error e { s with openTags := [] } ∧
      e.Placed host (Lexer.tokens source).2 s := by
  have hplaces := parseAt_placesBodies (isScanFailure_tokens source) henv Environment.maxOpenTags []
    (Session.ofSource source base) (.inr rfl) (.inl rfl)
  rw [Environment.compile] at h
  obtain ⟨nodes, s, hrun, -⟩ | ⟨e', s, hrun, htrace, -, hplaced⟩ := hplaces
  · rw [show (env.parse []).run (Session.ofSource source base) = .ok nodes s from hrun] at h
    cases h
  · have hrun' : (env.parse []).run (Session.ofSource source base) = .error e' { s with openTags := [] } := hrun
    rw [hrun'] at h
    obtain rfl : e' = e := by simpa using h
    exact ⟨s, htrace, hrun', hplaced⟩

/-- The line that a failure of compiling source is to have, where `s` is the session in which it came up: that
of the delimiter that is never closed, of the innermost tag that is open, or else of the token taken last. -/
def CompileError.SitsInSource (source : String) (s : Session) (e : CompileError) : Prop :=
  match e.cause with
  | .unclosedDelimiter opener closer => ∃ inside,
    source.toList = Lexer.rawText (Lexer.tokens source).1 ++ (opener.toList ++ inside) ∧
      ¬ closer.toList <:+: inside ∧
      e.line = some (1 + Lexer.newlines (Lexer.rawText (Lexer.tokens source).1) : Nat)
  | .unclosedTag _ _ => ∃ t outer, s.openTags = t :: outer ∧ e.line = some (t.line : Int)
  | _ => e.line = some (s.stream.lastLine : Int)

/-- A failure that sits where it should in its session sits where it should in the source. -/
theorem CompileError.SitsIn.sitsInSource {source : String} {e : CompileError}
    (h : e.SitsIn (Lexer.tokens source).2 s) : e.SitsInSource source s := by
  obtain ⟨cause, line⟩ := e
  cases cause with
  | unclosedDelimiter opener closer =>
    have hfault : (Lexer.tokens source).2 = some ⟨.unclosedDelimiter opener closer, line⟩ := h
    obtain ⟨rest, hrest⟩ := Lexer.scan_partitions source.toList 1
    obtain ⟨kind, -, inside, rfl, hinside, herror⟩ := (hrest.fault_iff _).mp hfault
    obtain ⟨⟨rfl, rfl⟩, rfl⟩ : (_ ∧ _) ∧ _ := by simpa [Lexer.unclosed] using herror
    refine ⟨inside, ?_, by simpa using hinside, rfl⟩
    rw [String.toList_ofList]
    exact hrest.lossless.symm
  | _ => exact h

/-- With nothing but the standard tags around, every failure sits where it should. -/
theorem compile_error_sits (henv : env.StandardTagsOnly) {base : List Nat} {source : String} {e : CompileError}
    (h : env.compile base source = .error e) :
    ∃ s, env.trace base source = .error e s ∧ e.SitsInSource source s := by
  obtain ⟨s, htrace, -, hplaced⟩ := compile_error_placed henv.tagsFollow h
  refine ⟨s, htrace, (hplaced.sits.resolve_right ?_).sitsInSource⟩
  rintro ⟨t, outer, -, ⟨number, -, hscript⟩, -⟩
  cases hscript

namespace Boxes

/-- A tag that fails, with the line given as its content if there is one. -/
def strict : TagFactory := fun content _ =>
  throw ⟨.header (.noArgumentsTaken "strict"), Integer.ofString? content⟩

def library : TagLibrary := .ofEntries "boxes" [("wrap", Extension.wrap), ("strict", strict)] []

/-- What the tags of the library do. -/
def scripts : List (String × (String → TagScript)) := [
  ("wrap", fun content => .ask (.parse ["endwrap"]) fun body => .ask .next fun _ =>
    .done (some (.labelled content body))),
  ("strict", fun content => .raise ⟨.header (.noArgumentsTaken "strict"), Integer.ofString? content⟩)]

/-- The tags of a host that has the library as its third one. -/
def tags : HostTags where
  script? number name :=
    match number with
    | 2 => scripts.lookup name
    | _ => none
  rank name content := name.length + content.length
  rank_le _ _ := Nat.le_refl _

/-- An engine with the standard libraries, in which templates can load the boxes. -/
def engine : Engine where
  config := .default
  registry := ⟨[StandardLibrary.tags, StandardLibrary.filters, library], [],
    [("defaulttags", 0), ("defaultfilters", 1), ("boxes", 2)], []⟩
  builtins := [0, 1]
  cache := []
  made := 0

/-- Source with an unknown filter, in an `if` tag within a tag of the host. -/
def unknownFilterSource : String :=
  "\x7b% load boxes %\x7d\n\x7b% wrap a %\x7d\n\x7b% if b %\x7d\n\x7b\x7b c|nope \x7d\x7d" ++
    "\x7b% endif %\x7d\x7b% endwrap %\x7d"

end Boxes

end TextTemplate
