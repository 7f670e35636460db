import TextTemplate.Engine
import TextTemplate.Library.Standard
import TextTemplate.Proofs.Token.Reading

/-!
# Templates that are kept

However files change and whichever calls come, the template of a name is the one that was read by the first call for
it that succeeded since the templates were last forgotten. So long as there was none, a call reads the files as they
are then. A call that fails leaves everything as it was, and no call changes what is kept under another name.
-/

namespace TextTemplate

/-! ## Reading a template -/

namespace Engine

variable {e e' : Engine} {fs : Files} {name source : String} {t : Template} {bytes : ByteArray}

/-- The file of a name in the first of the directories that has one has these bytes. -/
def IsFirst (fs : Files) (dirs : List Path) (name : Path) (bytes : ByteArray) : Prop :=
  ∃ before dir after, dirs = before ++ dir :: after ∧ (∀ d ∈ before, fs.file? (d.join name) = .ok none) ∧
    fs.file? (dir.join name) = .ok (some bytes)

/-- The file that is found is the first one there is. -/
theorem firstFile_eq_some_iff {dirs : List Path} {name : Path} :
    firstFile fs (dirs.map (·.join name)) = .ok (some bytes) ↔ IsFirst fs dirs name bytes := by
  induction dirs with
  | nil => simp [firstFile, IsFirst]
  | cons d rest ih =>
    rw [List.map_cons, firstFile]
    constructor
    · intro h
      cases hfile : fs.file? (d.join name) with
      | error fault =>
        rw [hfile] at h
        cases h
      | ok found =>
        rw [hfile] at h
        cases found with
        | some first =>
          obtain rfl : first = bytes := Option.some.inj (Except.ok.inj h)
          exact ⟨[], d, rest, rfl, by simp, hfile⟩
        | none =>
          obtain ⟨before, dir, after, rfl, hbefore, hdir⟩ := ih.mp h
          exact ⟨d :: before, dir, after, rfl, List.forall_mem_cons.mpr ⟨hfile, hbefore⟩, hdir⟩
    · rintro ⟨_ | ⟨d', before⟩, dir, after, hdirs, hbefore, hdir⟩
      · obtain ⟨rfl, rfl⟩ := List.cons.inj hdirs
        rw [hdir]
        rfl
      · obtain ⟨rfl, rfl⟩ := List.cons.inj hdirs
        obtain ⟨hnone, hbefore⟩ := List.forall_mem_cons.mp hbefore
        rw [hnone]
        exact ih.mpr ⟨before, dir, after, rfl, hbefore, hdir⟩

/-- The first configured directory with a file of the name has this text in it. A name that is absolute or goes up is
in no directory. -/
def Holds (e : Engine) (fs : Files) (name source : String) : Prop :=
  isInside (.ofString name) ∧ ∃ bytes, IsFirst fs e.config.dirs (.ofString name) bytes ∧
    Files.decode e.config.encoding bytes = .ok source

theorem findFile_eq_ok_iff : e.findFile fs name = .ok bytes ↔
    isInside (.ofString name) ∧ IsFirst fs e.config.dirs (.ofString name) bytes := by
  rw [← firstFile_eq_some_iff, findFile]
  by_cases hinside : isInside (.ofString name) = true
  · simp only [hinside, if_true, true_and]
    cases firstFile fs (e.config.dirs.map (·.join (.ofString name))) with
    | error fault => simp
    | ok found => cases found <;> simp
  · simp [hinside]

/-- The template of a name, as it is made with a serial from the text in the first directory that holds the name. -/
def Makes (e : Engine) (fs : Files) (name : String) (serial : Nat) (t : Template) : Prop :=
  ∃ source nodes, e.Holds fs name source ∧ e.compile source = .ok nodes ∧ t = ⟨serial, some name, source, nodes⟩

/-- A template is loaded exactly if it can be made of the files; it is then new, and kept under the name. -/
theorem loadTemplate_eq_ok_iff : e.loadTemplate fs name = .ok (t, e') ↔ e.Makes fs name e.made t ∧
    e' = { e with cache := e.cache ++ [(name, t)], made := e.made + 1 } := by
  constructor
  · intro h
    obtain ⟨bytes, hfile, h⟩ := bind_eq_ok_iff.mp h
    obtain ⟨hinside, hfirst⟩ := findFile_eq_ok_iff.mp hfile
    split at h
    · cases h
    · rename_i source hdecode
      cases hcompile : e.compile source with
      | error fault =>
        simp only [ofString, hcompile] at h
        cases h
      | ok nodes =>
        simp only [ofString, hcompile] at h
        cases h
        exact ⟨⟨source, nodes, ⟨hinside, bytes, hfirst, hdecode⟩, hcompile, rfl⟩, rfl⟩
  · rintro ⟨⟨source, nodes, ⟨hinside, bytes, hfirst, hdecode⟩, hcompile, rfl⟩, rfl⟩
    rw [loadTemplate, findFile_eq_ok_iff.mpr ⟨hinside, hfirst⟩]
    simp only [bind, Except.bind, hdecode, ofString, hcompile]
    rfl

theorem getTemplate_of_lookup_eq_some (h : e.cache.lookup name = some t) : e.getTemplate fs name = .ok (t, e) := by
  rw [getTemplate, h]

theorem getTemplate_of_lookup_eq_none (h : e.cache.lookup name = none) :
    e.getTemplate fs name = e.loadTemplate fs name := by rw [getTemplate, h]

/-- An engine that has just been set up keeps nothing. -/
theorem cache_of_new {config : Config} {standard : List (String × LibraryTarget)} {r : Registry TagFactory Filter}
    (h : Engine.new config standard r = .ok e) : e.cache = [] := by
  rw [Engine.new] at h
  split at h
  · cases h
  · split at h <;> cases h
    rfl

/-- The same engine at a later time: its setup stays, and it has made as many templates or more. -/
structure Later (e e' : Engine) : Prop where
  config_eq : e'.config = e.config
  registry_eq : e'.registry = e.registry
  builtins_eq : e'.builtins = e.builtins
  made_le : e.made ≤ e'.made

namespace Later

theorem refl (e : Engine) : e.Later e := ⟨rfl, rfl, rfl, Nat.le_refl _⟩

theorem trans {e'' : Engine} (h : e.Later e') (h' : e'.Later e'') : e.Later e'' :=
  ⟨h'.config_eq.trans h.config_eq, h'.registry_eq.trans h.registry_eq, h'.builtins_eq.trans h.builtins_eq,
    h.made_le.trans h'.made_le⟩

/-- It makes the same templates. -/
theorem makes_iff (h : e.Later e') {serial : Nat} : e'.Makes fs name serial t ↔ e.Makes fs name serial t := by
  have hholds (source : String) : e'.Holds fs name source ↔ e.Holds fs name source := by
    rw [Holds, Holds, h.config_eq]
  have hcompile (source : String) : e'.compile source = e.compile source := by
    rw [compile, environment, h.registry_eq, h.config_eq, h.builtins_eq, compile, environment]
  simp only [Makes, hholds, hcompile]

end Later

theorem getTemplate_later (h : e.getTemplate fs name = .ok (t, e')) : e.Later e' := by
  cases hlookup : e.cache.lookup name with
  | some kept =>
    rw [getTemplate_of_lookup_eq_some hlookup] at h
    cases h
    exact .refl e
  | none =>
    rw [getTemplate_of_lookup_eq_none hlookup] at h
    obtain ⟨-, rfl⟩ := loadTemplate_eq_ok_iff.mp h
    exact ⟨rfl, rfl, rfl, Nat.le_succ _⟩

end Engine

/-! ## Histories -/

/-- An engine and the files that it reads. -/
structure Site where
  engine : Engine
  files : Files

/-- What happens to a site: files are created, changed or deleted, a template is asked for, or all are forgotten. -/
inductive SiteEvent where
  | change (files : Files)
  | get (name : String)
  | clear

namespace Site

open Engine

/-- The site after an event. A call that fails gives no other engine. -/
def after (s : Site) : SiteEvent → Site
  | .change files => { s with files := files }
  | .get name =>
    match s.engine.getTemplate s.files name with
    | .ok (_, engine) => { s with engine := engine }
    | .error _ => s
  | .clear => { s with engine := s.engine.clearCache }

/-- The site after some events. -/
def run (s : Site) (events : List SiteEvent) : Site := events.foldl after s

/-- What a call for a template answers. -/
def answer (s : Site) (name : String) : Except EngineError Template := Prod.fst <$> s.engine.getTemplate s.files name

/-- No call for the template has succeeded since all were last forgotten. -/
def Unread (s : Site) (events : List SiteEvent) (name : String) : Prop :=
  ∀ earlier later, events = earlier ++ .get name :: later → .clear ∉ later → ∀ t, (s.run earlier).answer name ≠ .ok t

/-- The moment of the first call for the template that has succeeded since all were last forgotten. -/
def FirstRead (s : Site) (events : List SiteEvent) (name : String) (moment : Site) : Prop :=
  ∃ before later, events = before ++ .get name :: later ∧ .clear ∉ later ∧ moment = s.run before ∧
    s.Unread before name ∧ ∃ t, moment.answer name = .ok t

variable {s : Site} {events : List SiteEvent} {event : SiteEvent} {name : String} {t : Template}

@[simp] theorem run_nil (s : Site) : s.run [] = s := rfl

@[simp] theorem run_append (s : Site) (u w : List SiteEvent) : s.run (u ++ w) = (s.run u).run w := List.foldl_append

@[simp] theorem run_cons (s : Site) (event : SiteEvent) (rest : List SiteEvent) :
    s.run (event :: rest) = (s.after event).run rest := rfl

/-! ### What one event changes -/

theorem answer_eq_ok_iff : s.answer name = .ok t ↔ ∃ e, s.engine.getTemplate s.files name = .ok (t, e) := by
  rw [answer]
  cases s.engine.getTemplate s.files name with
  | error fault => simp
  | ok found =>
    obtain ⟨t', e⟩ := found
    simp

theorem answer_of_kept (h : s.engine.cache.lookup name = some t) : s.answer name = .ok t :=
  answer_eq_ok_iff.mpr ⟨s.engine, getTemplate_of_lookup_eq_some h⟩

/-- A template that is not kept is made of the files as they are. -/
theorem answer_of_not_kept (h : s.engine.cache.lookup name = none) :
    s.answer name = .ok t ↔ s.engine.Makes s.files name s.engine.made t := by
  rw [answer_eq_ok_iff, getTemplate_of_lookup_eq_none h]
  simp only [loadTemplate_eq_ok_iff, exists_and_left, exists_eq, and_true]

theorem after_get_of_kept (h : s.engine.cache.lookup name = some t) : s.after (.get name) = s := by
  rw [after, getTemplate_of_lookup_eq_some h]

/-- A call that fails leaves all as it was. -/
theorem after_get_of_fails (h : ∀ t, s.answer name ≠ .ok t) : s.after (.get name) = s := by
  rw [after]
  cases hget : s.engine.getTemplate s.files name with
  | error fault => rfl
  | ok found => exact absurd (answer_eq_ok_iff.mpr ⟨found.2, hget⟩) (h found.1)

/-- A template that was not kept is new, and kept from then on. -/
theorem after_get_of_reads (h : s.engine.cache.lookup name = none) (ht : s.answer name = .ok t) :
    s.after (.get name) =
      { s with engine := { s.engine with cache := s.engine.cache ++ [(name, t)], made := s.engine.made + 1 } } := by
  obtain ⟨e, hget⟩ := answer_eq_ok_iff.mp ht
  rw [after, hget]
  rw [getTemplate_of_lookup_eq_none h] at hget
  obtain ⟨-, rfl⟩ := loadTemplate_eq_ok_iff.mp hget
  rfl

/-- What is kept under a name after an event: only a call for that name that succeeds adds to it. -/
theorem lookup_after (s : Site) (event : SiteEvent) (name : String) : (s.after event).engine.cache.lookup name =
    match event with
    | .change _ => s.engine.cache.lookup name
    | .get other => if other = name then (s.answer name).toOption else s.engine.cache.lookup name
    | .clear => none := by
  cases event with
  | change files => rfl
  | clear => rfl
  | get other =>
    dsimp only
    cases hlookup : s.engine.cache.lookup other with
    | some kept =>
      rw [after_get_of_kept hlookup]
      split_ifs with hother
      · subst hother
        rw [answer_of_kept hlookup, hlookup]
        rfl
      · rfl
    | none =>
      cases hanswer : s.answer other with
      | error fault =>
        rw [after_get_of_fails (by simp [hanswer])]
        split_ifs with hother
        · subst hother
          rw [hanswer, hlookup]
          rfl
        · rfl
      | ok t =>
        rw [after_get_of_reads hlookup hanswer, List.lookup_append]
        split_ifs with hother
        · subst hother
          rw [hanswer, hlookup, List.lookup_cons_self]
          rfl
        · have hne : (name == other) = false := by simpa using Ne.symm hother
          rw [List.lookup_cons, hne, List.lookup_nil]
          exact Option.or_none

/-- An engine stays the same but for the templates that it keeps. -/
theorem after_later (s : Site) (event : SiteEvent) : s.engine.Later (s.after event).engine := by
  cases event with
  | change files => exact .refl s.engine
  | clear => exact ⟨rfl, rfl, rfl, Nat.le_refl _⟩
  | get name =>
    rw [after]
    cases hget : s.engine.getTemplate s.files name with
    | error fault => exact .refl s.engine
    | ok found => exact getTemplate_later hget

/-! ### What a history keeps -/

theorem run_later (s : Site) (events : List SiteEvent) : s.engine.Later (s.run events).engine := by
  induction events generalizing s with
  | nil => exact .refl s.engine
  | cons event rest ih => exact (s.after_later event).trans (ih (s.after event))

/-- What is kept stays until all is forgotten. -/
theorem lookup_run_of_kept (h : s.engine.cache.lookup name = some t) (hclear : .clear ∉ events) :
    (s.run events).engine.cache.lookup name = some t := by
  induction events generalizing s with
  | nil => exact h
  | cons event rest ih =>
    obtain ⟨hevent, hrest⟩ := List.forall_mem_cons.mp (List.forall_mem_ne.mpr hclear)
    refine ih ?_ (List.forall_mem_ne.mp hrest)
    rw [lookup_after]
    cases event with
    | change files => exact h
    | clear => exact absurd rfl hevent
    | get other =>
      dsimp only
      split_ifs
      · rw [answer_of_kept h]
        rfl
      · exact h

/-- A template is unread after one more event if all are forgotten then, or if it was unread before and is not read
then. -/
theorem unread_append_singleton : s.Unread (events ++ [event]) name ↔
    event = .clear ∨ s.Unread events name ∧ (event = .get name → ∀ t, (s.run events).answer name ≠ .ok t) := by
  constructor
  · intro h
    by_cases hevent : event = .clear
    · exact .inl hevent
    · refine .inr ⟨fun earlier later heq hlater => ?_, fun heq => ?_⟩
      · refine h earlier (later ++ [event]) (by rw [heq, List.append_assoc, List.cons_append]) ?_
        simpa [Ne.symm hevent] using hlater
      · exact h events [] (by rw [heq]) (by simp)
  · intro h earlier later heq hlater
    rcases List.eq_nil_or_concat later with rfl | ⟨later, last, rfl⟩
    · obtain ⟨rfl, hlast⟩ := List.append_inj' heq rfl
      obtain rfl : event = .get name := List.singleton_inj.mp hlast
      obtain ⟨-, hfails⟩ := h.resolve_left SiteEvent.noConfusion
      exact hfails rfl
    · rw [List.concat_eq_append, ← List.cons_append, ← List.append_assoc] at heq
      obtain ⟨rfl, hlast⟩ := List.append_inj' heq rfl
      obtain rfl : event = last := List.singleton_inj.mp hlast
      obtain ⟨hunread, -⟩ := h.resolve_left fun hclear => hlater (by simp [hclear])
      exact hunread earlier later rfl fun hclear => hlater (by simp [hclear])

/-- Just the templates that are unread are not kept. -/
theorem unread_iff (hs : s.engine.cache = []) :
    s.Unread events name ↔ (s.run events).engine.cache.lookup name = none := by
  induction events using List.reverseRecOn with
  | nil => simp [Unread, hs]
  | append_singleton events event ih =>
    rw [unread_append_singleton, run_append, run_cons, run_nil, lookup_after, ih]
    cases event with
    | change files => simp
    | clear => simp
    | get other =>
      dsimp only
      split_ifs with hother
      · subst hother
        have hfails : (∀ t, (s.run events).answer other ≠ .ok t) ↔ ((s.run events).answer other).toOption = none := by
          cases (s.run events).answer other <;> simp [Except.toOption]
        rw [← hfails]
        constructor
        · intro h
          exact (h.resolve_left id).2 rfl
        · intro h
          refine .inr ⟨?_, fun _ => h⟩
          exact Option.eq_none_iff_forall_ne_some.mpr fun t ht => h t (answer_of_kept ht)
      · simp [hother]

/-- A template that was read stays read until all are forgotten. -/
theorem FirstRead.append {moment : Site} (h : s.FirstRead events name moment) {more : List SiteEvent}
    (hclear : .clear ∉ more) : s.FirstRead (events ++ more) name moment := by
  obtain ⟨before, later, rfl, hlater, hmoment⟩ := h
  exact ⟨before, later ++ more, by simp, by simp [hlater, hclear], hmoment⟩

/-- A template is unread, or there was a first call that has read it. -/
theorem unread_or_exists_firstRead (s : Site) (events : List SiteEvent) (name : String) :
    s.Unread events name ∨ ∃ moment, s.FirstRead events name moment := by
  induction events using List.reverseRecOn with
  | nil => exact .inl (by simp [Unread])
  | append_singleton events event ih =>
    by_cases hevent : event = .clear
    · exact .inl (unread_append_singleton.mpr (.inl hevent))
    · rcases ih with hunread | ⟨moment, hmoment⟩
      · by_cases hget : event = .get name ∧ ∃ t, (s.run events).answer name = .ok t
        · obtain ⟨rfl, hreads⟩ := hget
          exact .inr ⟨_, events, [], rfl, by simp, rfl, hunread, hreads⟩
        · exact .inl (unread_append_singleton.mpr (.inr ⟨hunread, fun heq t ht => hget ⟨heq, t, ht⟩⟩))
      · exact .inr ⟨moment, hmoment.append (by simpa using Ne.symm hevent)⟩

/-- Whatever has happened to files and templates since an engine was set up or its templates were forgotten: a call
gives the template that was made at the first call for the name that succeeded, and makes none. Before that, a call
reads the first file of the name as it is now. If it fails, nothing changes, and what is kept under other names never
does. -/
theorem getTemplate_run (hs : s.engine.cache = []) (events : List SiteEvent) (name : String) :
    let now := s.run events
    (∀ moment, s.FirstRead events name moment → ∃ t, s.engine.Makes moment.files name moment.engine.made t ∧
        moment.answer name = .ok t ∧ moment.engine.made < now.engine.made ∧
          now.engine.getTemplate now.files name = .ok (t, now.engine)) ∧
      ((∀ moment, ¬ s.FirstRead events name moment) →
        ∀ t, now.answer name = .ok t ↔ s.engine.Makes now.files name now.engine.made t) ∧
      ((∀ t, now.answer name ≠ .ok t) → now.after (.get name) = now) ∧
      ∀ other ≠ name, (now.after (.get name)).engine.cache.lookup other = now.engine.cache.lookup other := by
  intro now
  refine ⟨?_, fun hnone t => ?_, after_get_of_fails, fun other hother => ?_⟩
  · rintro moment ⟨before, later, rfl, hlater, rfl, hunread, t, hreads⟩
    have hlookup := (unread_iff hs).mp hunread
    have hmakes := (s.run_later before).makes_iff.mp ((answer_of_not_kept hlookup).mp hreads)
    have hnow : now = ((s.run before).after (.get name)).run later := by simp only [now, run_append, run_cons]
    have hkept : ((s.run before).after (.get name)).engine.cache.lookup name = some t := by
      rw [lookup_after]
      simp only [if_true, hreads, Except.toOption]
    have hmade : (s.run before).engine.made < ((s.run before).after (.get name)).engine.made := by
      rw [after_get_of_reads hlookup hreads]
      exact Nat.lt_succ_self _
    refine ⟨t, hmakes, hreads, ?_, ?_⟩
    · rw [hnow]
      exact hmade.trans_le (run_later _ later).made_le
    · rw [hnow]
      exact getTemplate_of_lookup_eq_some (lookup_run_of_kept hkept hlater)
  · have hunread := (s.unread_or_exists_firstRead events name).resolve_right (by simpa using hnone)
    rw [answer_of_not_kept ((unread_iff hs).mp hunread)]
    exact (s.run_later events).makes_iff
  · rw [lookup_after]
    exact if_neg (Ne.symm hother)

/-- The bytes of a text of plain characters. -/
def plainBytes (text : String) : ByteArray := ⟨(text.toList.map fun c => c.toNat.toUInt8).toArray⟩

/-- An engine with the standard libraries that looks for templates in two directories. The second one has a template
with a tag that there is not. -/
def notes : Site where
  engine := {
    config := { Config.default with dirs := [⟨"/", ["new"]⟩, ⟨"/", ["old"]⟩], encoding := "latin-1" }
    registry := ⟨[StandardLibrary.tags, StandardLibrary.filters], [],
      [("defaulttags", 0), ("defaultfilters", 1)], []⟩
    builtins := [0, 1]
    cache := []
    made := 0 }
  files := ⟨⟨"/", []⟩, [(["old", "note"], plainBytes "\x7b% nope %\x7d")]⟩

/-- A call that fails, the template mended, a call that reads it, and then a file in the first directory. -/
def notesEvents : List SiteEvent := [
  .get "note",
  .change ⟨⟨"/", []⟩, [(["old", "note"], plainBytes "mended")]⟩,
  .get "note",
  .change ⟨⟨"/", []⟩, [(["old", "note"], plainBytes "mended"), (["new", "note"], plainBytes "other")]⟩]

/-- The template is the mended one, though the file in the first directory is found by then. -/
theorem getTemplate_run_notes :
    notes.engine.Holds (notes.run notesEvents).files "note" "other" ∧
      ∃ nodes, notes.engine.compile "mended" = .ok nodes ∧
        (notes.run notesEvents).engine.getTemplate (notes.run notesEvents).files "note" =
          .ok (⟨0, some "note", "mended", nodes⟩, (notes.run notesEvents).engine) := by
  let moment := notes.run (notesEvents.take 2)
  have hholds : notes.engine.Holds (notes.run notesEvents).files "note" "other" :=
    ⟨by decide +kernel, plainBytes "other", ⟨[], _, _, rfl, by simp, by decide +kernel⟩, by decide +kernel⟩
  have hunread : notes.Unread (notesEvents.take 2) "note" :=
    (unread_iff rfl).mpr (Option.isNone_iff_eq_none.mp (by decide +kernel))
  have hanswer : (moment.answer "note").toOption.map (fun t => (t.serial, t.source)) = some (0, "mended") := by
    decide +kernel
  cases ht : moment.answer "note" with
  | error fault =>
    rw [ht] at hanswer
    cases hanswer
  | ok t =>
    have hfirst : notes.FirstRead notesEvents "note" moment :=
      ⟨_, notesEvents.drop 3, rfl, by simp [notesEvents], rfl, hunread, t, ht⟩
    obtain ⟨_, ⟨source, nodes, -, hcompile, rfl⟩, hreads, -, hget⟩ :=
      (getTemplate_run rfl notesEvents "note").1 moment hfirst
    rw [hreads] at hanswer
    obtain ⟨hmade, rfl⟩ : moment.engine.made = 0 ∧ source = "mended" := by
      simpa [Except.toOption] using hanswer
    rw [hmade] at hget
    exact ⟨hholds, nodes, hcompile, hget⟩

end Site

end TextTemplate
