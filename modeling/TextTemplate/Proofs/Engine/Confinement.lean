import TextTemplate.Proofs.Config.Path
import TextTemplate.Proofs.Engine.Cache

/-!
# Templates stay in their directories

A name that starts with a slash or goes up somewhere finds nothing, whatever files there are. Any other name stands for
components, each the name of something in a directory, and a call for it reads the file that these lead to from the
first configured directory with such a file, or else reports one path in each of the directories. It fails in another
way only over a path that is too long for a file.
-/

namespace TextTemplate

/-- A name that would lead out of a directory: it starts with a slash, or goes up somewhere. -/
def Path.Leaves (name : String) : Prop :=
  name.toList.head? = some '/' ∨ ∃ components, Path.Spells name components ∧ ".." ∈ components

/-- The names that are looked for are those that do not lead out. -/
theorem Path.leaves_iff {name : String} : Path.Leaves name ↔ Engine.isInside (.ofString name) = false := by
  have hup : (∃ components, Path.Spells name components ∧ ".." ∈ components) ↔ ".." ∈ (Path.ofString name).parts := by
    simp only [Path.spells_iff, exists_eq_left]
  rw [Path.Leaves, hup, ← Path.isAbsolute_ofString, Engine.isInside]
  simp [or_iff_not_imp_left]

/-- Components that are read from a text are not empty, no single dots, and hold no slash. -/
theorem Path.isEntryName_of_mem {name component : String} (h : component ∈ (Path.ofString name).parts)
    (hup : component ≠ "..") : Path.IsEntryName component := by
  obtain ⟨piece, hpiece, rfl⟩ := List.mem_map.mp h
  obtain ⟨hsplit, hkept⟩ := List.mem_filter.mp hpiece
  obtain ⟨hempty, hdot⟩ : piece ≠ [] ∧ piece ≠ ['.'] := by simpa using hkept
  refine ⟨?_, ?_, hup, ?_⟩
  · simpa [String.ofList_eq_empty_iff] using hempty
  · exact fun heq => hdot (by simpa using congrArg String.toList heq)
  · rw [String.toList_ofList]
    exact Text.not_mem_of_mem_splitAtChar hsplit

namespace Engine

variable {e : Engine} {fs : Files} {name : String} {t : Template} {bytes : ByteArray} {components : List String}
  {dirs : List Path} {dir : Path}

/-- In all of the directories there is no file at the components. -/
def Misses (fs : Files) (components : List String) (dirs : List Path) : Prop :=
  ∀ dir ∈ dirs, fs.file? (dir.below components) = .ok none

/-- The first directory with a file at the components is this one, and the file has these bytes. -/
def Hits (fs : Files) (components : List String) (dirs : List Path) (dir : Path) (bytes : ByteArray) : Prop :=
  ∃ before after, dirs = before ++ dir :: after ∧ Misses fs components before ∧
    fs.file? (dir.below components) = .ok (some bytes)

/-- Before a directory has a file at the components, one of the paths to look at is too long. -/
def Overruns (fs : Files) (components : List String) (dirs : List Path) : Prop :=
  ∃ before dir after, dirs = before ++ dir :: after ∧ Misses fs components before ∧
    fs.file? (dir.below components) = .error .mk ∧ Files.IsTooLong (dir.below components)

/-- A call for a template reads the file of the name: the template is not kept, and the file is found. -/
def Reads (e : Engine) (fs : Files) (name : String) (bytes : ByteArray) : Prop :=
  e.cache.lookup name = none ∧ e.findFile fs name = .ok bytes

theorem misses_cons : Misses fs components (dir :: dirs) ↔
    fs.file? (dir.below components) = .ok none ∧ Misses fs components dirs := List.forall_mem_cons

/-- A directory whose path is too long ends the search. One without the file leaves it to the others. -/
theorem overruns_cons : Overruns fs components (dir :: dirs) ↔ fs.file? (dir.below components) = .error .mk ∨
    fs.file? (dir.below components) = .ok none ∧ Overruns fs components dirs := by
  constructor
  · rintro ⟨before, d, after, hdirs, hbefore, hd, hlong⟩
    cases before with
    | nil =>
      obtain ⟨rfl, rfl⟩ := List.cons.inj hdirs
      exact .inl hd
    | cons d' before =>
      obtain ⟨rfl, rfl⟩ := List.cons.inj hdirs
      obtain ⟨hnone, hbefore⟩ := misses_cons.mp hbefore
      exact .inr ⟨hnone, before, d, after, rfl, hbefore, hd, hlong⟩
  · rintro (hdir | ⟨hnone, before, d, after, rfl, hbefore, hd, hlong⟩)
    · exact ⟨[], dir, dirs, rfl, List.forall_mem_nil _, hdir, Files.isTooLong_of_file?_eq_error hdir⟩
    · exact ⟨dir :: before, d, after, rfl, misses_cons.mpr ⟨hnone, hbefore⟩, hd, hlong⟩

/-- Nothing is found just if no directory has the file. -/
theorem firstFile_eq_none_iff :
    firstFile fs (dirs.map (·.below components)) = .ok none ↔ Misses fs components dirs := by
  induction dirs with
  | nil => simp [firstFile, Misses]
  | cons d rest ih =>
    rw [List.map_cons, firstFile, misses_cons, ← ih]
    cases fs.file? (d.below components) with
    | error fault => simp [bind, Except.bind]
    | ok found => cases found <;> simp [bind, Except.bind, pure, Except.pure]

/-- The search fails just if a path is too long before the file is found. -/
theorem firstFile_eq_error_iff :
    firstFile fs (dirs.map (·.below components)) = .error .mk ↔ Overruns fs components dirs := by
  induction dirs with
  | nil => simp [firstFile, Overruns]
  | cons d rest ih =>
    rw [List.map_cons, firstFile, overruns_cons, ← ih]
    cases fs.file? (d.below components) with
    | error fault => simp [bind, Except.bind]
    | ok found => cases found <;> simp [bind, Except.bind, pure, Except.pure]

/-- A name that leads out is not looked for. -/
theorem loadTemplate_of_leaves (h : Path.Leaves name) : e.loadTemplate fs name = .error (.notFound name []) := by
  rw [loadTemplate, findFile, if_neg (by simp [Path.leaves_iff.mp h])]
  rfl

/-- A name that does not lead out is looked for by its components below each of the directories. -/
theorem join_of_not_leaves (h : ¬ Path.Leaves name) :
    isInside (.ofString name) = true ∧ ∀ d : Path, d.join (.ofString name) = d.below (Path.ofString name).parts := by
  have hinside : isInside (.ofString name) = true := by simpa [Path.leaves_iff] using h
  obtain ⟨hrelative, -⟩ : (Path.ofString name).isAbsolute = false ∧ _ := by simpa [isInside] using hinside
  exact ⟨hinside, Path.join_of_relative hrelative⟩

theorem findFile_of_not_leaves (h : ¬ Path.Leaves name) : e.findFile fs name =
    match firstFile fs (e.config.dirs.map (·.below (Path.ofString name).parts)) with
    | .ok (some bytes) => .ok bytes
    | .ok none => .error (.notFound name (e.config.dirs.map fun d => (d.below (Path.ofString name).parts).toString))
    | .error _ => .error .nameTooLong := by
  obtain ⟨hinside, hjoin⟩ := join_of_not_leaves h
  rw [findFile, if_pos hinside]
  simp only [hjoin, List.map_map]
  rfl

/-- A file is found under a name just if a directory has it. -/
theorem findFile_eq_ok_iff_hits (h : ¬ Path.Leaves name) :
    e.findFile fs name = .ok bytes ↔ ∃ dir, Hits fs (Path.ofString name).parts e.config.dirs dir bytes := by
  obtain ⟨hinside, hjoin⟩ := join_of_not_leaves h
  simp only [findFile_eq_ok_iff, IsFirst, hinside, true_and, hjoin]
  constructor
  · rintro ⟨before, dir, after, hfirst⟩
    exact ⟨dir, before, after, hfirst⟩
  · rintro ⟨dir, before, after, hfirst⟩
    exact ⟨before, dir, after, hfirst⟩

/-- A name is not found just if no directory has a file for it. -/
theorem findFile_eq_notFound_iff (h : ¬ Path.Leaves name) {n : String} {searched : List String} :
    e.findFile fs name = .error (.notFound n searched) ↔ Misses fs (Path.ofString name).parts e.config.dirs ∧
      n = name ∧ searched = e.config.dirs.map fun d => (d.below (Path.ofString name).parts).toString := by
  rw [findFile_of_not_leaves h, ← firstFile_eq_none_iff]
  cases firstFile fs (e.config.dirs.map (·.below (Path.ofString name).parts)) with
  | error fault => simp
  | ok found => cases found <;> simp [eq_comm]

/-- It is never found out just if a path is too long before a file is found. -/
theorem findFile_eq_nameTooLong_iff (h : ¬ Path.Leaves name) :
    e.findFile fs name = .error .nameTooLong ↔ Overruns fs (Path.ofString name).parts e.config.dirs := by
  rw [findFile_of_not_leaves h, ← firstFile_eq_error_iff]
  cases firstFile fs (e.config.dirs.map (·.below (Path.ofString name).parts)) with
  | error fault => simp
  | ok found => cases found <;> simp

/-- A template has the text of the file that the call for it reads. -/
theorem source_of_reads {e' : Engine} (hreads : e.Reads fs name bytes) (h : e.getTemplate fs name = .ok (t, e')) :
    Files.decode e.config.encoding bytes = .ok t.source := by
  obtain ⟨hlookup, hfind⟩ := hreads
  rw [getTemplate_of_lookup_eq_none hlookup] at h
  obtain ⟨⟨source, nodes, ⟨hinside, found, hfirst, hdecode⟩, -, rfl⟩, -⟩ := loadTemplate_eq_ok_iff.mp h
  obtain rfl : found = bytes := Except.ok.inj ((findFile_eq_ok_iff.mpr ⟨hinside, hfirst⟩).symm.trans hfind)
  exact hdecode

/-- A call for a template that is not kept fails over its file as looking for the file does. -/
theorem getTemplate_eq_error_iff {fault : EngineError} (hdecode : ∀ f, fault ≠ .undecodable f)
    (hcompile : ∀ f, fault ≠ .compile f) : e.getTemplate fs name = .error fault ↔
      e.cache.lookup name = none ∧ e.findFile fs name = .error fault := by
  cases hlookup : e.cache.lookup name with
  | some t => simp [getTemplate_of_lookup_eq_some hlookup]
  | none =>
    rw [getTemplate_of_lookup_eq_none hlookup, loadTemplate]
    cases hfind : e.findFile fs name with
    | error reason => simp [bind, Except.bind]
    | ok bytes =>
      cases hbytes : Files.decode e.config.encoding bytes with
      | error f => simp [bind, Except.bind, hbytes, throw, throwThe, MonadExceptOf.throw, (hdecode f).symm]
      | ok source =>
        cases hmake : e.ofString source (some name) with
        | error f => simp [bind, Except.bind, hbytes, hmake, throw, throwThe, MonadExceptOf.throw, (hcompile f).symm]
        | ok made => simp [bind, Except.bind, hbytes, hmake, pure, Except.pure]

/-- No template is kept under a name that leads out. -/
def KeepsInside (e : Engine) : Prop := ∀ name t, e.cache.lookup name = some t → ¬ Path.Leaves name

end Engine

namespace Site

open Engine

variable {s : Site} {events : List SiteEvent} {name : String} {t : Template}

/-- Only a name that does not lead out can be answered, if the templates that are kept have such names. -/
theorem not_leaves_of_answer (hs : s.engine.KeepsInside) (h : s.answer name = .ok t) : ¬ Path.Leaves name := by
  cases hlookup : s.engine.cache.lookup name with
  | some kept => exact hs name kept hlookup
  | none =>
    obtain ⟨e, hget⟩ := answer_eq_ok_iff.mp h
    rw [getTemplate_of_lookup_eq_none hlookup] at hget
    intro hleaves
    rw [loadTemplate_of_leaves hleaves] at hget
    cases hget

theorem keepsInside_after (hs : s.engine.KeepsInside) (event : SiteEvent) : (s.after event).engine.KeepsInside := by
  intro name t h
  rw [lookup_after] at h
  cases event with
  | change files => exact hs name t h
  | clear => cases h
  | get other =>
    dsimp only at h
    split_ifs at h with hother
    · cases hanswer : s.answer name with
      | ok t => exact not_leaves_of_answer hs hanswer
      | error fault =>
        rw [hanswer] at h
        cases h
    · exact hs name t h

theorem keepsInside_run (hs : s.engine.KeepsInside) (events : List SiteEvent) : (s.run events).engine.KeepsInside := by
  induction events generalizing s with
  | nil => exact hs
  | cons event rest ih => exact ih (keepsInside_after hs event)

/-- Whatever has happened to files and templates: a name that leads out is not found, whatever files there are. Any
other name stands for components that are names in a directory. A call reads the file of the first directory that has
one at these components, its text is that of the template, and it lies below the directory. If there is none, a call
reports the name with one path in each of the directories, in order. Only a path that is too long makes it fail to find
out. -/
theorem getTemplate_confined (hs : s.engine.cache = []) (events : List SiteEvent) (name : String) :
    let now := s.run events
    let dirs := now.engine.config.dirs
    (Path.Leaves name → ∀ files, now.engine.getTemplate files name = .error (.notFound name [])) ∧
      (¬ Path.Leaves name → ∃ components, Path.Spells name components ∧ (∀ c ∈ components, Path.IsEntryName c) ∧
        (∀ bytes, now.engine.Reads now.files name bytes ↔
          now.engine.cache.lookup name = none ∧ ∃ dir, Hits now.files components dirs dir bytes) ∧
        (∀ bytes t e, now.engine.Reads now.files name bytes → now.engine.getTemplate now.files name = .ok (t, e) →
          Files.decode now.engine.config.encoding bytes = .ok t.source) ∧
        (∀ dir bytes, Hits now.files components dirs dir bytes → ∃ place, now.files.locate dir = .ok (some place) ∧
          now.files.contents.lookup (place ++ components) = some bytes) ∧
        (∀ n searched, now.engine.getTemplate now.files name = .error (.notFound n searched) ↔
          now.engine.cache.lookup name = none ∧ Misses now.files components dirs ∧ n = name ∧
            searched = dirs.map fun dir => (dir.below components).toString) ∧
        (now.engine.getTemplate now.files name = .error .nameTooLong ↔
          now.engine.cache.lookup name = none ∧ Overruns now.files components dirs)) := by
  intro now dirs
  have hkeeps : now.engine.KeepsInside := keepsInside_run (by intro name t h; simp [hs] at h) events
  refine ⟨fun hleaves files => ?_, fun hstays => ?_⟩
  · rw [getTemplate_of_lookup_eq_none, loadTemplate_of_leaves hleaves]
    exact Option.eq_none_iff_forall_ne_some.mpr fun t ht => hkeeps name t ht hleaves
  · have hnames : ∀ c ∈ (Path.ofString name).parts, Path.IsEntryName c := fun c hc =>
      Path.isEntryName_of_mem hc fun hup => hstays (.inr ⟨_, Path.spells_iff.mpr rfl, hup ▸ hc⟩)
    refine ⟨_, Path.spells_iff.mpr rfl, hnames, fun bytes => ?_, fun bytes t e => source_of_reads,
      fun dir bytes hhits => ?_, fun n searched => ?_, ?_⟩
    · rw [Reads, findFile_eq_ok_iff_hits hstays]
    · obtain ⟨before, after, -, -, hfile⟩ := hhits
      exact Files.exists_locate_of_file?_below (fun hup => (hnames _ hup).notUp rfl) hfile
    · rw [getTemplate_eq_error_iff (by simp) (by simp), findFile_eq_notFound_iff hstays]
    · rw [getTemplate_eq_error_iff (by simp) (by simp), findFile_eq_nameTooLong_iff hstays]

/-- When there is a file in each of the two directories, slashes and dots that do not count lead to the one in the first.
A name that goes up on the way is not found, though it would lead there again. -/
theorem getTemplate_confined_notes :
    let now := notes.run (notesEvents.drop 3)
    now.engine.Reads now.files ".//note/." (plainBytes "other") ∧
      now.engine.getTemplate now.files "a/.//../note" = .error (.notFound "a/.//../note" []) := by
  intro now
  have hleaves : Path.Leaves "a/.//../note" := Path.leaves_iff.mpr (by decide +kernel)
  have hstays : ¬ Path.Leaves ".//note/." := by
    rw [Path.leaves_iff]
    decide +kernel
  obtain ⟨components, hspells, -, hreads, -⟩ :=
    (getTemplate_confined (s := notes) rfl (notesEvents.drop 3) ".//note/.").2 hstays
  obtain rfl : components = ["note"] := (Path.spells_iff.mp hspells).trans (by decide +kernel)
  refine ⟨(hreads _).mpr ⟨rfl, ⟨"/", ["new"]⟩, [], [⟨"/", ["old"]⟩], rfl, List.forall_mem_nil _, ?_⟩,
    (getTemplate_confined (s := notes) rfl (notesEvents.drop 3) "a/.//../note").1 hleaves _⟩
  decide +kernel

/-- A name that is too long for a file is not reported as one that is not found, though no directory has such a file. -/
theorem getTemplate_of_long_name :
    let name := String.ofList (List.replicate 256 'n')
    ¬ Path.Leaves name ∧
      (∀ dir ∈ notes.engine.config.dirs, ∀ bytes, notes.files.file? (dir.below [name]) ≠ .ok (some bytes)) ∧
      notes.engine.getTemplate notes.files name = .error .nameTooLong := by
  intro name
  have hlist : name.toList = List.replicate 256 'n' := String.toList_ofList
  have hspells : Path.Spells name [name] :=
    Path.spells_singleton (fun h => absurd (List.eq_of_mem_replicate h) (by decide)) (by decide) (by decide)
  have hstays : ¬ Path.Leaves name := by
    rintro (hroot | ⟨components, hcomponents, hup⟩)
    · rw [hlist] at hroot
      exact absurd hroot (by decide)
    · obtain rfl : components = [name] := (Path.spells_iff.mp hcomponents).trans (Path.spells_iff.mp hspells).symm
      have hname := congrArg String.toList (List.mem_singleton.mp hup)
      rw [hlist] at hname
      exact absurd hname (by decide)
  have hnew : notes.files.file? (Path.below ⟨"/", ["new"]⟩ [name]) = .ok none := by decide +kernel
  have hold : notes.files.file? (Path.below ⟨"/", ["old"]⟩ [name]) = .error .mk := by decide +kernel
  refine ⟨hstays, fun dir hdir bytes hfile => ?_, ?_⟩
  · obtain rfl | rfl : dir = ⟨"/", ["new"]⟩ ∨ dir = ⟨"/", ["old"]⟩ := by simpa [notes] using hdir
    · cases hnew.symm.trans hfile
    · cases hold.symm.trans hfile
  · refine (getTemplate_eq_error_iff (by simp) (by simp)).mpr ⟨rfl, (findFile_eq_nameTooLong_iff hstays).mpr ?_⟩
    rw [← Path.spells_iff.mp hspells]
    exact ⟨[⟨"/", ["new"]⟩], ⟨"/", ["old"]⟩, [], rfl, List.forall_mem_singleton.mpr hnew, hold,
      Files.isTooLong_of_file?_eq_error hold⟩

end Site

end TextTemplate
