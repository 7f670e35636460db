import Mathlib
import TextTemplate.Config.Files
import TextTemplate.Proofs.Token.Reading
import TextTemplate.Proofs.Value.Children

/-!
# Which configurations are admitted

A configuration file is read into a configuration exactly if each of its settings is known and means something, and is
refused with a reason otherwise. Three things are outside of this: keys that are no texts cannot be listed as unknown,
integers that are too long cannot be written, and a document that counts as false is never looked at.
-/

namespace TextTemplate

namespace Config

variable {entries : List (Value × Value)} {id : Ident}

/-! ## Keys -/

/-- The texts among keys that all are texts. -/
theorem exists_texts {keys : List Value} (h : ∀ key ∈ keys, ∃ s, key = .text s) :
    ∃ texts : List String, keys = texts.map .text := by
  induction keys with
  | nil => exact ⟨[], rfl⟩
  | cons key rest ih =>
    obtain ⟨⟨s, rfl⟩, hrest⟩ := List.forall_mem_cons.mp h
    obtain ⟨texts, rfl⟩ := ih hrest
    exact ⟨s :: texts, rfl⟩

theorem unknownTexts_texts (texts : List String) :
    unknownTexts (texts.map .text) = .ok (texts.filter fun key => !knownKeys.contains key) := by
  induction texts with
  | nil => rfl
  | cons key rest ih =>
    rw [List.map_cons, unknownTexts, ih, List.filter_cons]
    cases knownKeys.contains key <;> rfl

theorem unknownTexts_of_not_text {key : Value} {keys : List Value} (hkey : key ∈ keys) (htext : ∀ s, key ≠ .text s) :
    unknownTexts keys = .error .unsupportedKind := by
  induction keys with
  | nil => cases hkey
  | cons first rest ih =>
    cases first with
    | text s =>
      have hrest : key ∈ rest := (List.mem_cons.mp hkey).resolve_left (htext s)
      rw [unknownTexts, ih hrest]
      rfl
    | _ => rfl

theorem keysOf?_mapping : keysOf? (.mapping id entries) = some (entries.map (·.1)) := rfl

theorem checkKeys_of_not_text {key : Value} (hkey : key ∈ entries.map (·.1)) (htext : ∀ s, key ≠ .text s) :
    checkKeys (.mapping id entries) = .error .unsupportedKind := by
  rw [checkKeys, keysOf?_mapping]
  dsimp only
  split_ifs
  · rw [unknownTexts_of_not_text hkey htext]
    rfl
  · rfl

theorem checkKeys_texts {texts : List String} (h : entries.map (·.1) = texts.map .text) :
    checkKeys (.mapping id entries) =
      if (texts.filter fun key => !knownKeys.contains key).isEmpty then .ok ()
      else .error (.unknownKeys (Text.sorted (texts.filter fun key => !knownKeys.contains key))) := by
  have hhashable : (texts.map Value.text).all Value.isHashable = true := by
    rw [List.all_eq_true]
    exact List.forall_mem_map.mpr fun _ _ => rfl
  rw [checkKeys, keysOf?_mapping, h]
  dsimp only
  rw [if_pos hhashable, unknownTexts_texts]
  rfl

theorem checkKeys_eq_ok_iff :
    checkKeys (.mapping id entries) = .ok () ↔ ∀ key ∈ entries.map (·.1), ∃ name ∈ knownKeys, key = .text name := by
  by_cases htexts : ∀ key ∈ entries.map (·.1), ∃ s, key = .text s
  · obtain ⟨texts, h⟩ := exists_texts htexts
    rw [checkKeys_texts h, h]
    simp
  · push Not at htexts
    obtain ⟨key, hkey, htext⟩ := htexts
    rw [checkKeys_of_not_text hkey htext]
    constructor
    · rintro ⟨⟩
    · intro h
      obtain ⟨name, -, hname⟩ := h key hkey
      exact absurd hname (htext name)

/-! ## Settings -/

/-- What a setting comes to: what its value means, or something else if it is left out. -/
inductive Setting {α : Type} (entries : List (Value × Value)) (key : String) (means : Value → α → Prop) (otherwise : α) :
    α → Prop
  | left (h : Value.keyedByText? key entries = none) : Setting entries key means otherwise otherwise
  | given {v : Value} {x : α} (h : Value.keyedByText? key entries = some v) (hx : means v x) :
    Setting entries key means otherwise x

theorem setting_of_eq_none {α : Type} {key : String} {means : Value → α → Prop} {otherwise x : α}
    (h : Value.keyedByText? key entries = none) : Setting entries key means otherwise x ↔ otherwise = x := by
  constructor
  · rintro (_ | ⟨hv, _⟩)
    · rfl
    · cases h.symm.trans hv
  · rintro rfl
    exact .left h

theorem setting_of_eq_some {α : Type} {key : String} {means : Value → α → Prop} {otherwise x : α} {v : Value}
    (h : Value.keyedByText? key entries = some v) : Setting entries key means otherwise x ↔ means v x := by
  constructor
  · rintro (hnone | ⟨hv, hx⟩)
    · cases h.symm.trans hnone
    · cases h.symm.trans hv
      exact hx
  · exact .given h

def IsText (v : Value) (s : String) : Prop := v = .text s

def IsTexts (v : Value) (texts : List String) : Prop := ∃ id, v = .list id (texts.map .text)

def IsPrecedence (v : Value) (p : Precedence) : Prop := v = .text p.label

/-- An entry of the libraries setting names a library and its target. -/
structure NamesLibrary (e : Value × Value) (library : String × String) : Prop where
  isWritable : e.1.isWritable = true
  name : e.1.written = library.1
  target : e.2 = .text library.2
  nonempty : library.2 ≠ ""

/-- The libraries that a value names, a later one in the place of an earlier one of the same name. A value that counts as
false names none, of whatever kind it is. -/
inductive NamesLibraries : Value → List (String × String) → Prop
  | untrue {v : Value} (h : v.isTrue (.empty 0) = false) : NamesLibraries v []
  | mapping {id : Ident} {libraries : List (Value × Value)} {named : List (String × String)}
    (h : List.Forall₂ NamesLibrary libraries named) : NamesLibraries (.mapping id libraries) (Entries.putAll [] named)

theorem texts?_eq_some_iff {items : List Value} {texts : List String} :
    texts? items = some texts ↔ items = texts.map .text := by
  constructor
  · intro h
    induction items generalizing texts with
    | nil =>
      cases h
      rfl
    | cons v rest ih =>
      cases v with
      | text s =>
        obtain ⟨more, hmore, rfl⟩ := Option.map_eq_some_iff.mp h
        rw [ih hmore, List.map_cons]
      | _ => cases h
  · rintro rfl
    induction texts with
    | nil => rfl
    | cons s rest ih =>
      rw [List.map_cons, texts?, ih]
      rfl

theorem textList_eq_ok_iff {key : String} {otherwise texts : List String} :
    textList entries key otherwise = .ok texts ↔ Setting entries key IsTexts otherwise texts := by
  rw [textList]
  cases hv : Value.keyedByText? key entries with
  | none => simp [setting_of_eq_none hv]
  | some v =>
    rw [setting_of_eq_some hv]
    cases v with
    | list id items =>
      have hmeans : IsTexts (.list id items) texts ↔ texts? items = some texts := by
        rw [texts?_eq_some_iff]
        exact ⟨fun ⟨_, h⟩ => (Value.list.inj h).2, fun h => ⟨id, by rw [h]⟩⟩
      rw [hmeans]
      dsimp only
      cases texts? items with
      | none => exact iff_of_false (by rintro ⟨⟩) (by rintro ⟨⟩)
      | some found => simp
    | _ => exact iff_of_false nofun (by rintro ⟨_, ⟨⟩⟩)

theorem textSetting_eq_ok_iff {key otherwise s : String} :
    textSetting entries key otherwise = .ok s ↔ Setting entries key IsText otherwise s := by
  rw [textSetting]
  cases hv : Value.keyedByText? key entries with
  | none => simp [setting_of_eq_none hv]
  | some v =>
    rw [setting_of_eq_some hv, IsText]
    cases v with
    | text t => simp
    | _ => exact iff_of_false nofun nofun

theorem written_eq_ok_iff {v : Value} {s : String} : written v = .ok s ↔ v.isWritable = true ∧ v.written = s := by
  rw [written]
  split_ifs with h <;> simp [h]

theorem readLibraries_eq_ok_iff {libraries : List (Value × Value)} {found result : List (String × String)} :
    readLibraries found libraries = .ok result ↔
      ∃ named, List.Forall₂ NamesLibrary libraries named ∧ result = Entries.putAll found named := by
  induction libraries generalizing found with
  | nil => simp [readLibraries, Entries.putAll, eq_comm]
  | cons e rest ih =>
    obtain ⟨key, target⟩ := e
    rw [readLibraries, bind_eq_ok_iff]
    constructor
    · rintro ⟨name, hname, hread⟩
      obtain ⟨hwritable, hname⟩ := written_eq_ok_iff.mp hname
      cases target with
      | text s =>
        dsimp only at hread
        split_ifs at hread with hempty
        obtain ⟨named, hnamed, rfl⟩ := ih.mp hread
        exact ⟨(name, s) :: named, .cons ⟨hwritable, hname, rfl, by simpa using hempty⟩ hnamed, rfl⟩
      | _ => cases hread
    · rintro ⟨named, hnamed, rfl⟩
      cases hnamed with
      | @cons _ library _ more h hmore =>
        obtain ⟨name, s⟩ := library
        obtain ⟨hwritable, hname, htarget, hnonempty⟩ := h
        refine ⟨name, written_eq_ok_iff.mpr ⟨hwritable, hname⟩, ?_⟩
        obtain rfl : target = .text s := htarget
        dsimp only
        rw [if_neg (by simpa using hnonempty)]
        exact ih.mpr ⟨more, hmore, rfl⟩

theorem isTrue_mapping {libraries : List (Value × Value)} :
    (Value.mapping id libraries).isTrue (.empty 0) = !libraries.isEmpty := by
  cases libraries <;> rfl

theorem librarySetting_eq_ok_iff {found : List (String × String)} :
    librarySetting entries = .ok found ↔ Setting entries "libraries" NamesLibraries [] found := by
  rw [librarySetting]
  cases hv : Value.keyedByText? "libraries" entries with
  | none => simp [setting_of_eq_none hv]
  | some v =>
    rw [setting_of_eq_some hv]
    dsimp only
    by_cases htrue : v.isTrue (.empty 0) = true
    · rw [if_pos htrue]
      cases v with
      | mapping id libraries =>
        dsimp only
        rw [readLibraries_eq_ok_iff]
        constructor
        · rintro ⟨named, hnamed, rfl⟩
          exact .mapping hnamed
        · rintro (huntrue | hnamed)
          · cases htrue.symm.trans huntrue
          · exact ⟨_, hnamed, rfl⟩
      | _ =>
        refine iff_of_false nofun ?_
        rintro ⟨huntrue⟩
        cases htrue.symm.trans huntrue
    · rw [if_neg htrue]
      constructor
      · rintro ⟨⟩
        exact .untrue (by simpa using htrue)
      · rintro (_ | hnamed)
        · rfl
        · rw [isTrue_mapping] at htrue
          obtain rfl := List.isEmpty_iff.mp (by simpa using htrue)
          cases hnamed
          rfl

theorem precedenceSetting_eq_ok_iff {p : Precedence} :
    precedenceSetting entries = .ok p ↔ Setting entries "precedence" IsPrecedence .latest p := by
  rw [precedenceSetting]
  cases hv : Value.keyedByText? "precedence" entries with
  | none => simp [setting_of_eq_none hv]
  | some v =>
    rw [setting_of_eq_some hv, IsPrecedence]
    dsimp only
    split
    · cases p <;> simp [Precedence.label]
    · cases p <;> simp [Precedence.label]
    · rename_i hlatest hearliest
      refine iff_of_false ?_ ?_
      · rw [bind_eq_ok_iff]
        rintro ⟨_, _, ⟨⟩⟩
      · rintro rfl
        cases p with
        | latest => exact hlatest rfl
        | earliest => exact hearliest rfl

/-! ## Configurations -/

/-- The entries of a mapping make up a configuration: every key is known, and every setting means what the configuration
has. -/
structure Accepts (base : Option Path) (entries : List (Value × Value)) (c : Config) : Prop where
  known : ∀ key ∈ entries.map (·.1), ∃ name ∈ knownKeys, key = .text name
  builtins : Setting entries "builtins" IsTexts defaultBuiltins c.builtins
  libraries : Setting entries "libraries" NamesLibraries [] c.libraries
  dirs : ∃ dirs, Setting entries "dirs" IsTexts [] dirs ∧ c.dirs = dirs.map (directory base)
  encoding : Setting entries "encoding" IsText "utf-8" c.encoding
  ifInvalid : Setting entries "string_if_invalid" IsText "" c.ifInvalid
  precedence : Setting entries "precedence" IsPrecedence .latest c.precedence

theorem ofValue_mapping_eq_ok_iff {base : Option Path} {c : Config} :
    ofValue (.mapping id entries) base = .ok c ↔ Accepts base entries c := by
  -- The settings are read one after the other, and none of them depends on another.
  rw [ofValue]
  simp only [bind_eq_ok_iff, textList_eq_ok_iff, librarySetting_eq_ok_iff, textSetting_eq_ok_iff,
    precedenceSetting_eq_ok_iff]
  constructor
  · rintro ⟨⟨⟩, hknown, builtins, hbuiltins, libraries, hlibraries, dirs, hdirs, encoding, hencoding, ifInvalid,
      hifInvalid, precedence, hprecedence, ⟨⟩⟩
    exact ⟨checkKeys_eq_ok_iff.mp hknown, hbuiltins, hlibraries, ⟨dirs, hdirs, rfl⟩, hencoding, hifInvalid, hprecedence⟩
  · rintro ⟨hknown, hbuiltins, hlibraries, ⟨dirs, hdirs, hseen⟩, hencoding, hifInvalid, hprecedence⟩
    refine ⟨(), checkKeys_eq_ok_iff.mpr hknown, _, hbuiltins, _, hlibraries, dirs, hdirs, _, hencoding, _, hifInvalid, _,
      hprecedence, ?_⟩
    rw [← hseen]
    rfl

/-! ## Refusals -/

/-- Why the entries of a mapping make up no configuration. -/
inductive Refuses (entries : List (Value × Value)) : ConfigFault → Prop
  | unknownKeys {keys : List String} (hkeys : keys ≠ [])
    (h : ∀ key, key ∈ keys ↔ .text key ∈ entries.map (·.1) ∧ key ∉ knownKeys) : Refuses entries (.unknownKeys keys)
  | notTexts {key : String} {v : Value} (hkey : key ∈ ["builtins", "dirs"])
    (hv : Value.keyedByText? key entries = some v) (h : ∀ texts, ¬ IsTexts v texts) : Refuses entries (.notTexts key)
  | librariesNotMapping {v : Value} (hv : Value.keyedByText? "libraries" entries = some v)
    (htrue : v.isTrue (.empty 0) = true) (h : ∀ id libraries, v ≠ .mapping id libraries) :
    Refuses entries .librariesNotMapping
  | libraryNotText {id : Ident} {libraries : List (Value × Value)} {e : Value × Value}
    (hv : Value.keyedByText? "libraries" entries = some (.mapping id libraries)) (he : e ∈ libraries)
    (hname : e.1.isWritable = true) (htarget : ∀ s, e.2 = .text s → s = "") :
    Refuses entries (.libraryNotText e.1.written)
  | notText {key : String} {v : Value} (hkey : key ∈ ["encoding", "string_if_invalid"])
    (hv : Value.keyedByText? key entries = some v) (h : ∀ s, ¬ IsText v s) : Refuses entries (.notText key)
  | badPrecedence {v : Value} (hv : Value.keyedByText? "precedence" entries = some v) (hwritable : v.isWritable = true)
    (h : ∀ p, ¬ IsPrecedence v p) : Refuses entries (.badPrecedence v.written)

/-- The author of a configuration is told why it is refused. -/
theorem Refuses.message {f : ConfigFault} (h : Refuses entries f) : f.message?.isSome = true := by
  cases h <;> rfl

section Errors

variable {f : ConfigFault}

end Errors

/-! ## Files -/

/-- The configuration of a path is in a file, which holds a document. -/
structure Holds (fs : Files) (fileName : String) (path file : Path) (document : Value) : Prop where
  place : (fs.isDirectory path = .ok true ∧ file = path.join (.ofString fileName)) ∨
    (fs.isDirectory path = .ok false ∧ file = path)
  text : ∃ bytes text, fs.file? file = .ok (some bytes) ∧ Files.decode "utf-8" bytes = .ok text ∧
    Yaml.parse text.toList = .ok document

section Load

variable {fs : Files} {fileName : String} {path file : Path} {document : Value}
  (h : Holds fs fileName path file document)
include h

end Load

end Config

end TextTemplate
