import TextTemplate.Proofs.Config.Admission
import TextTemplate.Proofs.Config.Path
import TextTemplate.Proofs.Node.Assignment

/-!
# Configurations written and read again

A configuration that was read from a mapping is written as a mapping from which the same configuration is read. Reading
leaves little of how the mapping was written: paths lose what does not count in them, names of libraries become texts,
and settings that were left out get their values. What is left is a normal form, and a configuration in normal form
comes back as it is.
-/

namespace TextTemplate

/-! ## Paths -/

namespace Path

variable {p q : Path} {text part : String} {parts : List String}

/-- A component that counts in a path. -/
structure IsComponent (part : String) : Prop where
  notEmpty : part ≠ ""
  notHere : part ≠ "."
  noSlash : '/' ∉ part.toList

/-- A path as it is read from a text: with a root that there is, and with components that count. -/
structure IsNormal (p : Path) : Prop where
  root : p.root ∈ ["", "/", "//"]
  parts : ∀ part ∈ p.parts, IsComponent part

theorem rootOf_mem (s : List Char) : rootOf s ∈ ["", "/", "//"] := by
  unfold rootOf
  split <;> simp

theorem Spells.isComponent (h : Spells text parts) (hpart : part ∈ parts) : IsComponent part := by
  obtain ⟨pieces, -, hslash, rfl⟩ := h
  obtain ⟨piece, hpiece, rfl⟩ := List.mem_map.mp hpart
  obtain ⟨hpiece, hcounts⟩ := List.mem_filter.mp hpiece
  obtain ⟨hempty, hdot⟩ : piece ≠ [] ∧ piece ≠ ['.'] := by simpa using hcounts
  refine ⟨by simpa using hempty, fun h => hdot ?_, by simpa using hslash piece hpiece⟩
  rw [← String.toList_ofList (l := piece), h]
  rfl

theorem isNormal_ofString (text : String) : (ofString text).IsNormal where
  root := rootOf_mem text.toList
  parts _ hpart := (spells_iff.mpr rfl : Spells text (ofString text).parts).isComponent hpart

theorem IsNormal.join (hp : p.IsNormal) (hq : q.IsNormal) : (p.join q).IsNormal := by
  rw [Path.join]
  split
  · exact hq
  · exact ⟨hp.root, fun part hpart => (List.mem_append.mp hpart).elim (hp.parts part) (hq.parts part)⟩

/-- Components that count are what their text is written from. -/
theorem spells_intercalate (h : ∀ part ∈ parts, IsComponent part) : Spells ("/".intercalate parts) parts := by
  refine ⟨parts.map String.toList, String.toList_intercalate, ?_, ?_⟩
  · exact List.forall_mem_map.mpr fun part hpart => (h part hpart).noSlash
  · rw [List.filter_eq_self.mpr, List.map_map]
    · simp [Function.comp_def]
    · refine List.forall_mem_map.mpr fun part hpart => ?_
      have hdot : part.toList ≠ ['.'] := fun hd => (h part hpart).notHere (String.toList_inj.mp hd)
      simpa [hdot] using (h part hpart).notEmpty

/-- A slash in front adds no component. -/
theorem Spells.slash (h : Spells text parts) : Spells ("/" ++ text) parts := by
  rw [spells_iff] at h ⊢
  rw [h]
  have hsplit : Text.splitAtChar '/' ("/" ++ text).toList = [] :: Text.splitAtChar '/' text.toList := by
    have hempty : ∀ c ∈ ([] : List Char), c ≠ '/' := by simp
    rw [String.toList_append]
    exact Text.splitAtChar_append hempty text.toList
  simp only [ofString, hsplit]
  rfl

theorem IsNormal.spells (h : p.IsNormal) : Spells p.toString p.parts := by
  by_cases hhere : (p.root.isEmpty && p.parts.isEmpty) = true
  · obtain ⟨hroot, hparts⟩ : p.root = "" ∧ p.parts = [] := by simpa using hhere
    rw [toString, if_pos hhere, hparts]
    exact ⟨[['.']], by simp, by simp, by simp⟩
  · have htext := spells_intercalate h.parts
    rw [toString, if_neg hhere]
    obtain hroot | hroot | hroot : p.root = "" ∨ p.root = "/" ∨ p.root = "//" := by simpa using h.root
    · rw [hroot, String.empty_append]
      exact htext
    · rw [hroot]
      exact htext.slash
    · rw [hroot, show "//" = "/" ++ "/" from rfl, String.append_assoc]
      exact htext.slash.slash

theorem rootOf_append {root : String} {s : List Char} (hroot : root ∈ ["", "/", "//"]) (hs : s.head? ≠ some '/') :
    rootOf (root.toList ++ s) = root := by
  have hstart : rootOf s = "" ∧ rootOf ('/' :: s) = "/" ∧ rootOf ('/' :: '/' :: s) = "//" := by
    cases s with
    | nil => exact ⟨rfl, rfl, rfl⟩
    | cons c rest =>
      have hc : c ≠ '/' := by simpa using hs
      simp [rootOf, hc]
  obtain rfl | rfl | rfl : root = "" ∨ root = "/" ∨ root = "//" := by simpa using hroot
  · exact hstart.1
  · exact hstart.2.1
  · exact hstart.2.2

theorem head?_intercalate_ne (h : ∀ part ∈ parts, IsComponent part) :
    ("/".intercalate parts).toList.head? ≠ some '/' := by
  cases parts with
  | nil => simp
  | cons part rest =>
    obtain ⟨more, hmore⟩ := exists_intercalate_append [part] rest
    obtain ⟨hpart, -⟩ := List.forall_mem_cons.mp h
    obtain ⟨c, cs, hc⟩ := List.exists_cons_of_ne_nil (by simpa using hpart.notEmpty : part.toList ≠ [])
    have hslash : c ≠ '/' := fun hsame => hpart.noSlash (by simp [hc, hsame])
    rw [List.singleton_append] at hmore
    simp [hmore, hc, hslash]

/-- A path in normal form is read from what it is written as. -/
theorem IsNormal.ofString_toString (h : p.IsNormal) : ofString p.toString = p := by
  have hroot : rootOf p.toString.toList = p.root := by
    rw [toString]
    split
    · rename_i hhere
      obtain ⟨hroot, -⟩ : p.root = "" ∧ p.parts = [] := by simpa using hhere
      rw [hroot]
      rfl
    · rw [String.toList_append]
      exact rootOf_append h.root (head?_intercalate_ne h.parts)
  have hparts : (ofString p.toString).parts = p.parts := (spells_iff.mp h.spells).symm
  calc ofString p.toString = ⟨rootOf p.toString.toList, (ofString p.toString).parts⟩ := rfl
    _ = p := by rw [hroot, hparts]

end Path

/-! ## Configurations -/

namespace Config

variable {c : Config}

/-- A configuration as reading leaves it: the names of its libraries are all different, none of their targets is empty,
and its directories are in normal form. -/
structure IsNormal (c : Config) : Prop where
  names : (c.libraries.map (·.1)).Nodup
  targets : ∀ library ∈ c.libraries, library.2 ≠ ""
  dirs : ∀ d ∈ c.dirs, d.IsNormal

theorem directory_isNormal {base : Option Path} (hbase : ∀ b ∈ base, b.IsNormal) (entry : String) :
    (directory base entry).IsNormal := by
  cases base with
  | none => exact Path.isNormal_ofString entry
  | some b => exact (hbase b rfl).join (Path.isNormal_ofString entry)

/-- Libraries that are named have different names and targets that are not empty. -/
theorem NamesLibraries.nodup {v : Value} {libraries : List (String × String)} (h : NamesLibraries v libraries) :
    (libraries.map (·.1)).Nodup := by
  cases h with
  | untrue => exact List.nodup_nil
  | mapping => exact Entries.nodup_keys_putAll _ List.nodup_nil

theorem NamesLibraries.targets {v : Value} {libraries : List (String × String)} (h : NamesLibraries v libraries) :
    ∀ library ∈ libraries, library.2 ≠ "" := by
  cases h with
  | untrue => simp
  | @mapping _ entries named hnamed =>
    have hflip : List.Forall₂ (fun library e => NamesLibrary e library) named entries := hnamed.flip
    have hnonempty := ((List.forall₂_and_left named entries).mp (hflip.imp fun _ _ h => ⟨h.nonempty, h⟩)).1
    exact fun library hlibrary => hnonempty library ((Entries.mem_of_mem_putAll hlibrary).resolve_left List.not_mem_nil)

theorem exists_namesLibraries {entries : List (Value × Value)} {libraries : List (String × String)}
    (h : Setting entries "libraries" NamesLibraries [] libraries) : ∃ v, NamesLibraries v libraries := by
  cases h with
  | left => exact ⟨.none, .untrue rfl⟩
  | given _ hnames => exact ⟨_, hnames⟩

theorem Accepts.isNormal {entries : List (Value × Value)} {base : Option Path} (hbase : ∀ b ∈ base, b.IsNormal)
    (h : Accepts base entries c) : c.IsNormal := by
  obtain ⟨_, hnames⟩ := exists_namesLibraries h.libraries
  obtain ⟨dirs, -, hdirs⟩ := h.dirs
  refine ⟨hnames.nodup, hnames.targets, ?_⟩
  rw [hdirs]
  exact List.forall_mem_map.mpr fun entry _ => directory_isNormal hbase entry

theorem isNormal_of_ofValue {v : Value} {base : Option Path} (hbase : ∀ b ∈ base, b.IsNormal)
    (h : ofValue v base = .ok c) : c.IsNormal := by
  cases v with
  | mapping id entries => exact (ofValue_mapping_eq_ok_iff.mp h).isNormal hbase
  | _ =>
    obtain ⟨_, -, ⟨⟩⟩ := bind_eq_ok_iff.mp h

theorem IsNormal.namesLibraries (h : c.IsNormal) (id : Ident) :
    NamesLibraries (.mapping id (c.libraries.map fun e => (.text e.1, .text e.2))) c.libraries := by
  have hnamed : List.Forall₂ NamesLibrary (c.libraries.map fun e => (.text e.1, .text e.2)) c.libraries := by
    rw [List.forall₂_map_left_iff, List.forall₂_same]
    exact fun library hlibrary => ⟨rfl, rfl, rfl, h.targets library hlibrary⟩
  have hread : NamesLibraries (.mapping id _) _ := .mapping hnamed
  rwa [Entries.putAll_of_nodup h.names, List.nil_append] at hread

/-- A configuration in normal form is read from what it is written as, from a place where its directories are seen as
they are. -/
theorem IsNormal.ofValue_toValue {base : Option Path} (h : c.IsNormal)
    (hbase : ∀ b ∈ base, ∀ d ∈ c.dirs, b.join d = d) : ofValue c.toValue base = .ok c := by
  have hdirectory (d : Path) (hd : d ∈ c.dirs) : directory base d.toString = d := by
    cases base with
    | none => exact (h.dirs d hd).ofString_toString
    | some b =>
      rw [directory, (h.dirs d hd).ofString_toString]
      exact hbase b rfl d hd
  rw [toValue, ofValue_mapping_eq_ok_iff]
  -- every setting is given, and only the directories are read as something else than they are written
  refine ⟨by simp [knownKeys], .given rfl ⟨0, rfl⟩, .given rfl (h.namesLibraries 0), ?_, .given rfl rfl, .given rfl rfl,
    .given rfl rfl⟩
  refine ⟨c.dirs.map Path.toString, .given rfl ⟨0, rfl⟩, ?_⟩
  rw [List.map_map]
  exact (List.map_id' c.dirs).symm.trans (List.map_congr_left fun d hd => (hdirectory d hd).symm)

/-- A configuration that was read, from whatever place, is read again from what it is written as, and writing it once
more changes nothing. Without a place to see directories from they stay as they are; if all of them are absolute, then
any place will do. -/
theorem toValue_reads_back {v : Value} {base : Option String} (h : ofValue v (base.map Path.ofString) = .ok c) :
    ofValue c.toValue none = .ok c ∧ (ofValue c.toValue none).map toValue = .ok c.toValue ∧
      ((∀ d ∈ c.dirs, d.isAbsolute = true) → ∀ place, ofValue c.toValue place = .ok c) := by
  have hnormal : c.IsNormal := by
    refine isNormal_of_ofValue (fun b hb => ?_) h
    obtain ⟨text, -, rfl⟩ := Option.map_eq_some_iff.mp hb
    exact Path.isNormal_ofString text
  have hread : ofValue c.toValue none = .ok c := hnormal.ofValue_toValue (by simp)
  refine ⟨hread, by rw [hread]; rfl, fun habsolute place => hnormal.ofValue_toValue fun b _ d hd => ?_⟩
  rw [Path.join, if_pos (habsolute d hd)]

/-- Settings in which two libraries have one name and directories are written at length. -/
def looseSettings : Value :=
  .mapping 0 [
    (.text "libraries", .mapping 1 [(.int 1, .text "pkg.a"), (.text "1", .text "pkg.b:register")]),
    (.text "dirs", .list 2 [.text "t//./u/", .text "//abs/..", .text ""]),
    (.text "precedence", .text "earliest")]

def looseConfig : Config where
  builtins := defaultBuiltins
  libraries := [("1", "pkg.b:register")]
  dirs := [⟨"/", ["conf", "t", "u"]⟩, ⟨"//", ["abs", ".."]⟩, ⟨"/", ["conf"]⟩]
  encoding := "utf-8"
  ifInvalid := ""
  precedence := .earliest

theorem looseConfig_reads_back :
    ofValue looseSettings (some (.ofString "/conf/.")) = .ok looseConfig ∧
      ofValue looseConfig.toValue none = .ok looseConfig ∧
      ofValue looseConfig.toValue (some (.ofString "elsewhere")) = .ok looseConfig := by
  have hread : ofValue looseSettings ((some "/conf/.").map Path.ofString) = .ok looseConfig := by
    decide +kernel
  obtain ⟨hback, -, hplaces⟩ := toValue_reads_back hread
  exact ⟨hread, hback, hplaces (by decide) _⟩

end Config

end TextTemplate
