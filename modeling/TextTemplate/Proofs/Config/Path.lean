import TextTemplate.Config.Files
import TextTemplate.Proofs.Text.Separators
import TextTemplate.Proofs.Token.Reading

/-!
# Where paths lead

A path is written as its components with slashes between them; empty components and single dots do not count. Following
components that do not go up from a place leads to the place that has them added to it, so a path that is a directory
with such components behind it leads below the directory.
-/

namespace TextTemplate

namespace Path

variable {text : String} {components : List String} {p d : Path}

/-- A text is written from components: they are what stands between its slashes, without what is empty or a single
dot. -/
def Spells (text : String) (components : List String) : Prop :=
  ∃ pieces : List (List Char), text.toList = ['/'].intercalate pieces ∧ (∀ piece ∈ pieces, '/' ∉ piece) ∧
    components = (pieces.filter fun piece => piece ≠ [] ∧ piece ≠ ['.']).map String.ofList

/-- The path of some more components, seen from a directory. -/
def below (d : Path) (components : List String) : Path := ⟨d.root, d.parts ++ components⟩

/-- A component that is the name of something in a directory. -/
structure IsEntryName (component : String) : Prop where
  notEmpty : component ≠ ""
  notHere : component ≠ "."
  notUp : component ≠ ".."
  noSlash : '/' ∉ component.toList

/-- The components that are read are those that the text is written from. -/
theorem spells_iff : Spells text components ↔ components = (ofString text).parts := by
  have hparts (pieces : List (List Char)) : (pieces.filter fun piece => !piece.isEmpty && piece != ['.']) =
      pieces.filter fun piece => piece ≠ [] ∧ piece ≠ ['.'] := by
    refine List.filter_congr fun piece _ => ?_
    rw [Bool.eq_iff_iff]
    simp
  rw [ofString, Text.splitAtChar_eq_splitOn]
  constructor
  · rintro ⟨pieces, htext, hslash, rfl⟩
    rw [htext]
    cases pieces with
    | nil => simp
    | cons piece rest => rw [List.splitOn_intercalate '/' hslash (List.cons_ne_nil piece rest), hparts]
  · rintro rfl
    refine ⟨text.toList.splitOn '/', (List.intercalate_splitOn '/').symm, ?_, by rw [hparts]⟩
    intro piece hpiece
    rw [← Text.splitAtChar_eq_splitOn] at hpiece
    exact Text.not_mem_of_mem_splitAtChar hpiece

/-- A text without slashes is written from itself, unless it is empty or a single dot. -/
theorem spells_singleton {piece : List Char} (hslash : '/' ∉ piece) (hempty : piece ≠ []) (hdot : piece ≠ ['.']) :
    Spells (String.ofList piece) [String.ofList piece] :=
  ⟨[piece], by simp, by simpa using hslash, by simp [hempty, hdot]⟩

/-- A path is absolute if it starts with a slash. -/
theorem isAbsolute_ofString : (ofString text).isAbsolute = true ↔ text.toList.head? = some '/' := by
  rw [isAbsolute, ofString]
  cases text.toList with
  | nil => simp [rootOf]
  | cons c rest =>
    by_cases hc : c = '/'
    · subst hc
      unfold rootOf
      split <;> simp_all
    · simp [rootOf, hc]

theorem join_of_relative (h : p.isAbsolute = false) (d : Path) : d.join p = d.below p.parts := by
  rw [join, if_neg (by simp [h]), below]

@[simp] theorem below_parts (d : Path) (components : List String) :
    (d.below components).parts = d.parts ++ components := rfl

@[simp] theorem below_isAbsolute (d : Path) (components : List String) :
    (d.below components).isAbsolute = d.isAbsolute := rfl

/-- Components that are added are written behind those there are. -/
theorem exists_intercalate_append (parts components : List String) :
    ∃ more, "/".intercalate (parts ++ components) = "/".intercalate parts ++ more := by
  induction parts with
  | nil => exact ⟨"/".intercalate components, rfl⟩
  | cons part rest ih =>
    cases rest with
    | nil =>
      cases components with
      | nil => exact ⟨"", (String.append_empty).symm⟩
      | cons c cs =>
        refine ⟨"/" ++ "/".intercalate (c :: cs), ?_⟩
        rw [List.singleton_append, String.intercalate_cons_cons, String.append_assoc]
        rfl
    | cons next rest =>
      obtain ⟨more, hmore⟩ := ih
      refine ⟨more, ?_⟩
      rw [List.cons_append, List.cons_append, String.intercalate_cons_cons, String.intercalate_cons_cons,
        ← List.cons_append, hmore, String.append_assoc, String.append_assoc, String.append_assoc]

/-- A directory has no longer a path than what is below it, unless it is the working directory. -/
theorem toString_size_le (d : Path) (components : List String) :
    d.toString.utf8ByteSize ≤ max 1 (d.below components).toString.utf8ByteSize := by
  by_cases hhere : (d.root.isEmpty && d.parts.isEmpty) = true
  · rw [toString, if_pos hhere]
    exact Nat.le_max_left _ _
  · have hbelow : ¬ ((d.below components).root.isEmpty && (d.below components).parts.isEmpty) = true := by
      intro h
      obtain ⟨hroot, hparts⟩ : d.root = "" ∧ d.parts = [] ∧ components = [] := by simpa [below] using h
      simp [hroot, hparts] at hhere
    obtain ⟨more, hmore⟩ := exists_intercalate_append d.parts components
    have hsplit : (d.below components).toString = d.toString ++ more := by
      rw [toString, if_neg hbelow, toString, if_neg hhere, below_parts, hmore, String.append_assoc]
      rfl
    rw [hsplit, String.utf8ByteSize_append]
    exact (Nat.le_add_right _ _).trans (Nat.le_max_right _ _)

end Path

namespace Files

variable {fs : Files} {start place : List String} {components : List String} {p d : Path} {bytes : ByteArray}
  {fault : NameTooLong}

/-- Components are followed one after the other. -/
theorem resolve_append (fs : Files) (start components more : List String) :
    fs.resolve start (components ++ more) = (do
      match ← fs.resolve start components with
      | some place => fs.resolve place more
      | none => return none) := by
  induction components generalizing start with
  | nil => rw [resolve]; rfl
  | cons component rest ih =>
    rw [List.cons_append, resolve, resolve]
    split_ifs
    · rfl
    · exact ih start.dropLast
    · rfl
    · exact ih (start ++ [component])

/-- Components that do not go up lead to what has them added. -/
theorem resolve_eq_append (hup : ".." ∉ components) (h : fs.resolve start components = .ok (some place)) :
    place = start ++ components := by
  induction components generalizing start with
  | nil =>
    rw [resolve] at h
    obtain rfl : start = place := by simpa using h
    exact (List.append_nil start).symm
  | cons component rest ih =>
    obtain ⟨hcomponent, hrest⟩ : ".." ≠ component ∧ ".." ∉ rest := by simpa using hup
    rw [resolve] at h
    split_ifs at h with hfolder hparent hsize
    · cases h
    · exact absurd (by simpa using hparent) hcomponent.symm
    · rw [ih hrest h, List.append_assoc, List.singleton_append]

/-- Only a component that is too long makes it fail to follow components. -/
theorem exists_long_of_resolve_eq_error (h : fs.resolve start components = .error fault) :
    ∃ component ∈ components, maxNameSize < component.utf8ByteSize := by
  induction components generalizing start with
  | nil =>
    rw [resolve] at h
    cases h
  | cons component rest ih =>
    rw [resolve] at h
    split_ifs at h with hfolder hparent hsize
    · obtain ⟨c, hc, hlong⟩ := ih h
      exact ⟨c, List.mem_cons_of_mem _ hc, hlong⟩
    · exact ⟨component, List.mem_cons_self, hsize⟩
    · obtain ⟨c, hc, hlong⟩ := ih h
      exact ⟨c, List.mem_cons_of_mem _ hc, hlong⟩

/-- The path is longer than any file can have it, as a whole or in one of its components. -/
def IsTooLong (p : Path) : Prop :=
  maxPathSize < p.toString.utf8ByteSize ∨ ∃ component ∈ p.parts, maxNameSize < component.utf8ByteSize

/-- Looking for a file fails only if its path is too long. -/
theorem isTooLong_of_file?_eq_error (h : fs.file? p = .error fault) : IsTooLong p := by
  rw [file?] at h
  cases hlocate : fs.locate p with
  | ok found =>
    rw [hlocate] at h
    cases h
  | error fault' =>
    by_cases hsize : maxPathSize < p.toString.utf8ByteSize
    · exact .inl hsize
    · rw [locate, if_neg hsize] at hlocate
      exact .inr (exists_long_of_resolve_eq_error hlocate)

/-- The file at a path below a directory lies below the place of the directory. -/
theorem exists_locate_of_file?_below (hup : ".." ∉ components)
    (h : fs.file? (d.below components) = .ok (some bytes)) :
    ∃ place, fs.locate d = .ok (some place) ∧ fs.contents.lookup (place ++ components) = some bytes := by
  obtain ⟨found, hlocate, hfound⟩ := bind_eq_ok_iff.mp h
  obtain ⟨lower, rfl, hlookup⟩ : ∃ lower, found = some lower ∧ fs.contents.lookup lower = some bytes := by
    simpa [Option.bind_eq_some_iff] using Except.ok.inj hfound
  by_cases hsize : maxPathSize < (d.below components).toString.utf8ByteSize
  · rw [locate, if_pos hsize] at hlocate
    cases hlocate
  · have hsize' : ¬ maxPathSize < d.toString.utf8ByteSize := by
      have hle := d.toString_size_le components
      simp only [maxPathSize] at hsize ⊢
      omega
    rw [locate, if_neg hsize, Path.below_isAbsolute, Path.below_parts, resolve_append] at hlocate
    obtain ⟨upper, hupper, hlower⟩ := bind_eq_ok_iff.mp hlocate
    rw [locate, if_neg hsize', hupper]
    cases upper with
    | none => cases hlower
    | some place => exact ⟨place, rfl, resolve_eq_append hup hlower ▸ hlookup⟩

end Files

end TextTemplate
