import TextTemplate.Proofs.Expression.Literals
import TextTemplate.Proofs.Expression.Steady
import TextTemplate.Proofs.Tag.Header
import TextTemplate.Proofs.Value.Children

/-!
# Positions in nested data

Every position in nested mappings and lists has a path: the keys and the indices on the way, joined by dots. The text is
first tried as a number, as a string and as a word for a literal, but a letter in front rules out the first two. An
entry of a mapping goes before whatever the mapping offers under the same name, and an index is the name of nothing that
a list offers. A path that leaves the data fails at the segment where it does.
-/

namespace TextTemplate

open Text

/-! ## Paths as they are written -/

namespace Operand

/-- A segment of a path: a name of word characters that does not start with an underscore. -/
def IsSegment (key : String) : Prop := IsName key ∧ key.toList.head? ≠ some '_'

instance : DecidablePred IsSegment := fun key =>
  inferInstanceAs (Decidable (IsName key ∧ key.toList.head? ≠ some '_'))

/-- The look-up of a path that is written as its segments, joined by dots. -/
def dotted (first : String) (rest : List String) : Operand := ⟨".".intercalate (first :: rest), .path first rest⟩

variable {first : String} {rest : List String}

theorem toList_dotted_cons (first next : String) (rest : List String) :
    (dotted first (next :: rest)).source.toList = first.toList ++ '.' :: (dotted next rest).source.toList := by
  simp [dotted, String.intercalate_cons_cons]

theorem splitAtChar_dotted (h : ∀ key ∈ first :: rest, IsSegment key) :
    splitAtChar '.' (dotted first rest).source.toList = (first :: rest).map String.toList := by
  induction rest generalizing first with
  | nil =>
    have hfirst := (h first List.mem_cons_self).1.ne (c := '.') (by decide)
    simpa [dotted] using splitAtChar_eq_singleton hfirst
  | cons next rest ih =>
    obtain ⟨hfirst, hrest⟩ := List.forall_mem_cons.mp h
    rw [toList_dotted_cons, splitAtChar_append (hfirst.1.ne (by decide)), ih hrest]
    rfl

theorem checkSegments_eq_ok (source : String) {segments : List String} (h : ∀ key ∈ segments, IsSegment key) :
    checkSegments source (segments.map String.toList) = .ok () := by
  induction segments with
  | nil => rfl
  | cons key rest ih =>
    obtain ⟨hkey, hrest⟩ := List.forall_mem_cons.mp h
    obtain ⟨c, more, hcons⟩ := List.exists_cons_of_ne_nil (l := key.toList) (by simpa using hkey.1.ne_empty)
    have hc : c ≠ '_' := by simpa [hcons] using hkey.2
    rw [List.map_cons, hcons, checkSegments, if_neg (by simpa using hc), ih hrest]

theorem path_dotted (h : ∀ key ∈ first :: rest, IsSegment key) :
    path (dotted first rest).source.toList = .ok (.path first rest) := by
  have hback : ((first :: rest).map String.toList).map String.ofList = first :: rest := by simp
  rw [path, splitAtChar_dotted h]
  simp only [checkSegments_eq_ok _ h, hback]

/-- The path starts as its first segment does, and consists of word characters and dots. -/
theorem dotted_chars (h : ∀ key ∈ first :: rest, IsSegment key) :
    (dotted first rest).source.toList.head? = first.toList.head? ∧
      ∀ c ∈ (dotted first rest).source.toList, isWord c = true ∨ c = '.' := by
  induction rest generalizing first with
  | nil =>
    have hfirst := (h first List.mem_cons_self).1.word
    simpa [dotted] using fun c hc => Or.inl (hfirst c hc)
  | cons next rest ih =>
    obtain ⟨hfirst, hrest⟩ := List.forall_mem_cons.mp h
    rw [toList_dotted_cons]
    refine ⟨List.head?_append_of_ne_nil _ (by simpa using hfirst.1.ne_empty), fun c hc => ?_⟩
    rcases List.mem_append.mp hc with hc | hc
    · exact .inl (hfirst.1.word c hc)
    · rcases List.mem_cons.mp hc with rfl | hc
      · exact .inr rfl
      · exact (ih hrest).2 c hc

theorem keyword?_eq_none {s : String} (h : s ∉ ["True", "False", "None"]) : keyword? s.toList = none := by
  have hother (word : String) (hword : word ∈ ["True", "False", "None"]) : ¬ (s.toList == word.toList) = true := by
    rw [beq_iff_eq, String.toList_inj]
    rintro rfl
    exact h hword
  have htrue := hother "True" (by decide)
  have hfalse := hother "False" (by decide)
  have hnone := hother "None" (by decide)
  rw [keyword?]
  exact (if_neg htrue).trans ((if_neg hfalse).trans (if_neg hnone))

/-- A path that starts with a letter is read as the look-up of its segments, unless it is one of three words. -/
theorem ofString_dotted (h : ∀ key ∈ first :: rest, IsSegment key)
    (hletter : ∀ c ∈ first.toList.head?, isLetter c = true)
    (hword : (dotted first rest).source ∉ ["True", "False", "None"]) :
    ofString (dotted first rest).source = .ok (dotted first rest) := by
  obtain ⟨hhead, -⟩ := dotted_chars h
  have hne : first.toList ≠ [] := by simpa using (h first List.mem_cons_self).1.ne_empty
  obtain ⟨c, name, hcons⟩ := List.exists_cons_of_ne_nil hne
  rw [hcons, List.head?_cons] at hhead hletter
  obtain ⟨more, hsource⟩ := List.head?_eq_some_iff.mp hhead
  have hc : isLetter c = true := hletter c rfl
  have hchar := isWord_of_isLetter hc
  have hnot {d : Char} (hd : isWord d = false) : c ≠ d := by
    rintro rfl
    rw [hchar] at hd
    cases hd
  have hnumber : number? (dotted first rest).source.toList = .ok none := by
    rw [hsource]
    exact number?_eq_none (isBlank_eq_false_of_isWord hchar) (hnot (by decide)) (hnot (by decide)) (hnot (by decide))
      (digit?_of_isLetter hc) more
  have hquote : quotedBody? (dotted first rest).source.toList = none := by
    rw [hsource, quotedBody?, isQuote_eq_false_of (p := isWord) (by decide) (by decide) hchar]
    rfl
  rw [ofString, ofChars, meaningOf, hnumber]
  dsimp only
  rw [hquote]
  dsimp only
  rw [keyword?_eq_none hword]
  dsimp only
  rw [path_dotted h]
  dsimp only
  rw [String.ofList_toList]
  rfl

theorem compile_dotted (lookup : FilterLookup) (h : ∀ key ∈ first :: rest, IsSegment key)
    (hletter : ∀ c ∈ first.toList.head?, isLetter c = true)
    (hword : (dotted first rest).source ∉ ["True", "False", "None"]) :
    Pipeline.compile lookup (dotted first rest).source = .ok ⟨(dotted first rest).source, dotted first rest, []⟩ := by
  obtain ⟨hhead, hchars⟩ := dotted_chars h
  have hne : (dotted first rest).source.toList ≠ [] := by
    intro hnil
    rw [hnil, List.head?_nil, eq_comm, List.head?_eq_none_iff] at hhead
    exact (h first List.mem_cons_self).1.ne_empty (by simpa using hhead)
  have hreads : Pipeline.Reads (dotted first rest).source.toList (dotted first rest).source.toList [] :=
    ⟨[], (List.append_nil _).symm, .word hne hchars, .nil⟩
  exact Pipeline.compile_of_reads hreads rfl (ofString_dotted h hletter hword) .nil

end Operand

/-! ## Nested data -/

namespace Value

/-- The keys are texts, and each stands there once. -/
def hasTextKeys : List (Value × Value) → Bool
  | [] => true
  | (.text key, _) :: rest => (keyedByText? key rest).isNone && hasTextKeys rest
  | _ :: _ => false

mutual

/-- Mappings with texts as keys and lists, to any depth, down to values that are no functions. -/
def isNested : Value → Bool
  | list _ items => allNested items
  | mapping _ entries => hasTextKeys entries && allNestedUnder entries
  | hostFunction .. => false
  | _ => true

def allNested : List Value → Bool
  | [] => true
  | v :: rest => v.isNested && allNested rest

def allNestedUnder : List (Value × Value) → Bool
  | [] => true
  | (_, v) :: rest => v.isNested && allNestedUnder rest

end

/-- The value has nothing under a segment: no entry, nothing that it offers by this name, no item at this index. -/
structure Lacks (st : Store) (v : Value) (segment : String) : Prop where
  key : ∀ id entries, v = .mapping id entries → ∀ w, (.text segment, w) ∉ st.pick id entries
  offered : v.method? segment = Option.none ∧ v.attribute? segment = Option.none
  index : ∀ n, Integer.ofString? segment = some n → v.itemAt? st n = Option.none

end Value

/-! ## Following a path -/

namespace Operand

variable {st : Store} {v : Value}

/-- Data with keys that are also the names of operations, and one that is written like a number. -/
def shelf : Value :=
  .mapping 0 [(.text "items", .list 1 [.int 7, .mapping 2 [(.text "clear", .text "x"), (.text "1e5", .none)]])]

end Operand

end TextTemplate
