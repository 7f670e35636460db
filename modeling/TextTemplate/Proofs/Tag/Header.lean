import TextTemplate.Proofs.Compile.Directive
import TextTemplate.Proofs.Expression.Written
import TextTemplate.Proofs.Text.Separators

/-!
# Headers as they are written

The header of a tag can be written from what it is to say: loop names with commas between them, the sequence
after `in`, assignments with an equals sign, operands and candidates with blanks between them. Each reader of a
header reads from it what was written.
-/

namespace TextTemplate

namespace Text

theorem isWord_of_isAlpha {c : Char} (h : c.isAlpha = true) : isWord c = true := by
  have hascii : isAscii c = true := by
    delta Char.isAlpha Char.isUpper Char.isLower at h
    simp only [Bool.or_eq_true, Bool.and_eq_true, decide_eq_true_eq, UInt32.le_iff_toNat_le] at h
    simp only [isAscii, decide_eq_true_eq, Char.toNat]
    rcases h with ⟨-, hle⟩ | ⟨-, hle⟩
    · exact lt_of_le_of_lt hle (by decide)
    · exact lt_of_le_of_lt hle (by decide)
  simp [isWord, hascii, Char.isAlphanum, h]

/-- A name of word characters. -/
def IsName (name : String) : Prop := allOf isWord name.toList = true

instance : DecidablePred IsName := fun name => inferInstanceAs (Decidable (allOf isWord name.toList = true))

variable {name : String}

theorem isName_iff : IsName name ↔ name ≠ "" ∧ ∀ c ∈ name.toList, isWord c = true := by
  simp [IsName, allOf]

theorem IsName.ne_empty (h : IsName name) : name ≠ "" := (isName_iff.mp h).1

theorem IsName.word (h : IsName name) : ∀ c ∈ name.toList, isWord c = true := (isName_iff.mp h).2

theorem IsName.plain (h : IsName name) : ∀ c ∈ name.toList, Bits.isPlain c = true :=
  fun c hc => isPlain_of_isWord (h.word c hc)

theorem IsName.solid (h : IsName name) : Bits.Solid name.toList := by
  simpa using Bits.solid_append h.plain .nil

theorem IsName.ne {c : Char} (h : IsName name) (hc : isWord c = false) : ∀ d ∈ name.toList, d ≠ c := by
  rintro d hd rfl
  rw [h.word d hd] at hc
  cases hc

theorem IsName.trimBy_eq (h : IsName name) : trimBy (· == ' ') name.toList = name.toList :=
  trimBy_eq_self fun c hc => by simpa using h.ne (by decide) c hc

end Text

namespace Header

open Text

/-! ## Loops -/

/-- A name that a loop can bind and that is not taken for the word before the sequence. -/
def IsLoopName (name : String) : Prop := isLoopName name.toList = true ∧ name ≠ "in"

instance : DecidablePred IsLoopName := fun name =>
  inferInstanceAs (Decidable (isLoopName name.toList = true ∧ name ≠ "in"))

theorem IsLoopName.isName {name : String} (h : IsLoopName name) : IsName name := by
  have hloop := h.1
  cases hs : name.toList with
  | nil =>
    rw [hs] at hloop
    cases hloop
  | cons c rest =>
    rw [hs, isLoopName, Bool.and_eq_true, List.all_eq_true] at hloop
    refine isName_iff.mpr ⟨fun hempty => ?_, hs ▸ List.forall_mem_cons.mpr ⟨isWord_of_isAlpha hloop.1, hloop.2⟩⟩
    rw [hempty] at hs
    cases hs

/-- Names, each but the last with a comma after it. -/
def commaBits : List String → List String
  | [] => []
  | [name] => [name]
  | name :: next :: rest => (name ++ ",") :: commaBits (next :: rest)

theorem commaBits_ne_nil {names : List String} (h : names ≠ []) : commaBits names ≠ [] := by
  match names with
  | [] => exact absurd rfl h
  | [_] => simp [commaBits]
  | _ :: _ :: _ => simp [commaBits]

/-- The last name has no comma. -/
theorem commaBits_getLast? (names : List String) : (commaBits names).getLast? = names.getLast? := by
  fun_induction commaBits names with
  | case1 | case2 => rfl
  | case3 name next rest ih =>
    rw [List.getLast?_cons_of_ne_nil (commaBits_ne_nil (List.cons_ne_nil next rest)), ih]
    rfl

theorem commaBits_solid {names : List String} (h : ∀ name ∈ names, IsName name) :
    ∀ bit ∈ commaBits names, Bits.Solid bit.toList ∧ bit ≠ "" := by
  fun_induction commaBits names with
  | case1 => simp
  | case2 name => simpa using ⟨(h name (by simp)).solid, (h name (by simp)).ne_empty⟩
  | case3 name next rest ih =>
    obtain ⟨hname, hrest⟩ := List.forall_mem_cons.mp h
    refine List.forall_mem_cons.mpr ⟨⟨?_, by simp⟩, ih hrest⟩
    rw [String.toList_append]
    exact Bits.solid_append hname.plain (.plain (by decide) .nil)

/-- A blank in front is taken off the first name. -/
theorem commaNames_blank (s : String) : commaNames (" " ++ s) = commaNames s := by
  obtain ⟨part, parts, hparts⟩ := List.exists_cons_of_ne_nil (splitAtChar_ne_nil ',' s.toList)
  have hblank : splitAtChar ',' (" " ++ s).toList = (' ' :: part) :: parts := by
    simp [splitAtChar, hparts]
  rw [commaNames, commaNames, hblank, hparts]
  rfl

/-- A name up to its comma is the first of the names. -/
theorem commaNames_cons {name : String} (h : IsName name) (rest : String) :
    commaNames (name ++ "," ++ rest) = name :: commaNames rest := by
  have hsplit : splitAtChar ',' (name ++ "," ++ rest).toList = name.toList :: splitAtChar ',' rest.toList := by
    simpa using splitAtChar_append (h.ne (by decide)) rest.toList
  rw [commaNames, hsplit, List.map_cons, h.trimBy_eq, String.ofList_toList]
  rfl

/-- A name without a comma is the only one. -/
theorem commaNames_name {name : String} (h : IsName name) : commaNames name = [name] := by
  have hsplit : splitAtChar ',' name.toList = [name.toList] := splitAtChar_eq_singleton (h.ne (by decide))
  simp [commaNames, hsplit, h.trimBy_eq]

/-- Names with commas between them are read as these names. -/
theorem commaNames_commaBits {names : List String} (hne : names ≠ []) (h : ∀ name ∈ names, IsName name) :
    commaNames (" ".intercalate (commaBits names)) = names := by
  fun_induction commaBits names with
  | case1 => exact absurd rfl hne
  | case2 name => exact commaNames_name (h name (by simp))
  | case3 name next rest ih =>
    obtain ⟨hname, hrest⟩ := List.forall_mem_cons.mp h
    obtain ⟨bit, bits, hbits⟩ := List.exists_cons_of_ne_nil (commaBits_ne_nil (List.cons_ne_nil next rest))
    have hjoin : " ".intercalate ((name ++ ",") :: commaBits (next :: rest)) =
        name ++ "," ++ (" " ++ " ".intercalate (commaBits (next :: rest))) := by
      rw [hbits, String.intercalate_cons_cons]
      exact String.append_assoc
    rw [hjoin, commaNames_cons hname, commaNames_blank, ih (by simp) hrest]

theorem checkLoopNames_eq_ok_iff {names : List String} :
    checkLoopNames names = .ok () ↔ ∀ name ∈ names, isLoopName name.toList = true := by
  induction names with
  | nil => simp [checkLoopNames]
  | cons name rest ih =>
    rw [checkLoopNames, List.forall_mem_cons]
    split_ifs with hname
    · rw [ih, and_iff_right hname]
    · exact ⟨nofun, fun h => absurd h.1 hname⟩

theorem exists_of_checkLoopNames_eq_error {names : List String} {fault : HeaderFault}
    (h : checkLoopNames names = .error fault) : ∃ name, fault = .loopVariable name := by
  induction names with
  | nil => cases h
  | cons name rest ih =>
    rw [checkLoopNames] at h
    split_ifs at h
    · exact ih h
    · cases h
      exact ⟨name, rfl⟩

/-- The bits of a header fall into a part with the names, the word `in` and the sequence. A final `reversed` turns the
loop round whenever it can, that is when the word `in` and something before it are still there without it. -/
inductive Divides : List String → List String → String → Bool → Prop
  | reversed {part : List String} (names : part ≠ []) (sequence : String) :
      Divides (part ++ ["in", sequence, "reversed"]) part sequence true
  | forward {part : List String} {sequence : String} (names : part ≠ [])
      (notReversed : sequence = "reversed" → part.getLast? = some "in" → part = ["in"]) :
      Divides (part ++ ["in", sequence]) part sequence false

section Reading

variable {header : String} {part : List String} {sequence : String} {reversed : Bool}

/-- The names of the part are checked, and that is all that is still checked. -/
theorem loop_of_divides (h : Divides (Bits.ofString header) part sequence reversed) : loop header = do
    checkLoopNames (commaNames (" ".intercalate part))
    return ⟨commaNames (" ".intercalate part), sequence, reversed⟩ := by
  generalize hbits : Bits.ofString header = bits at h
  have hread (part : List String) (sequence : String) (reversed : Bool) :
      loopOfReversedBits header reversed (sequence :: "in" :: part.reverse) = do
        checkLoopNames (commaNames (" ".intercalate part))
        return ⟨commaNames (" ".intercalate part), sequence, reversed⟩ := by
    rw [loopOfReversedBits, List.reverse_reverse]
  rw [loop, hbits]
  cases h with
  | reversed hnames =>
    have hlong : ¬ (part ++ ["in", sequence, "reversed"]).length < 3 := by simp
    have hsome : part.reverse.isEmpty = false := by simpa using hnames
    rw [if_neg hlong, ← hread]
    simp [hsome]
  | forward hnames hnotReversed =>
    have hlong : ¬ (part ++ ["in", sequence]).length < 3 := by
      have := List.length_pos_iff.mpr hnames
      simp only [List.length_append, List.length_cons, List.length_nil]
      omega
    have hreverse : (part ++ ["in", sequence]).reverse = sequence :: "in" :: part.reverse := by simp
    rw [if_neg hlong, ← hread, hreverse]
    split
    · -- the last word is `reversed`, but nothing would be left for the names
      rename_i sequence' names' heq
      obtain ⟨rfl, -, hlast⟩ : sequence = "reversed" ∧ "in" = sequence' ∧ part.reverse = "in" :: names' := by
        simpa using heq
      have hin : part.getLast? = some "in" := by
        rw [List.getLast?_eq_head?_reverse, hlast]
        rfl
      obtain rfl : part = ["in"] := hnotReversed rfl hin
      obtain rfl : [] = names' := by simpa using hlast
      rfl
    · rfl

theorem loopOfReversedBits_cases (header : String) (reversed : Bool) (bits : List String) :
    (∃ sequence names, bits = sequence :: "in" :: names) ∨
      loopOfReversedBits header reversed bits = .error (.loopFormat header) := by
  unfold loopOfReversedBits
  split
  · exact .inl ⟨_, _, rfl⟩
  · exact .inr rfl

/-- A header whose bits do not fall into such parts is refused over its form. -/
theorem divides_or_loopFormat (header : String) :
    (∃ part sequence reversed, Divides (Bits.ofString header) part sequence reversed) ∨
      loop header = .error (.loopFormat header) := by
  rw [loop]
  generalize Bits.ofString header = bits
  split_ifs with hshort
  · exact .inr rfl
  have hforward {sequence : String} {names : List String} (hreverse : bits.reverse = sequence :: "in" :: names)
      (hnotReversed : sequence = "reversed" → ∀ names', names = "in" :: names' → names' = []) :
      Divides bits names.reverse sequence false := by
    have hbits : bits = names.reverse ++ ["in", sequence] := by simpa using List.reverse_eq_iff.mp hreverse
    rw [hbits]
    refine .forward (fun hnil => ?_) fun hreversed hin => ?_
    · exact hshort (by simp [hbits, hnil])
    · rw [List.getLast?_reverse, List.head?_eq_some_iff] at hin
      obtain ⟨names', rfl⟩ := hin
      rw [hnotReversed hreversed names' rfl]
      rfl
  split
  · rename_i sequence names hreverse
    split_ifs with hnone
    · refine (loopOfReversedBits_cases header false bits.reverse).imp_left ?_
      rintro ⟨sequence', names', hreverse'⟩
      obtain ⟨-, -, rfl⟩ : "reversed" = sequence' ∧ sequence = "in" ∧ "in" :: names = names' := by
        simpa using hreverse.symm.trans hreverse'
      exact ⟨_, _, _, hforward hreverse' fun _ names' h => (List.cons.inj h).2 ▸ List.isEmpty_iff.mp hnone⟩
    · have hbits : bits = names.reverse ++ ["in", sequence, "reversed"] := by
        simpa using List.reverse_eq_iff.mp hreverse
      rw [hbits]
      exact .inl ⟨_, _, _, .reversed (by simpa using hnone) sequence⟩
  · rename_i hother
    refine (loopOfReversedBits_cases header false bits.reverse).imp_left ?_
    rintro ⟨sequence, names, hreverse⟩
    refine ⟨_, _, _, hforward hreverse fun hreversed names' hnames => ?_⟩
    rw [hreverse, hreversed, hnames] at hother
    exact absurd rfl (hother "in" names')

/-- A loop header is accepted just if its bits fall into parts and every item of the part with the names is a name. -/
theorem loop_eq_ok_iff {l : Loop} : loop header = .ok l ↔ ∃ part,
    Divides (Bits.ofString header) part l.sequence l.reversed ∧ commaNames (" ".intercalate part) = l.names ∧
      ∀ name ∈ l.names, isLoopName name.toList = true := by
  have hchecked {part : List String} {sequence : String} {reversed : Bool}
      (h : Divides (Bits.ofString header) part sequence reversed) : loop header = .ok l ↔
        (∀ name ∈ commaNames (" ".intercalate part), isLoopName name.toList = true) ∧
          (⟨commaNames (" ".intercalate part), sequence, reversed⟩ : Loop) = l := by
    rw [loop_of_divides h, ← checkLoopNames_eq_ok_iff]
    constructor
    · intro hl
      obtain ⟨⟨⟩, hnames, hl⟩ := bind_eq_ok_iff.mp hl
      exact ⟨hnames, Except.ok.inj hl⟩
    · rintro ⟨hnames, rfl⟩
      exact bind_eq_ok_iff.mpr ⟨(), hnames, rfl⟩
  constructor
  · intro hl
    rcases divides_or_loopFormat header with ⟨part, sequence, reversed, h⟩ | hrefused
    · obtain ⟨hnames, rfl⟩ := (hchecked h).mp hl
      exact ⟨part, h, rfl, hnames⟩
    · rw [hrefused] at hl
      cases hl
  · rintro ⟨part, h, hpart, hnames⟩
    exact (hchecked h).mpr ⟨hpart ▸ hnames, by rw [hpart]⟩

end Reading

/-- The bits of a loop header. -/
def loopBits (names : List String) (sequence : String) (reversed : Bool) : List String :=
  commaBits names ++ ["in", sequence] ++ if reversed then ["reversed"] else []

theorem loopBits_solid {names : List String} {sequence : String} (h : ∀ name ∈ names, IsName name)
    (hsequence : Bits.Solid sequence.toList ∧ sequence ≠ "") (reversed : Bool) :
    ∀ bit ∈ loopBits names sequence reversed, Bits.Solid bit.toList ∧ bit ≠ "" := by
  have hin : IsName "in" := by decide
  have hreversed : IsName "reversed" := by decide
  intro bit hbit
  rw [loopBits, List.mem_append, List.mem_append] at hbit
  rcases hbit with (hname | hbit) | hbit
  · exact commaBits_solid h bit hname
  · rcases List.mem_pair.mp hbit with rfl | rfl
    · exact ⟨hin.solid, hin.ne_empty⟩
    · exact hsequence
  · cases reversed
    · cases hbit
    · obtain rfl : bit = "reversed" := by simpa using hbit
      exact ⟨hreversed.solid, hreversed.ne_empty⟩

/-- A loop header is read as the loop that it was written for. -/
theorem loop_loopBits {names : List String} {sequence : String} (hne : names ≠ [])
    (h : ∀ name ∈ names, IsLoopName name) (hsequence : Bits.Solid sequence.toList ∧ sequence ≠ "")
    (reversed : Bool) :
    loop (" ".intercalate (loopBits names sequence reversed)) = .ok ⟨names, sequence, reversed⟩ := by
  have hbits := Bits.ofString_intercalate
    (loopBits_solid (fun name hname => (h name hname).isName) hsequence reversed)
  have hnames := commaNames_commaBits hne fun name hname => (h name hname).isName
  have hlast : (commaBits names).getLast? ≠ some "in" := by
    rw [commaBits_getLast?]
    exact fun hin => (h "in" (List.mem_of_mem_getLast? hin)).2 rfl
  refine loop_eq_ok_iff.mpr ⟨commaBits names, ?_, hnames, fun name hname => (h name hname).1⟩
  rw [hbits]
  cases reversed with
  | true => simpa [loopBits] using Divides.reversed (commaBits_ne_nil hne) sequence
  | false => simpa [loopBits] using Divides.forward (commaBits_ne_nil hne) fun _ hin => absurd hin hlast

/-! ## Assignments -/

/-- An assignment as it is written. -/
def assignmentBit (assigned : String × Expression) : String := assigned.1 ++ "=" ++ assigned.2.source

theorem toList_assignmentBit (name : String) (e : Expression) :
    (assignmentBit (name, e)).toList = name.toList ++ '=' :: e.source.toList := by
  simp [assignmentBit]

/-- An assignment is read as its name and its expression. -/
theorem assignment_assignmentBit {name : String} {e : Expression} (hname : IsName name) (he : e.source ≠ "")
    (hline : '\n' ∉ e.source.toList) : assignment (assignmentBit (name, e)) = .ok (name, e.source) := by
  have hbit := toList_assignmentBit name e
  have hequals : isWord '=' = false := by decide
  have htake : (assignmentBit (name, e)).toList.takeWhile isWord = name.toList := by
    rw [hbit, List.takeWhile_append_of_pos hname.word]
    simp [hequals]
  have hdrop : (assignmentBit (name, e)).toList.dropWhile isWord = '=' :: e.source.toList := by
    rw [hbit, List.dropWhile_append_of_pos hname.word]
    simp [hequals]
  have hread : assignment? (assignmentBit (name, e)).toList = some (name, e.source) := by
    have hwritten : (name.toList.isEmpty || e.source.toList.isEmpty || e.source.toList.contains '\n') = false := by
      simp [hname.ne_empty, he, hline]
    rw [assignment?, htake, hdrop]
    simp only [hwritten, Bool.false_eq_true, if_false, String.ofList_toList]
  rw [assignment, hread]

theorem assignmentBit_solid {name : String} {e : Expression} (hname : IsName name)
    (he : Bits.Solid e.source.toList) :
    Bits.Solid (assignmentBit (name, e)).toList ∧ assignmentBit (name, e) ≠ "" := by
  have hbit := toList_assignmentBit name e
  refine ⟨?_, fun hempty => ?_⟩
  · rw [hbit]
    exact Bits.solid_append hname.plain (.plain (by decide) he)
  · rw [hempty] at hbit
    simp at hbit

/-- An assignment is not the word between an expression and its name. -/
theorem assignmentBit_ne_as (assigned : String × Expression) : assignmentBit assigned ≠ "as" := by
  intro has
  have hmem : '=' ∈ "as".toList := has ▸ by simp [assignmentBit]
  exact absurd hmem (by decide)

end Header

/-! ## Readers -/

namespace HeaderReader

open Text Header

variable {lookup : FilterLookup}

/-- An expression that compiles to itself and has no blank outside its strings. -/
structure IsBit (lookup : FilterLookup) (e : Expression) : Prop where
  compiles : Pipeline.compile lookup e.source = .ok e
  blankFree : BlankFree e.source.toList

theorem IsBit.solid {e : Expression} (h : IsBit lookup e) : Bits.Solid e.source.toList ∧ e.source ≠ "" := by
  obtain ⟨-, hne, -, hsolid⟩ := Pipeline.compile_eq_ok h.compiles
  exact ⟨hsolid h.blankFree, hne⟩

theorem sources_solid {es : List Expression} (h : ∀ e ∈ es, IsBit lookup e) :
    ∀ bit ∈ es.map Expression.source, Bits.Solid bit.toList ∧ bit ≠ "" := by
  intro bit hbit
  obtain ⟨e, he, rfl⟩ := List.mem_map.mp hbit
  exact (h e he).solid

theorem expressions_sources {es : List Expression} (h : ∀ e ∈ es, IsBit lookup e) :
    expressions lookup (es.map Expression.source) = .ok es := by
  induction es with
  | nil => rfl
  | cons e es ih =>
    obtain ⟨he, hes⟩ := List.forall_mem_cons.mp h
    rw [List.map_cons, expressions, he.compiles, ih hes]
    rfl

/-- Candidates with blanks between them are read as these candidates. -/
theorem candidates_written {es : List Expression} (hne : es ≠ []) (h : ∀ e ∈ es, IsBit lookup e) :
    Trimmed (" ".intercalate (es.map Expression.source)).toList ∧
      candidates lookup (" ".intercalate (es.map Expression.source)) = .ok es := by
  have hsolid := sources_solid h
  have hsome : (es.map Expression.source).isEmpty = false := by simpa using hne
  refine ⟨(Bits.trimmed_intercalate hsolid).1, ?_⟩
  unfold candidates
  rw [Bits.ofString_intercalate hsolid]
  simp only [hsome, Bool.false_eq_true, if_false]
  exact expressions_sources h

/-- Two operands with a blank between them are read as these operands. -/
theorem operands_written {left right : Expression} (hleft : IsBit lookup left) (hright : IsBit lookup right)
    (tag : String) :
    Trimmed (" ".intercalate [left.source, right.source]).toList ∧
      operands lookup tag (" ".intercalate [left.source, right.source]) = .ok (left, right) := by
  have hsolid : ∀ bit ∈ [left.source, right.source], Bits.Solid bit.toList ∧ bit ≠ "" :=
    List.forall_mem_cons.mpr ⟨hleft.solid, by simpa using hright.solid⟩
  refine ⟨(Bits.trimmed_intercalate hsolid).1, ?_⟩
  rw [operands_pair (Bits.ofString_intercalate hsolid), hleft.compiles, hright.compiles]
  rfl

/-- A loop header is read as its names, its sequence and its direction. -/
theorem loop_written {names : List String} {sequence : Expression} (hne : names ≠ [])
    (h : ∀ name ∈ names, IsLoopName name) (hsequence : IsBit lookup sequence) (reversed : Bool) :
    Trimmed (" ".intercalate (loopBits names sequence.source reversed)).toList ∧
      loop lookup (" ".intercalate (loopBits names sequence.source reversed)) =
        .ok (⟨names, sequence.source, reversed⟩, sequence) := by
  have hsolid := loopBits_solid (fun name hname => (h name hname).isName) hsequence.solid reversed
  refine ⟨(Bits.trimmed_intercalate hsolid).1, ?_⟩
  rw [loop, loop_loopBits hne h hsequence.solid]
  simp only [hsequence.compiles]
  rfl

/-- What can be bound to a name: a bit on one line. -/
structure IsAssigned (lookup : FilterLookup) (assigned : String × Expression) : Prop where
  name : IsName assigned.1
  bit : IsBit lookup assigned.2
  line : '\n' ∉ assigned.2.source.toList

theorem assignments_written {found : List (String × Expression)} (h : ∀ a ∈ found, IsAssigned lookup a) :
    assignments lookup (found.map assignmentBit) = .ok found := by
  induction found with
  | nil => rfl
  | cons a found ih =>
    obtain ⟨ha, hfound⟩ := List.forall_mem_cons.mp h
    rw [List.map_cons, assignments, assignment_assignmentBit ha.name ha.bit.solid.2 ha.line]
    simp only [ha.bit.compiles, ih hfound]
    rfl

/-- Assignments with blanks between them are read as these assignments. -/
theorem bindings_written {found : List (String × Expression)} (hne : found ≠ [])
    (h : ∀ a ∈ found, IsAssigned lookup a) :
    Trimmed (" ".intercalate (found.map assignmentBit)).toList ∧
      bindings lookup (" ".intercalate (found.map assignmentBit)) = .ok found := by
  have hsolid : ∀ bit ∈ found.map assignmentBit, Bits.Solid bit.toList ∧ bit ≠ "" := by
    intro bit hbit
    obtain ⟨a, ha, rfl⟩ := List.mem_map.mp hbit
    exact assignmentBit_solid (h a ha).name (h a ha).bit.solid.1
  have hbits := Bits.ofString_intercalate hsolid
  have hother : ∀ source name,
      Bits.ofString (" ".intercalate (found.map assignmentBit)) ≠ [source, "as", name] := by
    intro source name has
    rw [hbits] at has
    obtain ⟨a, -, ha⟩ := List.mem_map.mp (has ▸ by simp : "as" ∈ found.map assignmentBit)
    exact assignmentBit_ne_as a ha
  have hsome : found.isEmpty = false := by simpa using hne
  refine ⟨(Bits.trimmed_intercalate hsolid).1, ?_⟩
  rw [bindings_assignments hother, hbits, assignments_written h]
  simp only [bind, Except.bind, hsome, Bool.false_eq_true, if_false]
  rfl

/-- An expression and a name with `as` between them are read as one assignment. -/
theorem bindings_alias_written {name : String} {e : Expression} (he : IsBit lookup e) (hname : IsName name) :
    Trimmed (" ".intercalate [e.source, "as", name]).toList ∧
      bindings lookup (" ".intercalate [e.source, "as", name]) = .ok [(name, e)] := by
  have has : IsName "as" := by decide
  have hsolid : ∀ bit ∈ [e.source, "as", name], Bits.Solid bit.toList ∧ bit ≠ "" := by
    simpa using ⟨he.solid, has.solid, hname.solid, hname.ne_empty⟩
  refine ⟨(Bits.trimmed_intercalate hsolid).1, ?_⟩
  rw [bindings_alias (Bits.ofString_intercalate hsolid), he.compiles]
  rfl

theorem parse_empty (compile : Condition.OperandCompiler) : ∃ e, Condition.parse compile "" = .error e := by
  have htokens : ConditionToken.ofString "" = .ok [⟨.ending, "", 0⟩] := by
    rw [ConditionToken.ofString]
    unfold ConditionToken.scan
    rfl
  rw [Condition.parse, htokens]
  exact ⟨_, rfl⟩

/-- A condition is read from its text. -/
theorem condition_written {text : String} {c : Condition}
    (h : Condition.parse (Pipeline.compile lookup) text = .ok c) (tag : String) :
    condition lookup tag text = .ok c := by
  have hne : text ≠ "" := by
    rintro rfl
    obtain ⟨e, he⟩ := parse_empty (Pipeline.compile lookup)
    rw [he] at h
    cases h
  rw [condition, if_neg (by simpa using hne), h]

end HeaderReader

end TextTemplate
