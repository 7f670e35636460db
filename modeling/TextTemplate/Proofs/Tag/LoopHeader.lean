import TextTemplate.Proofs.Compile.Directive
import TextTemplate.Proofs.Expression.Position
import TextTemplate.Proofs.Tag.Header
import TextTemplate.Proofs.Token.Splitting

/-!
# Every way of writing a loop header

The names of a loop may have any blanks around their commas, line breaks included, or none at all. The header is split
at blanks first, so a bit may be a name, a comma, or several names with their commas; joined by single blanks and split
at commas, the bits give the names back. Where the part with the names ends is found from the end of the header, and
neither a sequence nor a name that is called `reversed`, nor a sequence that is called `in`, is taken for a word of the
header.
-/

namespace TextTemplate

namespace Header

open Text Bits

/-! ## Names as they may be written -/

/-- Blanks, and at least one of them. -/
def IsGap (gap : List Char) : Prop := gap ≠ [] ∧ ∀ c ∈ gap, isBlank c = true

/-- Names with commas between them, and any blanks around the commas. -/
inductive NamesText : List String → List Char → Prop
  | last (name : String) : NamesText [name] name.toList
  | cons {name : String} {names : List String} {text before after : List Char} (hbefore : ∀ c ∈ before, isBlank c = true)
      (hafter : ∀ c ∈ after, isBlank c = true) (others : NamesText names text) :
      NamesText (name :: names) (name.toList ++ before ++ ',' :: (after ++ text))

/-- A loop header as it may be written. -/
inductive LoopText (names : List String) (sequence : String) : Bool → List Char → Prop
  | forward {lead text gap gap' trail : List Char} (hlead : ∀ c ∈ lead, isBlank c = true) (htext : NamesText names text)
      (hgap : IsGap gap) (hgap' : IsGap gap') (htrail : ∀ c ∈ trail, isBlank c = true) :
      LoopText names sequence false (lead ++ (text ++ gap ++ ("in".toList ++ gap' ++ (sequence.toList ++ trail))))
  | reversed {lead text gap gap' gap'' trail : List Char} (hlead : ∀ c ∈ lead, isBlank c = true)
      (htext : NamesText names text) (hgap : IsGap gap) (hgap' : IsGap gap') (hgap'' : IsGap gap'')
      (htrail : ∀ c ∈ trail, isBlank c = true) :
      LoopText names sequence true (lead ++ (text ++ gap ++ ("in".toList ++ gap' ++
        (sequence.toList ++ gap'' ++ ("reversed".toList ++ trail)))))

/-! ## How they are split -/

/-- A bit and the blanks behind it. -/
structure IsPiece (piece : List Char × List Char) : Prop where
  nonempty : piece.1 ≠ []
  plain : ∀ c ∈ piece.1, isPlain c = true
  gap : IsGap piece.2

/-- The bits of some pieces. -/
def bitsOf (pieces : List (List Char × List Char)) : List String := pieces.map fun piece => String.ofList piece.1

/-- The text is laid out as pieces whose bits, joined by single blanks, are another text. The last of the bits is not
the word that comes before the sequence. -/
def LaidOut (text : List Char) (joined : String) : Prop :=
  ∃ pieces, pieces.flatMap (fun piece => piece.1 ++ piece.2) = text ∧ (∀ piece ∈ pieces, IsPiece piece) ∧
    " ".intercalate (bitsOf pieces) = joined ∧ bitsOf pieces ≠ [] ∧ (bitsOf pieces).getLast? ≠ some "in"

section LaidOut

variable {text bit gap after : List Char} {joined : String}

theorem laidOut_piece (h : IsPiece (bit, gap)) (hin : String.ofList bit ≠ "in") :
    LaidOut (bit ++ gap) (String.ofList bit) :=
  ⟨[(bit, gap)], by simp, by simpa using h, by simp [bitsOf], by simp [bitsOf], by simpa [bitsOf] using hin⟩

theorem LaidOut.cons (h : LaidOut text joined) (hpiece : IsPiece (bit, gap)) :
    LaidOut (bit ++ gap ++ text) (String.ofList bit ++ (" " ++ joined)) := by
  obtain ⟨pieces, htext, hpieces, hjoined, hne, hin⟩ := h
  refine ⟨(bit, gap) :: pieces, by rw [List.flatMap_cons, htext], List.forall_mem_cons.mpr ⟨hpiece, hpieces⟩, ?_,
    List.cons_ne_nil _ _, ?_⟩
  · obtain ⟨b, bits, hbits⟩ := List.exists_cons_of_ne_nil hne
    rw [bitsOf, List.map_cons, ← bitsOf, ← hjoined, hbits, String.intercalate_cons_cons, String.append_assoc]
  · rwa [bitsOf, List.map_cons, ← bitsOf, List.getLast?_cons_of_ne_nil hne]

/-- Plain characters in front go to the first bit. With a comma among them, it is not the word in question. -/
theorem LaidOut.glue (h : LaidOut text joined) (hplain : ∀ c ∈ bit, isPlain c = true) (hcomma : ',' ∈ bit) :
    LaidOut (bit ++ text) (String.ofList bit ++ joined) := by
  obtain ⟨pieces, rfl, hpieces, rfl, hne, hin⟩ := h
  cases pieces with
  | nil => exact absurd rfl hne
  | cons piece pieces =>
    obtain ⟨hpiece, hlater⟩ := List.forall_mem_cons.mp hpieces
    have hglued : IsPiece (bit ++ piece.1, piece.2) :=
      ⟨by simp [hpiece.nonempty], List.forall_mem_append.mpr ⟨hplain, hpiece.plain⟩, hpiece.gap⟩
    refine ⟨(bit ++ piece.1, piece.2) :: pieces, by simp, List.forall_mem_cons.mpr ⟨hglued, hlater⟩, ?_,
      List.cons_ne_nil _ _, ?_⟩
    · cases pieces <;> simp [bitsOf, String.intercalate_cons_cons, String.append_assoc]
    · cases pieces with
      | nil =>
        intro hlast
        have hbit : bit ++ piece.1 = "in".toList := by simpa [bitsOf] using congrArg (·.map String.toList) hlast
        exact absurd (hbit ▸ List.mem_append_left _ hcomma) (by decide)
      | cons next more => simpa [bitsOf] using hin

/-- What ends in a comma and the blanks after it go before a text. -/
theorem LaidOut.comma (h : LaidOut text joined) (hplain : ∀ c ∈ bit, isPlain c = true)
    (hafter : ∀ c ∈ after, isBlank c = true) : ∃ pad, (pad = "" ∨ pad = " ") ∧
      LaidOut (bit ++ ',' :: (after ++ text)) (String.ofList bit ++ ("," ++ (pad ++ joined))) := by
  have hplain' : ∀ c ∈ bit ++ [','], isPlain c = true :=
    List.forall_mem_append.mpr ⟨hplain, List.forall_mem_singleton.mpr rfl⟩
  cases after with
  | nil =>
    refine ⟨"", .inl rfl, ?_⟩
    simpa [String.append_assoc] using h.glue hplain' (by simp)
  | cons c after =>
    refine ⟨" ", .inr rfl, ?_⟩
    have hpiece : IsPiece (bit ++ [','], c :: after) := ⟨by simp, hplain', List.cons_ne_nil _ _, hafter⟩
    simpa [String.append_assoc] using h.cons hpiece

end LaidOut

/-- Single blanks around the comma are no part of the name in front of it or the name behind it. -/
theorem commaNames_padded {name : String} (h : IsName name) {before after : String} (hbefore : before = "" ∨ before = " ")
    (hafter : after = "" ∨ after = " ") (rest : String) :
    commaNames (name ++ (before ++ ("," ++ (after ++ rest)))) = name :: commaNames rest := by
  have hlater : commaNames (after ++ rest) = commaNames rest := by
    rcases hafter with rfl | rfl
    · rw [String.empty_append]
    · exact commaNames_blank rest
  have hfree : ∀ c ∈ (name ++ before).toList, c ≠ ',' := by
    rw [String.toList_append]
    refine List.forall_mem_append.mpr ⟨h.ne (by decide), ?_⟩
    rcases hbefore with rfl | rfl <;> simp
  have htrim : trimBy (· == ' ') (name ++ before).toList = name.toList := by
    rcases hbefore with rfl | rfl
    · rw [String.append_empty, h.trimBy_eq]
    · rw [String.toList_append]
      exact (trimBy_append_blank rfl _).trans h.trimBy_eq
  have hsplit : splitAtChar ',' (name ++ (before ++ ("," ++ (after ++ rest)))).toList =
      (name ++ before).toList :: splitAtChar ',' (after ++ rest).toList := by
    simpa using splitAtChar_append hfree (after ++ rest).toList
  rw [commaNames, hsplit, List.map_cons, htrim, String.ofList_toList, ← commaNames, hlater]

theorem NamesText.laidOut {names : List String} {text gap : List Char} (h : NamesText names text)
    (hnames : ∀ name ∈ names, IsLoopName name) (hgap : IsGap gap) :
    ∃ joined, LaidOut (text ++ gap) joined ∧ commaNames joined = names := by
  induction h with
  | last name =>
    have hname := (hnames name (by simp)).isName
    refine ⟨name, ?_, commaNames_name hname⟩
    have hpiece : IsPiece (name.toList, gap) := ⟨by simpa using hname.ne_empty, hname.plain, hgap⟩
    simpa using laidOut_piece hpiece (by simpa using (hnames name (by simp)).2)
  | @cons name names text before after hbefore hafter others ih =>
    obtain ⟨hname, hlater⟩ := List.forall_mem_cons.mp hnames
    obtain ⟨joined, hlaid, hjoined⟩ := ih hlater
    have hplain := hname.isName.plain
    cases before with
    | nil =>
      obtain ⟨pad, hpad, hcomma⟩ := hlaid.comma hplain hafter
      refine ⟨name ++ ("" ++ ("," ++ (pad ++ joined))), by simpa using hcomma, ?_⟩
      rw [commaNames_padded hname.isName (.inl rfl) hpad, hjoined]
    | cons c before =>
      obtain ⟨pad, hpad, hcomma⟩ := hlaid.comma (List.forall_mem_nil _) hafter
      have hpiece : IsPiece (name.toList, c :: before) :=
        ⟨by simpa using hname.isName.ne_empty, hplain, List.cons_ne_nil _ _, hbefore⟩
      refine ⟨name ++ (" " ++ ("," ++ (pad ++ joined))), by simpa using hcomma.cons hpiece, ?_⟩
      rw [commaNames_padded hname.isName (.inr rfl) hpad, hjoined]

/-! ## How the header is read -/

/-- What comes after the names is split off behind them. -/
theorem LaidOut.ofString {text lead : List Char} {joined : String} (h : LaidOut text joined)
    (hlead : ∀ c ∈ lead, isBlank c = true) (more : List (List Char × List Char))
    (hgaps : ∀ piece ∈ more, ∀ c ∈ piece.2, isBlank c = true) (hapart : ∀ piece ∈ more.dropLast, piece.2 ≠ [])
    (hbits : ∀ piece ∈ more, piece.1 ≠ [] ∧ Solid piece.1) :
    ∃ part, part ≠ [] ∧ part.getLast? ≠ some "in" ∧ " ".intercalate part = joined ∧
      Bits.ofString (String.ofList (lead ++ (text ++ more.flatMap fun piece => piece.1 ++ piece.2))) =
        part ++ bitsOf more := by
  obtain ⟨pieces, rfl, hpieces, hjoined, hne, hin⟩ := h
  refine ⟨bitsOf pieces, hne, hin, hjoined, ?_⟩
  have hsolid (piece : List Char × List Char) (hpiece : piece ∈ pieces) : piece.1 ≠ [] ∧ Solid piece.1 := by
    refine ⟨(hpieces piece hpiece).nonempty, ?_⟩
    simpa using solid_append (hpieces piece hpiece).plain .nil
  have hsplit : split ((pieces ++ more).flatMap fun piece => piece.1 ++ piece.2) = (pieces ++ more).map (·.1) := by
    refine split_solid ?_ ?_ (List.forall_mem_append.mpr ⟨hsolid, hbits⟩)
    · exact List.forall_mem_append.mpr ⟨fun piece hpiece => (hpieces piece hpiece).gap.2, hgaps⟩
    · intro piece hpiece
      rw [List.dropLast_append] at hpiece
      split_ifs at hpiece
      · exact (hpieces piece (List.mem_of_mem_dropLast hpiece)).gap.1
      · rcases List.mem_append.mp hpiece with hpiece | hpiece
        · exact (hpieces piece hpiece).gap.1
        · exact hapart piece hpiece
  rw [Bits.ofString, String.toList_ofList, split_blanks hlead, ← List.flatMap_append, hsplit]
  simp [bitsOf, Function.comp_def]

variable {names : List String} {sequence header : String} {reversed : Bool}

/-- However it is written, a loop header is read as the names, the sequence and the direction in it. -/
theorem LoopText.loop_eq (h : LoopText names sequence reversed header.toList) (hnames : ∀ name ∈ names, IsLoopName name)
    (hsequence : Solid sequence.toList ∧ sequence ≠ "") : loop header = .ok ⟨names, sequence, reversed⟩ := by
  have hin : IsName "in" := by decide
  have hword : "in".toList ≠ [] ∧ Solid "in".toList := ⟨by decide, hin.solid⟩
  have hreversed : IsName "reversed" := by decide
  have hword' : "reversed".toList ≠ [] ∧ Solid "reversed".toList := ⟨by decide, hreversed.solid⟩
  have hbit : sequence.toList ≠ [] ∧ Solid sequence.toList := ⟨by simpa using hsequence.2, hsequence.1⟩
  have hvalid : ∀ name ∈ names, isLoopName name.toList = true := fun name hname => (hnames name hname).1
  generalize hheader : header.toList = chars at h
  obtain rfl : header = String.ofList chars := by rw [← hheader, String.ofList_toList]
  cases h with
  | @forward lead text gap gap' trail hlead htext hgap hgap' htrail =>
    obtain ⟨joined, hlaid, hjoined⟩ := htext.laidOut hnames hgap
    obtain ⟨part, hne, hlast, rfl, hsplit⟩ := hlaid.ofString hlead [("in".toList, gap'), (sequence.toList, trail)]
      (by simpa using ⟨hgap'.2, htrail⟩) (by simpa using hgap'.1)
      (List.forall_mem_cons.mpr ⟨hword, List.forall_mem_singleton.mpr hbit⟩)
    have hbits : Bits.ofString (String.ofList (lead ++ (text ++ gap ++
        ("in".toList ++ gap' ++ (sequence.toList ++ trail))))) = part ++ ["in", sequence] := by
      simpa [bitsOf] using hsplit
    refine loop_eq_ok_iff.mpr ⟨part, ?_, hjoined, hvalid⟩
    rw [hbits]
    exact .forward hne fun _ hin => absurd hin hlast
  | @reversed lead text gap gap' gap'' trail hlead htext hgap hgap' hgap'' htrail =>
    obtain ⟨joined, hlaid, hjoined⟩ := htext.laidOut hnames hgap
    obtain ⟨part, hne, -, rfl, hsplit⟩ := hlaid.ofString hlead
      [("in".toList, gap'), (sequence.toList, gap''), ("reversed".toList, trail)]
      (by simpa using ⟨hgap'.2, hgap''.2, htrail⟩) (by simpa using ⟨hgap'.1, hgap''.1⟩)
      (List.forall_mem_cons.mpr ⟨hword, List.forall_mem_cons.mpr ⟨hbit, List.forall_mem_singleton.mpr hword'⟩⟩)
    have hbits : Bits.ofString (String.ofList (lead ++ (text ++ gap ++ ("in".toList ++ gap' ++
        (sequence.toList ++ gap'' ++ ("reversed".toList ++ trail)))))) = part ++ ["in", sequence, "reversed"] := by
      simpa [bitsOf] using hsplit
    refine loop_eq_ok_iff.mpr ⟨part, ?_, hjoined, hvalid⟩
    rw [hbits]
    exact .reversed hne sequence

/-- A loop header is refused over its form or over the name of a loop variable. -/
theorem exists_of_loop_eq_error {fault : HeaderFault} (h : loop header = .error fault) :
    fault = .loopFormat header ∨ ∃ name, fault = .loopVariable name := by
  rcases divides_or_loopFormat header with ⟨part, sequence, reversed, hdivides⟩ | hrefused
  · rw [loop_of_divides hdivides] at h
    cases hcheck : checkLoopNames (commaNames (" ".intercalate part)) with
    | ok checked =>
      rw [hcheck] at h
      cases h
    | error fault' =>
      rw [hcheck] at h
      cases h
      exact .inr (exists_of_checkLoopNames_eq_error hcheck)
  · rw [hrefused] at h
    cases h
    exact .inl rfl

/-- An expression that a tag can compile is a single bit, if no blank stands outside its strings. -/
theorem solid_of_expression {h : Handle} {s s' : Session} {e : Expression} (he : h.expression sequence s = .ok e s')
    (hblanks : BlankFree sequence.toList) : e.source = sequence ∧ Solid sequence.toList ∧ sequence ≠ "" := by
  rw [Handle.expression, run_bind] at he
  cases hfilters : h.filters s with
  | error fault s₁ =>
    rw [hfilters] at he
    cases he
  | ok lookup s₁ =>
    simp only [hfilters, CompileM.ofResult_run] at he
    cases hcompile : Pipeline.compile lookup sequence with
    | error fault =>
      rw [hcompile] at he
      cases he
    | ok e' =>
      simp only [hcompile] at he
      cases he
      obtain ⟨hsource, hne, -, hsolid⟩ := Pipeline.compile_eq_ok hcompile
      exact ⟨hsource, hsolid hblanks, hne⟩

/-- The header of a loop is read exactly. Whatever blanks stand around the commas and between the words, a header of
valid names and of an expression without blanks outside its strings gives a loop with these names, in this order, with
this expression, called `reversed` or `in` though it may be, and with the direction that is written; what is left to
do is to compile the bodies. A header whose bits do not fall into parts, or with anything in the part for the names
that is no name, is refused over its form or over that name. -/
theorem loop_header_exact (header : String) :
    (∀ names sequence reversed, LoopText names sequence reversed header.toList → (∀ name ∈ names, IsLoopName name) →
      BlankFree sequence.toList → ∀ (h : Handle) (s s' : Session) (e : Expression),
        h.expression sequence s = .ok e s' → e.source = sequence ∧
          StandardTag.loop header h s = (do
            let body ← h.parse ["empty", "endfor"]
            let empty ← StandardTag.secondBody h "empty" "endfor"
            return some (Node.loop names e reversed body empty)) s') ∧
    ((∀ part sequence reversed, Divides (Bits.ofString header) part sequence reversed →
        ∃ name ∈ commaNames (" ".intercalate part), isLoopName name.toList = false) →
      ∃ fault, (fault = .loopFormat header ∨ ∃ name, fault = .loopVariable name) ∧
        ∀ (h : Handle) (s : Session), StandardTag.loop header h s = .error (.ofCause (.header fault)) s) := by
  constructor
  · intro names sequence reversed htext hnames hblanks h s s' e he
    obtain ⟨hsource, hsequence⟩ := solid_of_expression he hblanks
    refine ⟨hsource, ?_⟩
    rw [StandardTag.loop, htext.loop_eq hnames hsequence]
    exact run_bind_ok he
  · intro hbad
    cases hloop : loop header with
    | ok l =>
      obtain ⟨part, hdivides, hpart, hnames⟩ := loop_eq_ok_iff.mp hloop
      obtain ⟨name, hname, hinvalid⟩ := hbad part _ _ hdivides
      rw [hnames name (hpart ▸ hname)] at hinvalid
      cases hinvalid
    | error fault =>
      refine ⟨fault, exists_of_loop_eq_error hloop, fun h s => ?_⟩
      rw [StandardTag.loop, hloop]
      rfl

/-- A header whose names and sequence are called like the words of the header, and one whose part for the names ends in
a comma. -/
theorem loop_header_exact_tangled :
    let header := "\na ,\tb,reversed\r\n in  in reversed "
    let h : Handle := ⟨fun _ => pure [], fun _ => pure "", pure fun name => .error (.ofCause (.unknownFilter name)),
      fun _ _ => pure none⟩
    let s := Session.ofSource "" []
    let e : Expression := ⟨"in", .dotted "in" [], []⟩
    LoopText ["a", "b", "reversed"] "in" true header.toList ∧ (∀ name ∈ ["a", "b", "reversed"], IsLoopName name) ∧
      BlankFree "in".toList ∧ h.expression "in" s = .ok e s ∧
      StandardTag.loop header h s = (do
        let body ← h.parse ["empty", "endfor"]
        let empty ← StandardTag.secondBody h "empty" "endfor"
        return some (Node.loop ["a", "b", "reversed"] e true body empty)) s ∧
      (∀ part sequence reversed, Divides (Bits.ofString "a, in in reversed") part sequence reversed →
        ∃ name ∈ commaNames (" ".intercalate part), isLoopName name.toList = false) ∧
      ∃ fault, StandardTag.loop "a, in in reversed" h s = .error (.ofCause (.header fault)) s := by
  intro header h s e
  have hlast : NamesText ["b", "reversed"] ("b".toList ++ [] ++ ',' :: ([] ++ "reversed".toList)) :=
    .cons nofun nofun (.last "reversed")
  have hnames : NamesText ["a", "b", "reversed"] ("a".toList ++ [' '] ++ ',' ::
      (['\t'] ++ ("b".toList ++ [] ++ ',' :: ([] ++ "reversed".toList)))) :=
    .cons (List.all_eq_true.mp rfl) (List.all_eq_true.mp rfl) hlast
  have hgap : IsGap ['\r', '\n', ' '] ∧ IsGap [' ', ' '] ∧ IsGap [' '] :=
    ⟨⟨nofun, List.all_eq_true.mp rfl⟩, ⟨nofun, List.all_eq_true.mp rfl⟩, nofun, List.all_eq_true.mp rfl⟩
  have hlead : (∀ c ∈ ['\n'], isBlank c = true) ∧ ∀ c ∈ [' '], isBlank c = true :=
    ⟨List.all_eq_true.mp rfl, List.all_eq_true.mp rfl⟩
  have htext : LoopText ["a", "b", "reversed"] "in" true header.toList := by
    have hchars : header.toList = ['\n'] ++ ("a".toList ++ [' '] ++ ',' ::
        (['\t'] ++ ("b".toList ++ [] ++ ',' :: ([] ++ "reversed".toList))) ++ ['\r', '\n', ' '] ++
        ("in".toList ++ [' ', ' '] ++ ("in".toList ++ [' '] ++ ("reversed".toList ++ [' '])))) := by decide
    rw [hchars]
    exact .reversed hlead.1 hnames hgap.1 hgap.2.1 hgap.2.2 hlead.2
  have hvalid : ∀ name ∈ ["a", "b", "reversed"], IsLoopName name := by decide
  have hblanks : BlankFree "in".toList := by decide +kernel
  have hexpression : h.expression "in" s = .ok e s := by
    have hin : ∀ key ∈ ["in"], Operand.IsSegment key := by decide
    have hletter : ∀ c ∈ "in".toList.head?, isLetter c = true := by
      rintro _ ⟨⟩
      rfl
    have hcompile (lookup : FilterLookup) : Pipeline.compile lookup "in" = .ok e :=
      Operand.compile_dotted lookup hin hletter (by decide)
    have hfilters : h.filters s = .ok (fun name => .error (.ofCause (.unknownFilter name))) s := rfl
    rw [Handle.expression, run_bind_ok hfilters, hcompile]
    rfl
  have hbad : ∀ part sequence reversed, Divides (Bits.ofString "a, in in reversed") part sequence reversed →
      ∃ name ∈ commaNames (" ".intercalate part), isLoopName name.toList = false := by
    intro part sequence reversed hdivides
    have hbits : Bits.ofString "a, in in reversed" = ["a,", "in", "in", "reversed"] := by decide +kernel
    rw [hbits] at hdivides
    generalize hsplit : ["a,", "in", "in", "reversed"] = bits at hdivides
    cases hdivides with
    | reversed hne =>
      obtain ⟨rfl, hpart⟩ : "in" = sequence ∧ ["a,"] = part.reverse := by simpa using congrArg List.reverse hsplit
      obtain rfl : ["a,"] = part := by simpa using congrArg List.reverse hpart
      exact ⟨"", by decide +kernel, by decide⟩
    | forward hne hnotReversed =>
      obtain ⟨rfl, hpart⟩ : "reversed" = sequence ∧ ["in", "a,"] = part.reverse := by
        simpa using congrArg List.reverse hsplit
      obtain rfl : ["a,", "in"] = part := by simpa using congrArg List.reverse hpart
      exact absurd (hnotReversed rfl rfl) (by decide)
  obtain ⟨-, hread⟩ := (loop_header_exact header).1 _ _ _ htext hvalid hblanks h s s e hexpression
  obtain ⟨fault, -, hrefused⟩ := (loop_header_exact "a, in in reversed").2 hbad
  exact ⟨htext, hvalid, hblanks, hexpression, hread, hbad, fault, hrefused h s⟩

end Header

end TextTemplate
