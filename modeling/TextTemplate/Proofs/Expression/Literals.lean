import TextTemplate.Proofs.Expression.Grammar

/-!
# Literals in expressions

An operand stands at the start of an expression and after the colon of a filter call; both places read it in the
same way. A text is written as a literal by putting a backslash before each backslash and each quote of the kind
around it. The reader undoes this in two passes over the whole string, first the quotes and then the backslashes.
That is the same as one pass from left to right: the first pass takes a backslash from an odd run before a quote
and leaves an even run alone, and it brings no two backslashes together, since what it puts in is a quote.
-/

namespace TextTemplate

namespace Text

variable {a b c q : Char} {new s : List Char}

/-- The digits of every script are among the characters with a numeric value. -/
theorem isWord_of_isDecimal {c : Char} (h : isDecimal c = true) : isWord c = true := by
  have hcovers : ∀ z ∈ CharTable.zeros, ∃ r ∈ CharTable.numerals, r.1 ≤ z ∧ z + 9 ≤ r.2 := by decide +kernel
  rw [isDecimal, digit?] at h
  rw [isWord]
  split_ifs at h ⊢ with hascii hdigit
  · simp [Char.isAlphanum, hdigit]
  · cases h
  · obtain ⟨z, hfind⟩ := Option.isSome_iff_exists.mp (Option.isSome_map ▸ h)
    have hz := List.find?_some hfind
    simp only [Bool.and_eq_true, decide_eq_true_eq] at hz
    obtain ⟨r, hr, hlow, hhigh⟩ := hcovers z (List.mem_of_find?_eq_some hfind)
    have hcover : covers CharTable.numerals c.toNat = true := by
      refine List.any_eq_true.mpr ⟨r, hr, ?_⟩
      simp only [Bool.and_eq_true, decide_eq_true_eq]
      omega
    rw [hcover, Bool.or_true]

theorem isWord_of_isLetter {c : Char} (h : isLetter c = true) : isWord c = true := by
  rw [isLetter] at h
  rw [isWord]
  split_ifs at h ⊢
  · simp [Char.isAlphanum, h]
  · rw [h, Bool.true_or]

/-- No letter of any script is a digit. -/
theorem digit?_of_isLetter {c : Char} (h : isLetter c = true) : digit? c = none := by
  have hapart : (CharTable.letters.all fun r =>
      CharTable.zeros.all fun z => Nat.blt r.2 z || Nat.blt (z + 9) r.1) = true := by decide +kernel
  rw [isLetter] at h
  rw [digit?]
  split_ifs at h ⊢ with hascii hdigit
  · delta Char.isAlpha Char.isUpper Char.isLower at h
    simp only [Char.isDigit, Bool.or_eq_true, Bool.and_eq_true, decide_eq_true_eq, UInt32.le_iff_toNat_le] at h hdigit
    grind
  · rfl
  · rw [Option.map_eq_none_iff, List.find?_eq_none]
    intro z hz hin
    obtain ⟨r, hr, hcovers⟩ := List.any_eq_true.mp h
    have hdisjoint := List.all_eq_true.mp (List.all_eq_true.mp hapart r hr) z hz
    simp only [Bool.or_eq_true, Bool.and_eq_true, decide_eq_true_eq, Nat.blt_eq] at hin hcovers hdisjoint
    omega

/-! ## Replacing pairs -/

theorem replaceAll_pair (a b : Char) (new s : List Char) :
    replaceAll [a, b] new (a :: b :: s) = new ++ replaceAll [a, b] new s := by
  rw [replaceAll]
  simp [List.isPrefixOf]

theorem replaceAll_keep (h : c ≠ a ∨ s.head? ≠ some b) :
    replaceAll [a, b] new (c :: s) = c :: replaceAll [a, b] new s := by
  have hstart : ¬ [a, b].isPrefixOf (c :: s) = true := by
    rw [List.isPrefixOf_iff_prefix]
    rintro ⟨t, ht⟩
    obtain ⟨rfl, rfl⟩ : a = c ∧ b :: t = s := by simpa using ht
    simp at h
  rw [replaceAll]
  simp [hstart]

end Text

namespace Operand

open Text

variable {q : Char} {s : List Char}

/-! ## Escapes -/

/-- A text as it is written between quotes `q`: each backslash and each `q` after a backslash. -/
def escape (q : Char) (s : List Char) : List Char :=
  s.flatMap fun c => if c = '\\' ∨ c = q then ['\\', c] else [c]

/-- Undo the escapes from left to right: a backslash before a quote `q` or a backslash stands for what follows it,
every other character for itself. -/
def unescapeOnce (q : Char) : List Char → List Char
  | [] => []
  | '\\' :: c :: rest => if c = q ∨ c = '\\' then c :: unescapeOnce q rest else '\\' :: unescapeOnce q (c :: rest)
  | c :: rest => c :: unescapeOnce q rest

theorem unescapeOnce_cons {c : Char} (hc : c ≠ '\\') (rest : List Char) :
    unescapeOnce q (c :: rest) = c :: unescapeOnce q rest := by
  cases rest <;> simp [unescapeOnce, hc]

/-- The two passes are one. They could part over a pair of backslashes before a quote: there the first pass takes the
second backslash for the quote's, and the second pass finds no pair any more, but either way one backslash is left. -/
theorem unescape_eq_once (hq : q ≠ '\\') (s : List Char) : unescape q s = unescapeOnce q s := by
  have hquote (rest : List Char) : unescape q ('\\' :: q :: rest) = q :: unescape q rest := by
    rw [unescape, replaceAll_pair, List.singleton_append, replaceAll_keep (.inl hq), unescape]
  have hplain {c : Char} (hc : c ≠ '\\') (rest : List Char) : unescape q (c :: rest) = c :: unescape q rest := by
    rw [unescape, replaceAll_keep (.inl hc), replaceAll_keep (.inl hc), unescape]
  fun_induction unescapeOnce q s with
  | case1 => simp [unescape, replaceAll]
  | case2 c rest hc ih =>
    rcases hc with rfl | rfl
    · rw [hquote, ih]
    · rw [← ih, unescape, replaceAll_keep (.inr (by simpa using hq.symm))]
      by_cases hhead : rest.head? = some q
      · obtain ⟨more, rfl⟩ := List.head?_eq_some_iff.mp hhead
        rw [replaceAll_pair, List.singleton_append, replaceAll_keep (.inr (by simpa using hq)), hplain hq,
          replaceAll_keep (.inl hq), unescape]
      · rw [replaceAll_keep (.inr hhead), replaceAll_pair, List.singleton_append, unescape]
  | case3 c rest hc ih =>
    obtain ⟨hne, hescape⟩ : c ≠ q ∧ c ≠ '\\' := not_or.mp hc
    rw [← ih, hplain hescape, unescape, replaceAll_keep (.inr (by simpa using hne)), replaceAll_keep (.inl hescape),
      replaceAll_keep (.inr (by simpa using hescape)), replaceAll_keep (.inl hescape), unescape]
  | case4 c rest hlast ih =>
    by_cases hc : c = '\\'
    · cases rest with
      | nil => simp [hc, unescape, replaceAll, unescapeOnce]
      | cons d rest => exact absurd rfl (hlast d rest hc)
    · rw [hplain hc, ih]

/-- Undoing the escapes of a text gives the text back. -/
theorem unescapeOnce_escape (q : Char) (s : List Char) : unescapeOnce q (escape q s) = s := by
  induction s with
  | nil => rfl
  | cons c s ih =>
    rw [escape, List.flatMap_cons, ← escape]
    by_cases hc : c = '\\' ∨ c = q
    · rw [if_pos hc, List.cons_append, List.singleton_append, unescapeOnce, if_pos hc.symm, ih]
    · rw [if_neg hc, List.singleton_append, unescapeOnce_cons (not_or.mp hc).1, ih]

end Operand

namespace Pipeline

open Text

variable {lookup : FilterLookup} {s : List Char}

/-! ## Where an operand may stand -/

theorem StepsText.append {rest rest' : List Char} {steps steps' : List Step} (h : StepsText rest steps)
    (h' : StepsText rest' steps') : StepsText (rest ++ rest') (steps ++ steps') := by
  induction h with
  | nil => exact h'
  | cons hfirst _ ih =>
    rw [List.append_assoc]
    exact .cons hfirst ih

/-- A filter call with an argument, as it is written after an operand or another call. -/
def callWith (name argument : List Char) : List Char := '|' :: (name ++ ':' :: argument)

/-- What a text has to be for an operand to be the literal of a value, wherever an operand may stand. At the start of
an expression and after the colon of a call, the calls that compile on their own may follow. -/
structure ReadAsLiteral (lookup : FilterLookup) (text : List Char) (value : Value) : Prop where
  /-- It may be the operand of an expression. -/
  operand {source more : List Char} {later : List FilterCall} (hmore : compileSteps lookup source more = .ok later) :
    compile lookup (String.ofList (text ++ more)) =
      .ok ⟨String.ofList (text ++ more), ⟨String.ofList text, .literal value⟩, later⟩
  /-- It may be the argument of a filter that takes one, after any expression. -/
  argument {before : String} {e : Expression} (hbefore : compile lookup before = .ok e) {name : List Char}
    (hne : name ≠ []) (hname : ∀ c ∈ name, isWord c = true) {filter : Filter}
    (hfilter : lookup (String.ofList name) = .ok filter) (haccepts : filter.accepts 2 = true)
    {source more : List Char} {later : List FilterCall} (hmore : compileSteps lookup source more = .ok later) :
    compile lookup (before ++ String.ofList (callWith name text ++ more)) =
      .ok ⟨before ++ String.ofList (callWith name text ++ more), e.operand,
        e.calls ++ ⟨String.ofList name, filter, some ⟨String.ofList text, .literal value⟩⟩ :: later⟩
  /-- It may be the argument of the first call of a chain. -/
  chain {name : List Char} (hne : name ≠ []) (hname : ∀ c ∈ name, isWord c = true) {filter : Filter}
    (hfilter : lookup (String.ofList name) = .ok filter) (haccepts : filter.accepts 2 = true)
    {source more : List Char} {later : List FilterCall} (hmore : compileSteps lookup source more = .ok later) :
    compileChain lookup (String.ofList (name ++ ':' :: (text ++ more))) =
      .ok (⟨String.ofList name, filter, some ⟨String.ofList text, .literal value⟩⟩ :: later)

/-- A call with an argument goes before calls that compile. -/
theorem compileSteps_callWith {text : List Char} {o : Operand} (htext : OperandText text)
    (hoperand : Operand.ofChars text = .ok o) {name : List Char} (hne : name ≠ [])
    (hname : ∀ c ∈ name, isWord c = true) {filter : Filter} (hfilter : lookup (String.ofList name) = .ok filter)
    (haccepts : filter.accepts 2 = true) {source more : List Char} {later : List FilterCall}
    (hmore : compileSteps lookup source more = .ok later) :
    ∃ steps, StepsText (callWith name text ++ more) steps ∧
      List.Forall₂ (Step.Means lookup) steps (⟨String.ofList name, filter, some o⟩ :: later) := by
  obtain ⟨steps, hsteps, hmeans⟩ := compileSteps_eq_ok_iff.mp hmore
  have hblank : ∀ c ∈ ([] : List Char), isBlank c = true := List.forall_mem_nil _
  exact ⟨⟨name, some text⟩ :: steps, .cons (.withArgument hblank hblank hne hname htext) hsteps,
    .cons ⟨rfl, hfilter, .some hoperand, haccepts⟩ hmeans⟩

/-- Calls may be added to an expression. -/
theorem compile_append {before : String} {e : Expression} (h : compile lookup before = .ok e) {more : List Char}
    {steps : List Step} {later : List FilterCall} (hmore : StepsText more steps)
    (hmeans : List.Forall₂ (Step.Means lookup) steps later) :
    compile lookup (before ++ String.ofList more) =
      .ok ⟨before ++ String.ofList more, e.operand, e.calls ++ later⟩ := by
  obtain ⟨operand, earlier, ⟨rest, hsource, htext, hsteps⟩, -, hoperand, hmeans'⟩ := exists_reads_of_compile h
  have hreads : Reads (before ++ String.ofList more).toList operand (earlier ++ steps) :=
    ⟨rest ++ more, by simp [hsource], htext, hsteps.append hmore⟩
  exact compile_of_reads hreads rfl hoperand (List.rel_append hmeans' hmeans)

/-- A text of the form of an operand that stands for a value is read as its literal. -/
theorem readAsLiteral_of_operandText {text : List Char} {value : Value} (htext : OperandText text)
    (hvalue : Operand.meaningOf text = .ok (.literal value)) (lookup : FilterLookup) :
    ReadAsLiteral lookup text value := by
  have hoperand : Operand.ofChars text = .ok ⟨String.ofList text, .literal value⟩ := by
    rw [Operand.ofChars, hvalue]
  constructor
  · intro source more later hmore
    obtain ⟨steps, hsteps, hmeans⟩ := compileSteps_eq_ok_iff.mp hmore
    have hreads : Reads (String.ofList (text ++ more)).toList text steps :=
      ⟨more, String.toList_ofList, htext, hsteps⟩
    exact compile_of_reads hreads rfl hoperand hmeans
  · intro before e hbefore name hne hname filter hfilter haccepts source more later hmore
    obtain ⟨steps, hsteps, hmeans⟩ := compileSteps_callWith htext hoperand hne hname hfilter haccepts hmore
    exact compile_append hbefore hsteps hmeans
  · intro name hne hname filter hfilter haccepts source more later hmore
    obtain ⟨steps, hsteps, hmeans⟩ := compileSteps_callWith htext hoperand hne hname hfilter haccepts hmore
    rw [compileChain, if_neg (by simp), String.toList_ofList]
    refine compileSteps_eq_ok_iff.mpr ⟨steps, ?_, hmeans⟩
    simpa [callWith] using hsteps

end Pipeline

namespace Operand

open Text Pipeline

variable {q : Char} {s body : List Char}

/-! ## Quoted texts -/

theorem ne_escape_of_isQuote (hq : isQuote q = true) : q ≠ '\\' := by
  rcases isQuote_iff.mp hq with rfl | rfl <;> decide

/-- An escaped text is the inside of a string, whatever it holds. -/
theorem stringBody_escape (hq : isQuote q = true) (s : List Char) : StringBody q (escape q s) := by
  have hline : q ≠ '\n' := by rcases isQuote_iff.mp hq with rfl | rfl <;> decide
  induction s with
  | nil => exact .nil
  | cons c s ih =>
    rw [escape, List.flatMap_cons, ← escape]
    by_cases hc : c = '\\' ∨ c = q
    · rw [if_pos hc]
      refine .escaped ?_ ih
      rcases hc with rfl | rfl
      · decide
      · exact hline
    · rw [if_neg hc]
      exact .plain (not_or.mp hc).2 (not_or.mp hc).1 ih

/-- A text is no number if its first character can start none. -/
theorem number?_eq_none {c : Char} (hblank : isBlank c = false) (hplus : c ≠ '+') (hminus : c ≠ '-') (hpoint : c ≠ '.')
    (hdigit : digit? c = none) (rest : List Char) : number? (c :: rest) = .ok none := by
  have hstart : Integer.isNumberBlank c = false := by simp [Integer.isNumberBlank, hblank]
  obtain ⟨kept, htrim⟩ : ∃ kept, Integer.trimNumber (c :: rest) = c :: kept := by
    refine ⟨dropTrailing Integer.isNumberBlank rest, ?_⟩
    rw [Integer.trimNumber, trimBy, List.dropWhile_cons_of_neg (by simp [hstart]), dropTrailing_cons hstart]
  have hsign : Integer.takeSign (c :: kept) = (false, c :: kept) := by
    unfold Integer.takeSign
    split <;> simp_all
  have hdigits : Integer.takeDigits (c :: kept) = ([], c :: kept) := by rw [Integer.takeDigits, hdigit]
  rw [number?]
  split
  · simp [Double.ofChars?, htrim, hsign, hdigits, hpoint]
  · simp [Integer.ofChars?, htrim, hsign, hdigits]

/-- A text that starts with a quote is no number. -/
theorem number?_quoted (hq : isQuote q = true) (body : List Char) :
    number? (q :: (body ++ [q])) = .ok none := by
  have hblank := isBlank_eq_false_of_isQuote hq
  rcases isQuote_iff.mp hq with rfl | rfl
  · exact number?_eq_none hblank (by decide) (by decide) (by decide) (by decide) _
  · exact number?_eq_none hblank (by decide) (by decide) (by decide) (by decide) _

/-- A text between quotes stands for what its escapes are undone to. -/
theorem meaningOf_quoted (hq : isQuote q = true) (body : List Char) :
    meaningOf (q :: (body ++ [q])) = .ok (.literal (.text (String.ofList (unescape q body)))) := by
  have hbody : quotedBody? (q :: (body ++ [q])) = some (q, body) := by simp [quotedBody?, hq]
  simp [meaningOf, number?_quoted hq, hbody]

/-! ## Whole numbers -/

/-- The digits of a row of decimal digits without separators. -/
theorem takeDigits_decimal (hs : ∀ c ∈ s, isDecimal c = true) :
    Integer.takeDigits s = (s.filterMap digit?, []) := by
  induction s with
  | nil => rw [Integer.takeDigits, List.filterMap_nil]
  | cons c s ih =>
    obtain ⟨hc, hlater⟩ := List.forall_mem_cons.mp hs
    obtain ⟨d, hd⟩ := Option.isSome_iff_exists.mp hc
    have hseparator : Integer.dropSeparator s = s := by
      unfold Integer.dropSeparator
      split
      · exact absurd (hlater '_' List.mem_cons_self) (by decide)
      · rfl
    rw [Integer.takeDigits, hd]
    simp [hseparator, ih hlater, hd]

theorem digit?_of_isDigit {c : Char} (h : c.isDigit = true) : digit? c = some (c.toNat - '0'.toNat) := by
  have hascii : isAscii c = true := by
    simp only [Char.isDigit, Bool.and_eq_true, decide_eq_true_eq, UInt32.le_iff_toNat_le] at h
    have : c.toNat ≤ 57 := h.2
    simp [isAscii]
    omega
  simp [digit?, hascii, h]

/-- The decimal text of a natural number is made of digits that stand for it. -/
theorem digits_spec (n : Nat) : (∀ c ∈ Nat.toDigits 10 n, isDecimal c = true) ∧
    Integer.ofDigits ((Nat.toDigits 10 n).filterMap digit?) = n := by
  have hdigit : ∀ c ∈ Nat.toDigits 10 n, digit? c = some (c.toNat - '0'.toNat) := fun c hc =>
    digit?_of_isDigit (Nat.isDigit_of_mem_toDigits (by decide) (by decide) hc)
  refine ⟨fun c hc => by rw [isDecimal, hdigit c hc, Option.isSome_some], ?_⟩
  have hdigits : (Nat.toDigits 10 n).filterMap digit? = (Nat.toDigits 10 n).map fun c => c.toNat - '0'.toNat := by
    rw [← List.filterMap_eq_map]
    exact List.filterMap_congr hdigit
  rw [hdigits, Integer.ofDigits, List.foldl_map, ← Nat.ofDigitChars_eq_foldl, Nat.ofDigitChars_ten_toDigits]

/-- The digits of a natural number that is short enough are read as a number, behind a sign as well. -/
theorem integer_ofChars?_digits {n : Nat} (hn : n < powerOfTen Integer.maxDigits) :
    Integer.ofChars? (Nat.toDigits 10 n) = some (n : Int) ∧ Integer.ofChars? ('-' :: Nat.toDigits 10 n) = some (-(n : Int)) := by
  obtain ⟨hdecimal, hvalue⟩ := digits_spec n
  have hlength : (Nat.toDigits 10 n).length ≤ Integer.maxDigits := by
    have hpower (k : Nat) : powerOfTen k = 10 ^ k := rfl
    rwa [Nat.length_toDigits_le_iff (by decide) (show 0 < Integer.maxDigits from Nat.zero_lt_succ _), ← hpower]
  have hblank : ∀ c ∈ Nat.toDigits 10 n, Integer.isNumberBlank c = false := fun c hc => by
    simp [Integer.isNumberBlank, isBlank_eq_false_of_isDecimal (hdecimal c hc)]
  have hread := takeDigits_decimal hdecimal
  obtain ⟨c, more, hcons⟩ := List.exists_cons_of_ne_nil (Nat.toDigits_ne_nil (n := n) (b := 10))
  obtain ⟨d, hd⟩ := Option.isSome_iff_exists.mp (hdecimal c (hcons ▸ List.mem_cons_self))
  have hsign : Integer.takeSign (Nat.toDigits 10 n) = (false, Nat.toDigits 10 n) := by
    rw [hcons]
    unfold Integer.takeSign
    split <;> simp_all [show digit? '-' = none by decide, show digit? '+' = none by decide]
  have htrim := trimBy_eq_self hblank
  have htrim' := trimBy_eq_self (List.forall_mem_cons.mpr ⟨show Integer.isNumberBlank '-' = false by decide, hblank⟩)
  have hdigits : (Nat.toDigits 10 n).filterMap digit? = d :: more.filterMap digit? := by rw [hcons]; simp [hd]
  have hroom : (more.filterMap digit?).length < Integer.maxDigits := by
    have := List.length_filterMap_le digit? more
    rw [hcons, List.length_cons] at hlength
    omega
  rw [hdigits] at hread hvalue
  constructor
  · simp [Integer.ofChars?, Integer.trimNumber, htrim, hsign, hread, hroom, hvalue]
  · simp [Integer.ofChars?, Integer.trimNumber, htrim', Integer.takeSign, hread, hroom, hvalue]

theorem toList_toString (n : Int) : (toString n).toList =
    if 0 ≤ n then Nat.toDigits 10 n.natAbs else '-' :: Nat.toDigits 10 n.natAbs := by
  rw [Int.toString_eq_repr, Int.repr_eq_if]
  split_ifs with h
  · simp [Nat.repr_eq_ofList_toDigits, show n.toNat = n.natAbs by omega]
  · simp [Nat.repr_eq_ofList_toDigits, show (-n).toNat = n.natAbs by omega]

/-- An integer that is short enough to be written is read back from its decimal text. -/
theorem meaningOf_int {n : Int} (hn : Integer.isWritable n = true) :
    OperandText (toString n).toList ∧ meaningOf (toString n).toList = .ok (.literal (.int n)) := by
  obtain ⟨hread, hread'⟩ := integer_ofChars?_digits (n := n.natAbs) (by simpa [Integer.isWritable] using hn)
  obtain ⟨hdecimal, -⟩ := digits_spec n.natAbs
  have hwhole : ∀ c ∈ Nat.toDigits 10 n.natAbs, (c == '.' || c == 'e' || c == 'E') = false := fun c hc => by
    have hc := hdecimal c hc
    by_contra hmark
    simp only [Bool.not_eq_false, Bool.or_eq_true, beq_iff_eq] at hmark
    rcases hmark with (rfl | rfl) | rfl <;> exact absurd hc (by decide)
  rw [toList_toString]
  split_ifs with hsign
  · refine ⟨.word Nat.toDigits_ne_nil fun c hc => .inl (isWord_of_isDecimal (hdecimal c hc)), ?_⟩
    have hfractional : looksFractional (Nat.toDigits 10 n.natAbs) = false := by
      simpa [looksFractional] using hwhole
    have hvalue : ((n.natAbs : Nat) : Int) = n := by omega
    rw [hvalue] at hread
    simp [meaningOf, number?, hfractional, hread]
  · obtain ⟨d, more, hcons⟩ := List.exists_cons_of_ne_nil (Nat.toDigits_ne_nil (n := n.natAbs) (b := 10))
    refine ⟨?_, ?_⟩
    · rw [hcons] at hdecimal ⊢
      exact .number (.inr rfl) (hdecimal d List.mem_cons_self) fun c hc =>
        .inl (hdecimal c (List.mem_cons_of_mem d hc))
    · have hfractional : looksFractional ('-' :: Nat.toDigits 10 n.natAbs) = false := by
        simpa [looksFractional] using hwhole
      have hvalue : -((n.natAbs : Nat) : Int) = n := by omega
      rw [hvalue] at hread'
      simp [meaningOf, number?, hfractional, hread']

end Operand

namespace Pipeline

open Text

/-- Literals are read as what was written. Every text is, between quotes of either kind and with its escapes, whatever it
holds. Between quotes every string that the grammar knows stands for what one pass from left to right makes of its
escapes, and so it does for the two passes of the reader over any text. Every integer that is short enough to be
written is read from its decimal text. All this holds wherever an operand may stand. -/
theorem literals_round_trip (lookup : FilterLookup) :
    (∀ q, isQuote q = true → ∀ s : String,
      ReadAsLiteral lookup (q :: (Operand.escape q s.toList ++ [q])) (.text s)) ∧
    (∀ q, isQuote q = true → ∀ body, Operand.unescape q body = Operand.unescapeOnce q body) ∧
    (∀ q, isQuote q = true → ∀ body, StringBody q body →
      ReadAsLiteral lookup (q :: (body ++ [q])) (.text (String.ofList (Operand.unescapeOnce q body)))) ∧
    ∀ n, Integer.isWritable n = true → ReadAsLiteral lookup (toString n).toList (.int n) := by
  have hpasses (q : Char) (hq : isQuote q = true) (body : List Char) :
      Operand.unescape q body = Operand.unescapeOnce q body :=
    Operand.unescape_eq_once (Operand.ne_escape_of_isQuote hq) body
  have hquoted (q : Char) (hq : isQuote q = true) (body : List Char) (hbody : StringBody q body) :
      ReadAsLiteral lookup (q :: (body ++ [q])) (.text (String.ofList (Operand.unescapeOnce q body))) := by
    rw [← hpasses q hq]
    exact readAsLiteral_of_operandText (.string hq hbody) (Operand.meaningOf_quoted hq body) lookup
  refine ⟨fun q hq s => ?_, hpasses, hquoted, fun n hn => ?_⟩
  · have hread := hquoted q hq _ (Operand.stringBody_escape hq s.toList)
    rwa [Operand.unescapeOnce_escape, String.ofList_toList] at hread
  · obtain ⟨htext, hmeaning⟩ := Operand.meaningOf_int hn
    exact readAsLiteral_of_operandText htext hmeaning lookup

/-- A text with a backslash before a quote, a line break, a bar, a colon and the marks of tags. -/
def twistedText : String := "a\\\"b\n|c:\x7b\x7b'%\x7d"

/-- It is read back, and so are a string that ends in two backslashes and a quote, and a negative number. -/
theorem literals_round_trip_twisted : isQuote '"' = true ∧ isQuote '\'' = true ∧
    StringBody '\'' "\\\\\\'".toList ∧ Integer.isWritable (-42) = true ∧
    Operand.unescape '\'' "\\\\\\'".toList = "\\'".toList ∧
    let lookup := (fun name => .ok ⟨none, fun _ => pure (.text name)⟩ : FilterLookup)
    ReadAsLiteral lookup "\"a\\\\\\\"b\n|c:\x7b\x7b'%\x7d\"".toList (.text twistedText) ∧
    ReadAsLiteral lookup "'\\\\\\''".toList (.text "\\'") ∧ ReadAsLiteral lookup "-42".toList (.int (-42)) := by
  have hbody : StringBody '\'' "\\\\\\'".toList := .escaped (by decide) (.escaped (by decide) .nil)
  obtain ⟨htext, hpasses, hquoted, hint⟩ :=
    literals_round_trip (fun name => .ok ⟨none, fun _ => pure (.text name)⟩)
  refine ⟨by decide, by decide, hbody, by decide +kernel, ?_, ?_, ?_, ?_⟩
  · exact (hpasses '\'' (by decide) _).trans (by decide)
  · exact htext '"' (by decide) twistedText
  · exact hquoted '\'' (by decide) _ hbody
  · exact hint (-42) (by decide +kernel)

end Pipeline

end TextTemplate
