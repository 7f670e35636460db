import TextTemplate.Proofs.Expression.Literals

/-!
# Numbers in expressions

Which texts are numbers is decided twice: the reader of expressions cuts a run of characters out of its source, and
what it has cut out is then read as a number or not. Every number without a sign is cut out whole, since it has word
characters and dots only. Behind a sign the reader takes a digit and then digits, points and `e`. So it does not take
the numbers with a sign in their exponent, nor after a leading sign those that start with a point or have an underscore
or `E`. Such a text is refused where an operand may stand; it is never taken for something else.
-/

namespace TextTemplate

namespace Operand

open Text Pipeline

variable {s digits rest : List Char} {d : Char}

/-! ## The characters of a number -/

/-- A character that a number may have. -/
def IsNumeric (c : Char) : Prop := isPathChar c = true ∨ c = '+' ∨ c = '-'

theorem isNumeric_of_isDecimal {c : Char} (h : isDecimal c = true) : IsNumeric c :=
  .inl (by simp [isPathChar, isWord_of_isDecimal h])

theorem takeSign_spec (s : List Char) : ∃ sign, s = sign ++ (Integer.takeSign s).2 ∧ ∀ c ∈ sign, IsNumeric c := by
  unfold Integer.takeSign
  split
  · exact ⟨['-'], rfl, by simp [IsNumeric]⟩
  · exact ⟨['+'], rfl, by simp [IsNumeric]⟩
  · exact ⟨[], rfl, List.forall_mem_nil _⟩

/-- Dropping a separator drops an underscore at most. -/
theorem dropSeparator_spec (s : List Char) : s = Integer.dropSeparator s ∨ s = '_' :: Integer.dropSeparator s := by
  unfold Integer.dropSeparator
  split
  · split
    · exact .inr rfl
    · exact .inl rfl
  · exact .inl rfl

theorem takeDigits_spec (s : List Char) :
    ∃ taken, s = taken ++ (Integer.takeDigits s).2 ∧ ∀ c ∈ taken, IsNumeric c := by
  fun_induction Integer.takeDigits s with
  | case1 => exact ⟨[], rfl, List.forall_mem_nil _⟩
  | case2 c rest hdigit => exact ⟨[], rfl, List.forall_mem_nil _⟩
  | case3 c rest d hdigit digits after hafter ih =>
    obtain ⟨taken, htaken, hnumeric⟩ := ih
    rw [hafter] at htaken
    have hc : IsNumeric c := isNumeric_of_isDecimal (by rw [isDecimal, hdigit, Option.isSome_some])
    rcases dropSeparator_spec rest with hrest | hrest
    · exact ⟨c :: taken, by rw [hrest, htaken]; rfl, List.forall_mem_cons.mpr ⟨hc, hnumeric⟩⟩
    · refine ⟨c :: '_' :: taken, by rw [hrest, htaken]; rfl, List.forall_mem_cons.mpr ⟨hc, ?_⟩⟩
      exact List.forall_mem_cons.mpr ⟨.inl (by decide), hnumeric⟩

theorem takeExponent_spec {e : Int} (h : Double.takeExponent s = some (e, rest)) :
    ∃ taken, s = taken ++ rest ∧ ∀ c ∈ taken, IsNumeric c := by
  unfold Double.takeExponent at h
  split at h
  · cases h
    exact ⟨[], rfl, List.forall_mem_nil _⟩
  · rename_i c more
    split_ifs at h with hmark
    · obtain ⟨sign, hsign, hsignNumeric⟩ := takeSign_spec more
      obtain ⟨taken, htaken, htakenNumeric⟩ := takeDigits_spec (Integer.takeSign more).2
      have hc : IsNumeric c := by
        rcases Bool.or_eq_true_iff.mp hmark with hc | hc <;> obtain rfl := beq_iff_eq.mp hc <;>
          exact .inl (by decide)
      dsimp only at h
      split at h
      · cases h
      · rename_i digits after _ hafter
        cases h
        rw [hafter] at htaken
        refine ⟨c :: (sign ++ taken), by rw [hsign, htaken]; simp, List.forall_mem_cons.mpr ⟨hc, ?_⟩⟩
        exact List.forall_mem_append.mpr ⟨hsignNumeric, htakenNumeric⟩
    · cases h
      exact ⟨[], rfl, List.forall_mem_nil _⟩

theorem isNumeric_of_integer {n : Int} (h : Integer.ofChars? s = some n) (hs : Integer.trimNumber s = s) :
    ∀ c ∈ s, IsNumeric c := by
  obtain ⟨sign, hsign, hsignNumeric⟩ := takeSign_spec s
  obtain ⟨taken, htaken, htakenNumeric⟩ := takeDigits_spec (Integer.takeSign s).2
  rw [Integer.ofChars?, hs] at h
  dsimp only at h
  split at h
  · rename_i hdigits
    rw [hdigits, List.append_nil] at htaken
    rw [hsign, htaken]
    exact List.forall_mem_append.mpr ⟨hsignNumeric, htakenNumeric⟩
  · cases h

theorem isNumeric_of_double {x : Double} (h : Double.ofChars? s = some x) (hs : Integer.trimNumber s = s) :
    ∀ c ∈ s, IsNumeric c := by
  obtain ⟨sign, hsign, hsignNumeric⟩ := takeSign_spec s
  obtain ⟨whole, hwhole, hwholeNumeric⟩ := takeDigits_spec (Integer.takeSign s).2
  rw [Double.ofChars?, hs] at h
  dsimp only at h
  -- what comes after the digits is a fraction and an exponent
  suffices hrest : ∀ c ∈ (Integer.takeDigits (Integer.takeSign s).2).2, IsNumeric c by
    rw [hsign, hwhole]
    exact List.forall_mem_append.mpr ⟨hsignNumeric, List.forall_mem_append.mpr ⟨hwholeNumeric, hrest⟩⟩
  split_ifs at h
  split at h
  · rename_i e hexponent
    obtain ⟨power, hpower, hpowerNumeric⟩ := takeExponent_spec hexponent
    rw [List.append_nil] at hpower
    split at hpower
    · rename_i rest hpoint
      obtain ⟨part, hpart, hpartNumeric⟩ := takeDigits_spec rest
      rw [hpoint, hpart, hpower]
      refine List.forall_mem_cons.mpr ⟨.inl (by decide), ?_⟩
      exact List.forall_mem_append.mpr ⟨hpartNumeric, hpowerNumeric⟩
    · rw [hpower]
      exact hpowerNumeric
  · cases h

/-- A text without blanks that is read as a number has word characters, points and signs only. -/
theorem isNumeric_of_number? {v : Value} (h : number? s = .ok (some v)) (hs : ∀ c ∈ s, isBlank c = false) :
    ∀ c ∈ s, IsNumeric c := by
  have htrim : Integer.trimNumber s = s :=
    trimBy_eq_self fun c hc => by simp [Integer.isNumberBlank, hs c hc]
  unfold number? at h
  split at h
  · split at h
    · cases h
    · rename_i hread
      exact isNumeric_of_double hread htrim
  · obtain ⟨n, hread, -⟩ := Option.map_eq_some_iff.mp (Except.ok.inj h)
    exact isNumeric_of_integer hread htrim

/-! ## Where a number may stand -/

/-- A number that is written without signs, or with one sign in front of a digit and with digits, points and `e` only
after that. -/
def IsPlain (s : List Char) : Prop :=
  ('+' ∉ s ∧ '-' ∉ s) ∨ ∃ sign d rest, s = sign :: d :: rest ∧ (sign = '+' ∨ sign = '-') ∧ isDecimal d = true ∧
    ∀ c ∈ rest, isDecimal c = true ∨ c = '.' ∨ c = 'e'

theorem ne_nil_of_number? {v : Value} (h : number? s = .ok (some v)) : s ≠ [] := by
  rintro rfl
  have hnone : Integer.ofChars? [] = none := by
    simp [Integer.ofChars?, Integer.trimNumber, trimBy, dropTrailing, Integer.takeSign, Integer.takeDigits]
  simp [number?, looksFractional, hnone] at h

/-- A number is written plainly if it has the form of an operand, and only then. -/
theorem operandText_iff_isPlain (hne : s ≠ []) (hs : ∀ c ∈ s, IsNumeric c) : OperandText s ↔ IsPlain s := by
  have hpath {sign : Char} (hsign : sign = '+' ∨ sign = '-') : isPathChar sign = false := by
    rcases hsign with rfl | rfl <;> decide
  constructor
  · intro h
    cases h with
    | @string q body hq _ =>
      exfalso
      have hquote : ¬ (isPathChar q = true ∨ q = '+' ∨ q = '-') := by
        rcases isQuote_iff.mp hq with rfl | rfl <;> decide
      exact hquote (hs q List.mem_cons_self)
    | word _ hchars =>
      have hnot {sign : Char} (hsign : sign = '+' ∨ sign = '-') : sign ∉ s := fun hmem => by
        have hchar : isPathChar sign = true := by simpa [isPathChar] using hchars sign hmem
        rw [hpath hsign] at hchar
        cases hchar
      exact .inl ⟨hnot (.inl rfl), hnot (.inr rfl)⟩
    | @number sign d rest hsign hdigit hmore => exact .inr ⟨sign, d, rest, rfl, hsign, hdigit, hmore⟩
  · rintro (⟨hplus, hminus⟩ | ⟨sign, d, rest, rfl, hsign, hdigit, hmore⟩)
    · refine .word hne fun c hc => ?_
      rcases hs c hc with hchar | rfl | rfl
      · simpa [isPathChar] using hchar
      · exact absurd hc hplus
      · exact absurd hc hminus
    · exact .number hsign hdigit hmore

end Operand

namespace Pipeline

open Text Bits Operand

variable {lookup : FilterLookup} {s : List Char} {source : String} {e : Expression}

/-! ## What goes on to the end -/

/-- A text that no call can start in. -/
def IsUnbarred (s : List Char) : Prop := ∀ c ∈ s, isBlank c = false ∧ c ≠ '|'

theorem isUnbarred_of_isNumeric (hs : ∀ c ∈ s, IsNumeric c) : IsUnbarred s := by
  intro c hc
  rcases hs c hc with hchar | rfl | rfl
  · refine ⟨isBlank_eq_false_of_isPlain (isPlain_of_isPathChar hchar), ?_⟩
    rintro rfl
    exact absurd hchar (by decide)
  · decide
  · decide

theorem IsUnbarred.eq_nil (h : IsUnbarred s) {steps : List Step} (hsteps : StepsText s steps) : s = [] := by
  cases s with
  | nil => rfl
  | cons c s =>
    obtain ⟨hblank, hbar⟩ := h c List.mem_cons_self
    rcases hsteps.partEnds c rfl with hc | hc
    · rw [hblank] at hc
      cases hc
    · exact absurd hc hbar

/-- Such a text is an operand if it is one on its own as an expression. -/
theorem IsUnbarred.operandText_of_compile (hs : IsUnbarred s) (h : compile lookup (String.ofList s) = .ok e) :
    OperandText s := by
  obtain ⟨operand, steps, ⟨rest, hsource, htext, hsteps⟩, -⟩ := exists_reads_of_compile h
  rw [String.toList_ofList] at hsource
  have hrest : IsUnbarred rest := fun c hc => hs c (hsource ▸ List.mem_append_right operand hc)
  rwa [hsource, hrest.eq_nil hsteps, List.append_nil]

/-- Filter calls are read one by one, so the ones that come first may be taken away. -/
theorem StepsText.of_append {first more : List Char} {steps steps' : List Step} (h : StepsText first steps)
    (hmore : PartEnds more) (h' : StepsText (first ++ more) steps') : ∃ later, StepsText more later := by
  induction h generalizing steps' with
  | nil => exact ⟨steps', h'⟩
  | @cons call rest step steps hcall hrest ih =>
    have hends : PartEnds (rest ++ more) := by
      cases rest with
      | nil => exact hmore
      | cons c rest => exact hrest.partEnds
    have hfirst := hcall.step?_append hends
    rw [List.append_assoc] at h'
    cases steps' with
    | nil =>
      rw [h'.read.2] at hfirst
      cases hfirst
    | cons step' steps' =>
      obtain ⟨after, hread, hlater⟩ := h'.read
      rw [hread] at hfirst
      cases hfirst
      exact ih hlater

theorem partEnds_callWith (name argument : List Char) : PartEnds (callWith name argument) := by
  intro c hc
  exact .inr (by simpa [callWith] using hc.symm)

/-- What is read at the start of a call with an argument: the argument as well, if an operand stands there. -/
theorem step?_callWith {name : List Char} (hne : name ≠ []) (hname : ∀ c ∈ name, isWord c = true) (s : List Char) :
    step? (callWith name s) = match operand? s with
      | some (argument, after) => some (⟨name, some argument⟩, after)
      | none => some (⟨name, none⟩, ':' :: s) := by
  have hbar : isBlank '|' = false := by decide
  have hcolon : ∀ c ∈ (':' :: s).head?, isWord c = false := by
    intro c hc
    obtain rfl : ':' = c := by simpa using hc
    decide
  obtain ⟨htake, hdrop⟩ := span_append hname hcolon
  have hbody : dropBlanks (name ++ ':' :: s) = name ++ ':' :: s := by
    apply dropBlanks_eq_self
    intro c hc
    rw [List.head?_append_of_ne_nil _ hne] at hc
    exact isBlank_eq_false_of_isWord (hname c (List.mem_of_mem_head? hc))
  rw [step?, callWith, dropBlanks, List.dropWhile_cons_of_neg (by simp [hbar])]
  cases h : operand? s with
  | none => simp [hbody, htake, hdrop, hne, argument?, h]
  | some found => simp [hbody, htake, hdrop, hne, argument?, h]

/-- Such a text is an operand if it is one as the argument of a call, after an expression. -/
theorem IsUnbarred.operandText_of_argument (hs : IsUnbarred s) {e' : Expression}
    (hsource : compile lookup source = .ok e) {name : List Char} (hne : name ≠ [])
    (hname : ∀ c ∈ name, isWord c = true)
    (h : compile lookup (source ++ String.ofList (callWith name s)) = .ok e') : OperandText s := by
  obtain ⟨operand, steps, ⟨rest, hreads, htext, hsteps⟩, -⟩ := exists_reads_of_compile hsource
  obtain ⟨operand', steps', ⟨rest', hreads', htext', hsteps'⟩, -⟩ := exists_reads_of_compile h
  have hends : PartEnds (rest ++ callWith name s) := by
    cases rest with
    | nil => exact partEnds_callWith name s
    | cons c rest => exact hsteps.partEnds
  -- both readings cut off the same operand, and then the same calls up to the last
  have hrest : rest' = rest ++ callWith name s := by
    have hread := htext.operand?_append hends
    rw [← List.append_assoc, ← hreads] at hread
    have hread' := htext'.operand?_append hsteps'.partEnds
    rw [← hreads', String.toList_append, String.toList_ofList, hread] at hread'
    cases hread'
    rfl
  obtain ⟨later, hlater⟩ := hsteps.of_append (partEnds_callWith name s) (hrest ▸ hsteps')
  cases later with
  | nil => exact absurd hlater.read.1 (by simp [callWith])
  | cons step later =>
    obtain ⟨after, hread, hafter⟩ := hlater.read
    rw [step?_callWith hne hname] at hread
    cases hoperand : operand? s with
    | none =>
      rw [hoperand] at hread
      cases hread
      rcases hafter.partEnds ':' rfl with hblank | hbar
      · exact absurd hblank (by decide)
      · exact absurd hbar (by decide)
    | some found =>
      obtain ⟨argument, after'⟩ := found
      rw [hoperand] at hread
      cases hread
      obtain ⟨hcut, -, -⟩ := operand?_eq_some hoperand
      have hunbarred : IsUnbarred after := fun c hc => hs c (hcut ▸ List.mem_append_right argument hc)
      rw [hcut, hunbarred.eq_nil hafter, List.append_nil]
      exact operandText_of_operand? hoperand

/-! ## Numbers where an operand may stand -/

/-- A number without blanks is the same literal wherever an operand may stand, if it is written plainly: without signs,
or with one sign in front of a digit and with digits, points and `e` only after that. Any other number is refused in
all these places. -/
theorem number_literal (lookup : FilterLookup) {s : List Char} {v : Value} (h : number? s = .ok (some v))
    (hs : ∀ c ∈ s, isBlank c = false) :
    (IsPlain s → ReadAsLiteral lookup s v) ∧
    (¬ IsPlain s → (∀ e, compile lookup (String.ofList s) ≠ .ok e) ∧
      ∀ source e name, compile lookup source = .ok e → name ≠ [] → (∀ c ∈ name, isWord c = true) →
        ∀ e', compile lookup (source ++ String.ofList (callWith name s)) ≠ .ok e') := by
  have hnumeric := isNumeric_of_number? h hs
  have hunbarred := isUnbarred_of_isNumeric hnumeric
  have hform := operandText_iff_isPlain (ne_nil_of_number? h) hnumeric
  refine ⟨fun hplain => ?_, fun hplain => ⟨fun e he => ?_, fun source e name hsource hne hname e' he' => ?_⟩⟩
  · exact readAsLiteral_of_operandText (hform.mpr hplain) (by simp [meaningOf, h]) lookup
  · exact hplain (hform.mp (hunbarred.operandText_of_compile he))
  · exact hplain (hform.mp (hunbarred.operandText_of_argument hsource hne hname he'))

/-- A negative number with an exponent is written plainly, and it is a literal. -/
theorem number_literal_exponent : number? "-25e2".toList = .ok (some (.float (.finite true 5497558138880000 (-41)))) ∧
    (∀ c ∈ "-25e2".toList, isBlank c = false) ∧ IsPlain "-25e2".toList ∧
    ReadAsLiteral (fun name => .ok ⟨none, fun _ => pure (.text name)⟩) "-25e2".toList
      (.float (.finite true 5497558138880000 (-41))) := by
  have hdouble : Double.ofChars? "-25e2".toList = some (.finite true 5497558138880000 (-41)) := by decide +kernel
  have hnumber : number? "-25e2".toList = .ok (some (.float (.finite true 5497558138880000 (-41)))) := by
    rw [number?, if_pos (by decide), hdouble]
    rfl
  have hall : "-25e2".toList.all (!isBlank ·) = true := by decide
  have hblank : ∀ c ∈ "-25e2".toList, isBlank c = false := fun c hc => by simpa using List.all_eq_true.mp hall c hc
  have hplain : IsPlain "-25e2".toList := by
    refine .inr ⟨'-', '2', ['5', 'e', '2'], rfl, .inr rfl, by decide, ?_⟩
    simp only [List.forall_mem_cons]
    exact ⟨by decide, by decide, by decide, by simp⟩
  exact ⟨hnumber, hblank, hplain, (number_literal _ hnumber hblank).1 hplain⟩

/-- With a sign in its exponent a number is a number still, but neither an expression nor an argument, of a filter
that takes one. -/
theorem number_refused : number? "1e-5".toList = .ok (some (.float (.finite false 5902958103587057 (-69)))) ∧
    (∀ c ∈ "1e-5".toList, isBlank c = false) ∧
    let lookup := (fun name => .ok ⟨none, fun _ => pure (.text name)⟩ : FilterLookup)
    (compile lookup "1e-5").isOk = false ∧ (compile lookup "x|f:1e5").isOk = true ∧
      (compile lookup "x|f:1e-5").isOk = false := by
  have hdouble : Double.ofChars? "1e-5".toList = some (.finite false 5902958103587057 (-69)) := by decide +kernel
  have hnumber : number? "1e-5".toList = .ok (some (.float (.finite false 5902958103587057 (-69)))) := by
    rw [number?, if_pos (by decide), hdouble]
    rfl
  have hall : "1e-5".toList.all (!isBlank ·) = true := by decide
  have hblank : ∀ c ∈ "1e-5".toList, isBlank c = false := fun c hc => by simpa using List.all_eq_true.mp hall c hc
  exact ⟨hnumber, hblank, by decide +kernel, by decide +kernel, by decide +kernel⟩

end Pipeline

end TextTemplate
