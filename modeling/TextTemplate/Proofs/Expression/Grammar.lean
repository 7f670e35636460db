import Mathlib.Data.List.Forall2
import TextTemplate.Proofs.Expression.Written

/-!
# The grammar of expressions

An expression is an operand and any number of filter calls. The reader looks for the longest operand or call at
the place where it is; the grammar says nothing of that, it only has the forms that parts can take. They agree
because a bar, a blank or the end must come after each part, and no part can go on over one of these. So there
is one way at most to take a text apart, and what the reader makes of a text is what the grammar says.
-/

namespace TextTemplate

/-- A result whose failure, if it fails, has a property. -/
def FailsWith {ε α : Type} (P : ε → Prop) (r : Except ε α) : Prop := ∀ e, r = .error e → P e

namespace FailsWith

variable {ε α β : Type} {P : ε → Prop}

theorem ok (a : α) : FailsWith P (.ok a) := nofun

theorem error {e : ε} (h : P e) : FailsWith P (.error e : Except ε α) := by
  rintro e' ⟨⟩
  exact h

theorem bind {r : Except ε α} {f : α → Except ε β} (hr : FailsWith P r) (hf : ∀ a, FailsWith P (f a)) :
    FailsWith P (r >>= f) := by
  cases r with
  | ok a => exact hf a
  | error e =>
    rintro e' ⟨⟩
    exact hr e rfl

end FailsWith

namespace Pipeline

open Text Bits

/-! ## Forms -/

/-- The inside of a string between two quotes `q`. A backslash takes any character along but a line break; what
else stands there, the other quote and bars included, stands for itself. -/
inductive StringBody (q : Char) : List Char → Prop
  | nil : StringBody q []
  | plain {c s} (notQuote : c ≠ q) (notEscape : c ≠ '\\') (rest : StringBody q s) : StringBody q (c :: s)
  | escaped {c s} (notLine : c ≠ '\n') (rest : StringBody q s) : StringBody q ('\\' :: c :: s)

/-- An operand or argument. A number without a sign is a run of word characters and dots. -/
inductive OperandText : List Char → Prop
  | string {q body} (quote : isQuote q = true) (inside : StringBody q body) : OperandText (q :: (body ++ [q]))
  | word {s} (nonempty : s ≠ []) (chars : ∀ c ∈ s, isWord c = true ∨ c = '.') : OperandText s
  | number {sign d s} (signed : sign = '+' ∨ sign = '-') (digit : isDecimal d = true)
      (more : ∀ c ∈ s, isDecimal c = true ∨ c = '.' ∨ c = 'e') : OperandText (sign :: d :: s)

/-- A filter call: a bar with blanks around it, a name, and perhaps a colon and an argument. -/
inductive StepText : List Char → Step → Prop
  | bare {before blanks name} (outer : ∀ c ∈ before, isBlank c = true) (inner : ∀ c ∈ blanks, isBlank c = true)
      (nonempty : name ≠ []) (chars : ∀ c ∈ name, isWord c = true) :
      StepText (before ++ '|' :: (blanks ++ name)) ⟨name, none⟩
  | withArgument {before blanks name argument} (outer : ∀ c ∈ before, isBlank c = true)
      (inner : ∀ c ∈ blanks, isBlank c = true) (nonempty : name ≠ []) (chars : ∀ c ∈ name, isWord c = true)
      (operand : OperandText argument) :
      StepText (before ++ '|' :: (blanks ++ (name ++ ':' :: argument))) ⟨name, some argument⟩

/-- Filter calls one after the other. -/
inductive StepsText : List Char → List Step → Prop
  | nil : StepsText [] []
  | cons {call rest step steps} (first : StepText call step) (others : StepsText rest steps) :
      StepsText (call ++ rest) (step :: steps)

/-- A text is an operand and filter calls. -/
def Reads (source operand : List Char) (steps : List Step) : Prop :=
  ∃ rest, source = operand ++ rest ∧ OperandText operand ∧ StepsText rest steps

/-- What a filter call that was read is compiled to: its name is one that the lookup knows, its argument is an
operand, and the filter takes the value and the argument, as far as its signature is known. -/
structure Step.Means (lookup : FilterLookup) (step : Step) (call : FilterCall) : Prop where
  name_eq : call.name = String.ofList step.name
  filter_eq : lookup call.name = .ok call.filter
  argument : Option.Rel (fun text operand => Operand.ofChars text = .ok operand) step.argument call.argument
  accepts : call.filter.accepts (FilterCall.argumentCount call.argument) = true

/-! ## What comes after a part -/

/-- A part ends in front of a bar, a blank or the end. -/
def PartEnds (rest : List Char) : Prop := ∀ c ∈ rest.head?, isBlank c = true ∨ c = '|'

variable {s found rest after : List Char} {step : Step} {steps : List Step}

theorem partEnds_nil : PartEnds [] := by simp [PartEnds]

theorem StepText.partEnds {call : List Char} (h : StepText call step) (rest : List Char) :
    PartEnds (call ++ rest) := by
  have hbar {before more : List Char} (houter : ∀ c ∈ before, isBlank c = true) :
      PartEnds (before ++ '|' :: more ++ rest) := by
    intro c hc
    cases before with
    | nil => exact .inr (by simpa using hc.symm)
    | cons b before =>
      obtain rfl : b = c := by simpa using hc
      exact .inl (houter b List.mem_cons_self)
  cases h with
  | bare houter => exact hbar houter
  | withArgument houter => exact hbar houter

theorem StepsText.partEnds (h : StepsText rest steps) : PartEnds rest := by
  cases h with
  | nil => exact partEnds_nil
  | cons hfirst => exact hfirst.partEnds _

/-- No character of a class goes on over the end of a part, if a plain class without the bar. -/
theorem PartEnds.not {p : Char → Bool} (h : PartEnds rest) (hplain : ∀ {c}, p c = true → isPlain c = true)
    (hbar : p '|' = false) : ∀ c ∈ rest.head?, p c = false := by
  intro c hc
  rcases h c hc with hblank | rfl
  · cases hp : p c with
    | false => rfl
    | true => exact (hplain hp).symm.trans (isPlain_eq_false_of_isBlank hblank)
  · exact hbar

/-- A run of a class up to where the class ends. -/
theorem span_append {p : Char → Bool} (hs : ∀ c ∈ s, p c = true) (hrest : ∀ c ∈ rest.head?, p c = false) :
    (s ++ rest).takeWhile p = s ∧ (s ++ rest).dropWhile p = rest := by
  rw [List.takeWhile_append_of_pos hs, List.dropWhile_append_of_pos hs]
  cases rest with
  | nil => simp
  | cons c rest => simp [hrest c rfl]

/-! ## Strings -/

/-- What is read up to the closing quote is the inside of a string and that quote. -/
theorem closing?_eq_some {q : Char} {inside : List Char} (h : closing? q s = some (inside, after)) :
    ∃ body, inside = body ++ [q] ∧ StringBody q body := by
  have hne {c : Char} {rest : List Char} (h₁ : c = '\\' → rest = [] → False)
      (h₂ : ∀ d more, c = '\\' → rest = d :: more → False) : c ≠ '\\' := fun hc => by
    cases rest with
    | nil => exact h₁ hc rfl
    | cons d more => exact h₂ d more hc rfl
  fun_induction closing? q s generalizing inside after with
  | case1 | case2 | case3 => simp at h
  | case4 c rest hline ih =>
    simp only [Option.map_eq_some_iff, Prod.exists, Prod.mk.injEq] at h
    obtain ⟨a, b, hab, rfl, rfl⟩ := h
    obtain ⟨body, rfl, hbody⟩ := ih hab
    exact ⟨'\\' :: c :: body, rfl, .escaped (by simpa using hline) hbody⟩
  | case5 c rest h₁ h₂ hq =>
    obtain ⟨rfl, -⟩ : [c] = inside ∧ rest = after := by simpa using h
    obtain rfl : c = q := by simpa using hq
    exact ⟨[], rfl, .nil⟩
  | case6 c rest h₁ h₂ hq ih =>
    simp only [Option.map_eq_some_iff, Prod.exists, Prod.mk.injEq] at h
    obtain ⟨a, b, hab, rfl, rfl⟩ := h
    obtain ⟨body, rfl, hbody⟩ := ih hab
    exact ⟨c :: body, rfl, .plain (by simpa using hq) (hne h₁ h₂) hbody⟩

/-- The inside of a string is read up to the quote after it. -/
theorem StringBody.closing {q : Char} {body : List Char} (h : StringBody q body) (hq : q ≠ '\\')
    (rest : List Char) : closing? q (body ++ q :: rest) = some (body ++ [q], rest) := by
  induction h with
  | nil => rw [List.nil_append, closing?_cons hq, if_pos (beq_self_eq_true q), List.nil_append]
  | plain hquote hescape _ ih =>
    rw [List.cons_append, closing?_cons hescape, if_neg (by simpa using hquote), ih]
    rfl
  | escaped hline _ ih => simp [closing?, hline, ih]

/-! ## Operands -/

/-- An operand that is read has one of the forms. -/
theorem operandText_of_operand? (h : operand? s = some (found, after)) : OperandText found := by
  unfold operand? at h
  split at h
  · rename_i hclosed
    cases h
    cases s with
    | nil => simp [closedString?] at hclosed
    | cons q rest =>
      simp only [closedString?] at hclosed
      split_ifs at hclosed with hq
      simp only [Option.map_eq_some_iff, Prod.exists, Prod.mk.injEq] at hclosed
      obtain ⟨inside, b, hc, rfl, rfl⟩ := hclosed
      obtain ⟨body, rfl, hbody⟩ := closing?_eq_some hc
      exact .string hq hbody
  · unfold bare? at h
    split at h
    · cases h
    · rename_i c rest
      split_ifs at h with hpath hsign
      · cases h
        refine .word (List.cons_ne_nil _ _) fun d hd => ?_
        have hchar : isPathChar d = true := by
          rcases List.mem_cons.mp hd with rfl | hd
          · exact hpath
          · exact List.mem_takeWhile_imp hd
        simpa [isPathChar] using hchar
      · split at h
        · rename_i d more
          split_ifs at h with hdigit
          cases h
          refine .number (by simpa using hsign) hdigit fun e he => ?_
          have hchar : isNumberChar e = true := List.mem_takeWhile_imp he
          simpa [isNumberChar, or_assoc] using hchar
        · cases h

/-- An operand is read up to where its part ends. -/
theorem OperandText.operand?_append (h : OperandText found) (hrest : PartEnds rest) :
    operand? (found ++ rest) = some (found, rest) := by
  cases h with
  | @string q body hq hbody =>
    have hescape : q ≠ '\\' := by
      rcases isQuote_iff.mp hq with rfl | rfl <;> decide
    have hclosed := hbody.closing hescape rest
    simp [operand?, closedString?, hq, hclosed]
  | word hne hchars =>
    obtain ⟨c, s, rfl⟩ := List.exists_cons_of_ne_nil hne
    have hpath : ∀ d ∈ c :: s, isPathChar d = true := fun d hd => by simpa [isPathChar] using hchars d hd
    obtain ⟨hc, hs⟩ := List.forall_mem_cons.mp hpath
    have hquote := isQuote_eq_false_of_isPlain (isPlain_of_isPathChar hc)
    obtain ⟨htake, hdrop⟩ := span_append hs (hrest.not isPlain_of_isPathChar (by decide))
    rw [operand?, List.cons_append, closedString?_eq_none hquote]
    simp [bare?, hc, htake, hdrop]
  | @number sign d s hsign hdigit hmore =>
    have hnumber : ∀ c ∈ s, isNumberChar c = true := fun c hc => by
      simpa [isNumberChar, or_assoc] using hmore c hc
    have hquote : isQuote sign = false := by rcases hsign with rfl | rfl <;> decide
    have hpath : isPathChar sign = false := by rcases hsign with rfl | rfl <;> decide
    have hsigned : (sign == '+' || sign == '-') = true := by simpa using hsign
    obtain ⟨htake, hdrop⟩ := span_append hnumber (hrest.not isPlain_of_isNumberChar (by decide))
    rw [operand?, List.cons_append, List.cons_append, closedString?_eq_none hquote]
    simp [bare?, hpath, hsigned, hdigit, htake, hdrop]

/-! ## Filter calls -/

/-- A filter call that is read has one of the forms, and stands at the start of the text. -/
theorem stepText_of_step? (h : step? s = some (step, after)) : ∃ call, s = call ++ after ∧ StepText call step := by
  unfold step? at h
  split at h
  · rename_i more hbar
    dsimp only at h
    split_ifs at h with hname
    have hs : s = s.takeWhile isBlank ++ '|' :: more := by
      rw [← hbar]
      exact List.takeWhile_append_dropWhile.symm
    have hmore : more = more.takeWhile isBlank ++ dropBlanks more := List.takeWhile_append_dropWhile.symm
    have hbody : dropBlanks more = (dropBlanks more).takeWhile isWord ++ (dropBlanks more).dropWhile isWord :=
      List.takeWhile_append_dropWhile.symm
    have houter : ∀ c ∈ s.takeWhile isBlank, isBlank c = true := fun c hc => List.mem_takeWhile_imp hc
    have hinner : ∀ c ∈ more.takeWhile isBlank, isBlank c = true := fun c hc => List.mem_takeWhile_imp hc
    have hword : ∀ c ∈ (dropBlanks more).takeWhile isWord, isWord c = true :=
      fun c hc => List.mem_takeWhile_imp hc
    have hne : (dropBlanks more).takeWhile isWord ≠ [] := by simpa using hname
    split at h
    · rename_i argument after' hargument
      cases h
      obtain ⟨hcall, -⟩ := argument?_eq_some hargument
      have hoperand : OperandText argument := by
        unfold argument? at hargument
        split at hargument
        · exact operandText_of_operand? hargument
        · cases hargument
      refine ⟨_, ?_, .withArgument houter hinner hne hword hoperand⟩
      rw [hcall] at hbody
      calc
        s = s.takeWhile isBlank ++ '|' :: (more.takeWhile isBlank ++
            ((dropBlanks more).takeWhile isWord ++ (':' :: argument ++ after))) := by rw [← hbody, ← hmore, ← hs]
        _ = _ := by simp
    · cases h
      refine ⟨_, ?_, .bare houter hinner hne hword⟩
      calc
        s = s.takeWhile isBlank ++ '|' :: (more.takeWhile isBlank ++
            ((dropBlanks more).takeWhile isWord ++ (dropBlanks more).dropWhile isWord)) := by
          rw [← hbody, ← hmore, ← hs]
        _ = _ := by simp
  · cases h

/-- A filter call is read up to where its part ends. -/
theorem StepText.step?_append {call : List Char} (h : StepText call step) (hrest : PartEnds rest) :
    step? (call ++ rest) = some (step, rest) := by
  have hbar : ('|' : Char) ≠ ':' ∧ isBlank '|' = false ∧ isWord '|' = false := by decide
  have hcolon : isWord ':' = false := by decide
  -- blanks are dropped before the bar and before the name
  have hdrop {blanks more : List Char} (hblanks : ∀ c ∈ blanks, isBlank c = true)
      (hmore : ∀ c ∈ more.head?, isBlank c = false) : dropBlanks (blanks ++ more) = more :=
    (span_append hblanks hmore).2
  have hname {name : List Char} (hne : name ≠ []) (hchars : ∀ c ∈ name, isWord c = true) (more : List Char) :
      ∀ c ∈ (name ++ more).head?, isBlank c = false := by
    intro c hc
    rw [List.head?_append_of_ne_nil _ hne] at hc
    exact isBlank_eq_false_of_isWord (hchars c (List.mem_of_mem_head? hc))
  cases h with
  | @bare before blanks name houter hinner hne hchars =>
    have hargument : argument? rest = none := by
      cases rest with
      | nil => rfl
      | cons c rest =>
        have hc : c ≠ ':' := by
          rintro rfl
          rcases hrest ':' rfl with hblank | hbar
          · exact absurd hblank (by decide)
          · exact absurd hbar (by decide)
        simp [argument?, hc]
    obtain ⟨htake, hleft⟩ := span_append hchars (hrest.not isPlain_of_isWord hbar.2.2)
    have hbody : dropBlanks (blanks ++ (name ++ rest)) = name ++ rest := hdrop hinner (hname hne hchars rest)
    have hstart : dropBlanks (before ++ '|' :: (blanks ++ (name ++ rest))) = '|' :: (blanks ++ (name ++ rest)) :=
      hdrop houter fun c hc => by simpa [← (by simpa using hc : '|' = c)] using hbar.2.1
    rw [List.append_assoc, List.cons_append, List.append_assoc, step?, hstart]
    simp [hbody, htake, hleft, hne, hargument]
  | @withArgument before blanks name argument houter hinner hne hchars hoperand =>
    have hargument : argument? (':' :: (argument ++ rest)) = some (argument, rest) :=
      hoperand.operand?_append hrest
    have hstop : ∀ c ∈ (':' :: (argument ++ rest)).head?, isWord c = false :=
      fun c hc => by simpa [← (by simpa using hc : ':' = c)] using hcolon
    obtain ⟨htake, hleft⟩ := span_append hchars hstop
    have hbody := hdrop hinner (hname hne hchars (':' :: (argument ++ rest)))
    have hstart : dropBlanks (before ++ '|' :: (blanks ++ (name ++ ':' :: (argument ++ rest)))) =
        '|' :: (blanks ++ (name ++ ':' :: (argument ++ rest))) :=
      hdrop houter fun c hc => by simpa [← (by simpa using hc : '|' = c)] using hbar.2.1
    rw [List.append_assoc, List.cons_append, List.append_assoc, List.append_assoc, List.cons_append, step?, hstart]
    simp [hbody, htake, hleft, hne, hargument]

/-- Filter calls are read one by one up to the end. -/
theorem StepsText.read (h : StepsText rest steps) : match steps with
    | [] => rest = [] ∧ step? rest = none
    | step :: more => ∃ after, step? rest = some (step, after) ∧ StepsText after more := by
  cases h with
  | nil => exact ⟨rfl, rfl⟩
  | cons hfirst hothers => exact ⟨_, hfirst.step?_append hothers.partEnds, hothers⟩

/-- There is one way at most to take a text apart into filter calls. -/
theorem StepsText.unique {steps' : List Step} (h : StepsText rest steps) (h' : StepsText rest steps') :
    steps' = steps := by
  induction steps generalizing rest steps' with
  | nil =>
    cases steps' with
    | nil => rfl
    | cons step' more' =>
      obtain ⟨after, hread, -⟩ := h'.read
      cases h.read.2.symm.trans hread
  | cons step more ih =>
    obtain ⟨after, hread, hothers⟩ := h.read
    cases steps' with
    | nil => cases h'.read.2.symm.trans hread
    | cons step' more' =>
      obtain ⟨after', hread', hothers'⟩ := h'.read
      cases hread.symm.trans hread'
      rw [ih hothers hothers']

/-- There is one way at most to take a text apart into an operand and filter calls. -/
theorem Reads.unique {source operand operand' : List Char} {steps' : List Step} (h : Reads source operand steps)
    (h' : Reads source operand' steps') : operand' = operand ∧ steps' = steps := by
  obtain ⟨rest, rfl, hoperand, hsteps⟩ := h
  obtain ⟨rest', hsource, hoperand', hsteps'⟩ := h'
  have hread := hoperand.operand?_append hsteps.partEnds
  rw [hsource, hoperand'.operand?_append hsteps'.partEnds] at hread
  cases hread
  exact ⟨rfl, hsteps.unique hsteps'⟩

/-! ## Compiling -/

theorem check_eq_ok_iff {name : String} {filter : Filter} {argument : Option Operand} :
    FilterCall.check name filter argument = .ok () ↔
      filter.accepts (FilterCall.argumentCount argument) = true := by
  rw [FilterCall.check, Filter.accepts]
  cases filter.signature? with
  | none => simp
  | some signature =>
    by_cases h : signature.accepts (FilterCall.argumentCount argument) = true <;> simp [h]

/-- A filter call compiles to what it means. -/
theorem compileStep_eq_ok_iff {lookup : FilterLookup} {call : FilterCall} :
    compileStep lookup step = .ok call ↔ step.Means lookup call := by
  have hcall (argument : Option Operand) : (do
        let filter ← lookup (String.ofList step.name)
        FilterCall.check (String.ofList step.name) filter argument
        return ⟨String.ofList step.name, filter, argument⟩ : Except CompileError FilterCall) = .ok call ↔
      call.name = String.ofList step.name ∧ lookup call.name = .ok call.filter ∧ call.argument = argument ∧
        call.filter.accepts (FilterCall.argumentCount call.argument) = true := by
    constructor
    · intro h
      obtain ⟨filter, hfilter, h⟩ := bind_eq_ok_iff.mp h
      obtain ⟨⟨⟩, hcheck, h⟩ := bind_eq_ok_iff.mp h
      obtain rfl : ⟨String.ofList step.name, filter, argument⟩ = call := Except.ok.inj h
      exact ⟨rfl, hfilter, rfl, check_eq_ok_iff.mp hcheck⟩
    · rintro ⟨hname, hfilter, rfl, haccepts⟩
      rw [hname] at hfilter
      refine bind_eq_ok_iff.mpr ⟨call.filter, hfilter, bind_eq_ok_iff.mpr ⟨(), check_eq_ok_iff.mpr haccepts, ?_⟩⟩
      rw [← hname]
      rfl
  rw [compileStep]
  cases hargument : step.argument with
  | none =>
    rw [pure_bind, hcall]
    constructor
    · rintro ⟨hname, hfilter, hnone, haccepts⟩
      exact ⟨hname, hfilter, by rw [hargument, hnone]; exact .none, haccepts⟩
    · rintro ⟨hname, hfilter, hrel, haccepts⟩
      rw [hargument] at hrel
      cases h : call.argument with
      | none => exact ⟨hname, hfilter, rfl, h ▸ haccepts⟩
      | some o =>
        rw [h] at hrel
        cases hrel
  | some text =>
    constructor
    · intro h
      obtain ⟨argument, hread, h⟩ := bind_eq_ok_iff.mp h
      cases hoperand : Operand.ofChars text with
      | error e =>
        rw [hoperand] at hread
        cases hread
      | ok o =>
        rw [hoperand] at hread
        obtain rfl : some o = argument := Except.ok.inj hread
        obtain ⟨hname, hfilter, hsome, haccepts⟩ := (hcall _).mp h
        exact ⟨hname, hfilter, by rw [hargument, hsome]; exact .some hoperand, haccepts⟩
    · rintro ⟨hname, hfilter, hrel, haccepts⟩
      rw [hargument] at hrel
      cases h : call.argument with
      | none =>
        rw [h] at hrel
        cases hrel
      | some o =>
        rw [h] at hrel
        cases hrel with
        | some hoperand =>
          refine bind_eq_ok_iff.mpr ⟨some o, by rw [hoperand]; rfl, (hcall _).mpr ?_⟩
          exact ⟨hname, hfilter, h, haccepts⟩

/-- The filter calls that a text can be taken apart into are the ones that are compiled. -/
theorem compileSteps_eq_ok_iff {lookup : FilterLookup} {source : List Char} {calls : List FilterCall} :
    compileSteps lookup source rest = .ok calls ↔
      ∃ steps, StepsText rest steps ∧ List.Forall₂ (Step.Means lookup) steps calls := by
  constructor
  · intro h
    fun_induction compileSteps lookup source rest generalizing calls with
    | case1 rest step after hstep ih =>
      obtain ⟨call, hcall, h⟩ := bind_eq_ok_iff.mp h
      obtain ⟨more, hmore, h⟩ := bind_eq_ok_iff.mp h
      obtain rfl : call :: more = calls := Except.ok.inj h
      obtain ⟨text, rfl, htext⟩ := stepText_of_step? hstep
      obtain ⟨steps, hsteps, hmeans⟩ := ih hmore
      exact ⟨step :: steps, .cons htext hsteps, .cons (compileStep_eq_ok_iff.mp hcall) hmeans⟩
    | case2 rest hstep hempty =>
      obtain rfl := List.isEmpty_iff.mp hempty
      obtain rfl : [] = calls := Except.ok.inj h
      exact ⟨[], .nil, .nil⟩
    | case3 => cases h
  · rintro ⟨steps, hsteps, hmeans⟩
    induction hmeans generalizing rest with
    | nil =>
      obtain ⟨rfl, hread⟩ := hsteps.read
      rw [compileSteps]
      rfl
    | cons hcall _ ih =>
      obtain ⟨after, hread, hothers⟩ := hsteps.read
      rw [compileSteps]
      split
      · rename_i hread'
        cases hread.symm.trans hread'
        exact bind_eq_ok_iff.mpr ⟨_, compileStep_eq_ok_iff.mpr hcall, bind_eq_ok_iff.mpr ⟨_, ih hothers, rfl⟩⟩
      · rename_i hread'
        cases hread.symm.trans hread'

/-! ## Failing -/

section Failing

variable {P : CompileError → Prop} {lookup : FilterLookup}

theorem check_failsWith (hfault : ∀ fault, P (.ofCause (.expression fault))) (name : String) (filter : Filter)
    (argument : Option Operand) : FailsWith P (FilterCall.check name filter argument) := by
  rw [FilterCall.check]
  split
  · exact .ok _
  · split
    · exact .ok _
    · exact .error (hfault _)

theorem ofChars_failsWith (hfault : ∀ fault, P (.ofCause (.expression fault))) (text : List Char) :
    FailsWith P (Operand.ofChars text) := by
  rw [Operand.ofChars]
  split
  · exact .ok _
  · exact .error (hfault _)

variable (hfault : ∀ fault, P (.ofCause (.expression fault))) (hlookup : ∀ name, FailsWith P (lookup name))
include hfault hlookup

theorem compileStep_failsWith (step : Step) : FailsWith P (compileStep lookup step) := by
  have hcall (argument : Option Operand) : FailsWith P (do
      let filter ← lookup (String.ofList step.name)
      FilterCall.check (String.ofList step.name) filter argument
      return ⟨String.ofList step.name, filter, argument⟩ : Except CompileError FilterCall) :=
    .bind (hlookup _) fun filter => .bind (check_failsWith hfault _ filter argument) fun _ => .ok _
  rw [compileStep]
  cases step.argument with
  | none => exact hcall none
  | some text => exact .bind (.bind (ofChars_failsWith hfault text) fun operand => .ok (some operand)) hcall

theorem compileSteps_failsWith (source rest : List Char) : FailsWith P (compileSteps lookup source rest) := by
  fun_induction compileSteps lookup source rest with
  | case1 rest step after _ ih =>
    exact .bind (compileStep_failsWith hfault hlookup step) fun call => .bind ih fun calls => .ok _
  | case2 => exact .ok _
  | case3 => exact .error (hfault _)

/-- Reading an expression fails over the syntax, or as the lookup of a filter does. -/
theorem compile_failsWith (source : String) : FailsWith P (compile lookup source) := by
  rw [compile, compileChars]
  split
  · exact .error (hfault _)
  · split
    · exact .bind (ofChars_failsWith hfault _) fun operand =>
        .bind (compileSteps_failsWith hfault hlookup _ _) fun calls => .ok _
    · split <;> exact .error (hfault _)

theorem compileChain_failsWith (source : String) : FailsWith P (compileChain lookup source) := by
  rw [compileChain]
  split
  · exact .error (hfault _)
  · exact compileSteps_failsWith hfault hlookup _ _

end Failing

/-! ## Expressions and chains -/

section Compiled

variable {lookup : FilterLookup}

/-- A text that compiles is taken apart as the grammar says. -/
theorem exists_reads_of_compile {source : String} {e : Expression} (h : compile lookup source = .ok e) :
    ∃ operand steps, Reads source.toList operand steps ∧ e.source = source ∧
      Operand.ofChars operand = .ok e.operand ∧ List.Forall₂ (Step.Means lookup) steps e.calls := by
  unfold compile compileChars at h
  split_ifs at h
  · cases h
  split at h
  · rename_i found rest hfound
    obtain ⟨operand, hoperand, h⟩ := bind_eq_ok_iff.mp h
    obtain ⟨calls, hcalls, h⟩ := bind_eq_ok_iff.mp h
    obtain rfl : (⟨String.ofList source.toList, operand, calls⟩ : Expression) = e := Except.ok.inj h
    obtain ⟨steps, hsteps, hmeans⟩ := compileSteps_eq_ok_iff.mp hcalls
    obtain ⟨hsource, -, -⟩ := operand?_eq_some hfound
    exact ⟨found, steps, ⟨rest, hsource, operandText_of_operand? hfound, hsteps⟩, by simp, hoperand, hmeans⟩
  · split at h <;> cases h

/-- A text that is taken apart compiles, if its parts mean something. -/
theorem compile_of_reads {source : String} {operand : List Char} {e : Expression}
    (h : Reads source.toList operand steps) (he : e.source = source)
    (hoperand : Operand.ofChars operand = .ok e.operand)
    (hmeans : List.Forall₂ (Step.Means lookup) steps e.calls) : compile lookup source = .ok e := by
  obtain ⟨rest, hsource, htext, hsteps⟩ := h
  have hread : operand? source.toList = some (operand, rest) :=
    hsource ▸ htext.operand?_append hsteps.partEnds
  have hne : source.toList ≠ [] := by
    intro hnil
    rw [hnil] at hread
    cases hread
  unfold compile compileChars
  rw [if_neg (by simpa using hne), hread]
  refine bind_eq_ok_iff.mpr ⟨e.operand, hoperand, bind_eq_ok_iff.mpr ⟨e.calls, ?_, ?_⟩⟩
  · exact compileSteps_eq_ok_iff.mpr ⟨steps, hsteps, hmeans⟩
  · rw [String.ofList_toList, ← he]
    rfl

theorem means_of_forall₂ {calls : List FilterCall} (h : List.Forall₂ (Step.Means lookup) steps calls) :
    ∀ c ∈ calls, ∃ step : Step, step.Means lookup c := by
  induction h with
  | nil => exact List.forall_mem_nil _
  | cons hcall _ ih => exact List.forall_mem_cons.mpr ⟨⟨_, hcall⟩, ih⟩

/-- Every call of an expression means something to the lookup it was compiled with. -/
theorem means_of_compile {source : String} {e : Expression} (h : compile lookup source = .ok e) :
    ∀ c ∈ e.calls, ∃ step : Step, step.Means lookup c := by
  obtain ⟨operand, steps, -, -, -, hmeans⟩ := exists_reads_of_compile h
  exact means_of_forall₂ hmeans

theorem means_of_compileChain {source : String} {calls : List FilterCall}
    (h : compileChain lookup source = .ok calls) : ∀ c ∈ calls, ∃ step : Step, step.Means lookup c := by
  rw [compileChain] at h
  split at h
  · cases h
  · obtain ⟨steps, -, hmeans⟩ := compileSteps_eq_ok_iff.mp h
    exact means_of_forall₂ hmeans

end Compiled

/-- A text compiles to an expression exactly when it can be taken apart as the grammar says, into an operand that
stands for something and filter calls that all mean something; the expression has this operand and these calls, in
order. There is no second way to take a text apart. A text that does not compile fails over its syntax, or as the
lookup of a filter does. -/
theorem compile_ok_iff_reads (lookup : FilterLookup) (source : String) :
    (∀ e, compile lookup source = .ok e ↔
      ∃ operand steps, Reads source.toList operand steps ∧ e.source = source ∧
        Operand.ofChars operand = .ok e.operand ∧ List.Forall₂ (Step.Means lookup) steps e.calls) ∧
    (∀ operand steps operand' steps', Reads source.toList operand steps → Reads source.toList operand' steps' →
      operand' = operand ∧ steps' = steps) ∧
    ∀ e, compile lookup source = .error e →
      (∃ fault, e = .ofCause (.expression fault)) ∨ ∃ name, lookup name = .error e := by
  refine ⟨fun e => ⟨exists_reads_of_compile, ?_⟩, fun _ _ _ _ h h' => h.unique h', ?_⟩
  · rintro ⟨operand, steps, hreads, he, hoperand, hmeans⟩
    exact compile_of_reads hreads he hoperand hmeans
  · exact compile_failsWith (fun fault => .inl ⟨fault, rfl⟩) (fun name e he => .inr ⟨name, he⟩) source

end Pipeline

end TextTemplate
