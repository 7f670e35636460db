import TextTemplate.Filter.Standard
import TextTemplate.Proofs.Tag.Header
import TextTemplate.Proofs.Value.Ordinary

/-!
# How the standard filters degrade

Given ordinary data, the standard filters fall back on the value itself, on the empty text or on zero wherever they can
do nothing with what they were given. There are three gaps in this: an infinite number where an integer is wanted, an
integer beyond the range of the other numbers that is added to the undefined one, and choices that are no text.
-/

namespace TextTemplate.StandardFilter

open Text

variable {v a : Value} {st : Store}

/-! ## Reading integers -/

def IsInfinite (v : Value) : Prop := ∃ negative, v = .float (.infinite negative)

/-- The integer that a value is read as, where that does not fail. -/
def integer? : Value → Option Int
  | .bool b => some (if b then 1 else 0)
  | .int n => some n
  | .float x => x.truncate?
  | .text s => Integer.ofString? s
  | _ => none

theorem toInteger?_infinite (h : IsInfinite v) (st : Store) : toInteger? v st = .error .infiniteNumber st := by
  obtain ⟨negative, rfl⟩ := h
  rfl

theorem toInteger?_run (h : ¬ IsInfinite v) (st : Store) : toInteger? v st = .ok (integer? v) st := by
  cases v with
  | float x =>
    cases x with
    | finite negative m q => rfl
    | infinite negative => exact absurd ⟨negative, rfl⟩ h
  | _ => rfl

/-! ## Calls that are refused -/

/-- An infinite number where an integer is wanted, or the undefined number and an integer beyond the range of the other
numbers. An infinite operand that is added to something else than an integer is not asked for one. -/
def Unsummable (v a : Value) : Prop :=
  IsInfinite v ∨ ((integer? v).isSome = true ∧ IsInfinite a) ∨ ((∃ id, v = .nan id) ∧ isBeyondRange a = true) ∨
    (isBeyondRange v = true ∧ ∃ id, a = .nan id)

/-- The calls of standard filters that fail with ordinary data, and how they fail. -/
def Refused (name : String) (arguments : List Value) (e : RenderError) : Prop :=
  match name, arguments with
  | "truncatechars", [_, a] => IsInfinite a ∧ e = .infiniteNumber
  | "add", [v, a] => Unsummable v a ∧ e = .infiniteNumber
  | "yesno", [_, a] => a ≠ .none ∧ (∀ s, a ≠ .text s) ∧
      e = if (a.attribute? "split").isSome then .unsupportedKind else .notText
  | _, _ => False

theorem Refused.name_mem {name : String} {arguments : List Value} {e : RenderError} (h : Refused name arguments e) :
    name ∈ ["truncatechars", "add", "yesno"] := by
  unfold Refused at h
  split at h
  · decide
  · decide
  · decide
  · exact h.elim

def Answers (m : EvalM Value) (st : Store) : Prop := ∃ result st', m st = .ok result st'

/-- The call answers, unless it is one of those that are refused. -/
def Degrades (name : String) (arguments : List Value) (m : EvalM Value) (st : Store) : Prop :=
  (∃ e, Refused name arguments e ∧ m st = .error e st) ∨ ((∀ e, ¬ Refused name arguments e) ∧ Answers m st)

theorem degrades_of_answers {name : String} (hname : name ∉ ["truncatechars", "add", "yesno"]) {m : EvalM Value}
    (h : Answers m st) (arguments : List Value) : Degrades name arguments m st :=
  .inr ⟨fun _ hrefused => hname hrefused.name_mem, h⟩

/-! ## Texts -/

theorem ofText_answers (f : List Char → List Char) (hv : v.isOrdinary = true) (st : Store) :
    Answers (do return .text (String.ofList (f (← v.write).toList))) st := by
  obtain ⟨s, hs⟩ := Value.write_of_isOrdinary hv st
  rw [Answers, run_bind_ok hs]
  exact ⟨_, _, rfl⟩

theorem cut_answers (hv : v.isOrdinary = true) (ha : a.isOrdinary = true) (st : Store) : Answers (cut v a) st := by
  obtain ⟨s, hs⟩ := Value.write_of_isOrdinary hv st
  obtain ⟨part, hpart⟩ := Value.write_of_isOrdinary ha st
  rw [Answers, cut, run_bind_ok hs, run_bind_ok hpart]
  exact ⟨_, _, rfl⟩

/-- A length that is no integer leaves the value alone. -/
theorem truncateChars_of_integer?_eq_none (ha : integer? a = none) (hfinite : ¬ IsInfinite a) (v : Value) (st : Store) :
    truncateChars v a st = .ok v st := by
  rw [truncateChars, run_bind_ok (toInteger?_run hfinite st), ha]
  rfl

theorem truncateChars_degrades (hv : v.isOrdinary = true) (a : Value) (st : Store) :
    Degrades "truncatechars" [v, a] (truncateChars v a) st := by
  by_cases hfinite : IsInfinite a
  · refine .inl ⟨.infiniteNumber, ⟨hfinite, rfl⟩, ?_⟩
    rw [truncateChars, run_bind_error (toInteger?_infinite hfinite st)]
  · refine .inr ⟨fun e hrefused => hfinite hrefused.1, ?_⟩
    cases ha : integer? a with
    | none => exact ⟨v, st, truncateChars_of_integer?_eq_none ha hfinite v st⟩
    | some n =>
      obtain ⟨s, hs⟩ := Value.write_of_isOrdinary hv st
      rw [Answers, truncateChars, run_bind_ok (toInteger?_run hfinite st), ha]
      dsimp only
      rw [run_bind_ok hs]
      split_ifs
      · exact ⟨_, _, rfl⟩
      · exact ⟨_, _, rfl⟩
      · exact ⟨_, _, rfl⟩

/-! ## Sequences -/

theorem writeAll_run {items : List Value} (h : ∀ v ∈ items, v.isWritable = true) (st : Store) :
    ∃ texts, writeAll items st = .ok texts st := by
  induction items with
  | nil => exact ⟨[], rfl⟩
  | cons v rest ih =>
    obtain ⟨hv, hrest⟩ := List.forall_mem_cons.mp h
    obtain ⟨s, hs⟩ := Value.write_of_isWritable hv st
    obtain ⟨texts, htexts⟩ := ih hrest
    refine ⟨s :: texts, ?_⟩
    rw [writeAll, run_bind_ok hs, run_bind_ok htexts]
    rfl

theorem isWritable_of_mem_sizedItems? (hv : v.isOrdinary = true) {items : List Value}
    (hitems : v.sizedItems? st = some items) : ∀ w ∈ items, w.isWritable = true := by
  have hwritable := Value.isWritable_of_isOrdinary v hv
  cases v with
  | text s =>
    cases hitems
    exact List.forall_mem_map.mpr fun _ _ => rfl
  | list id first =>
    cases hitems
    rw [Value.isWritable] at hwritable
    exact Value.allWritable_iff.mp (Value.allWritable_pick hwritable st id)
  | tuple first | set first =>
    cases hitems
    rw [Value.isWritable] at hwritable
    exact Value.allWritable_iff.mp hwritable
  | mapping id entries =>
    cases hitems
    rw [Value.isWritable] at hwritable
    have hpicked := Value.entriesWritable_iff.mp (Value.entriesWritable_pick hwritable st id)
    exact List.forall_mem_map.mpr fun e he => (hpicked e he).1 rfl
  | view kind id source entries => cases hv
  | _ => cases hitems

/-- A value that cannot be read through is not joined. -/
theorem join_of_not_isReadable (ha : a.isOrdinary = true) (hv : isReadable st v = false) : join v a st = .ok v st := by
  obtain ⟨separator, hseparator⟩ := Value.write_of_isOrdinary ha st
  rw [join, run_bind_ok hseparator, run_bind_get, if_neg (by simp [hv])]
  rfl

theorem join_answers (hv : v.isOrdinary = true) (ha : a.isOrdinary = true) (st : Store) : Answers (join v a) st := by
  cases hreadable : isReadable st v with
  | false => exact ⟨v, st, join_of_not_isReadable ha hreadable⟩
  | true =>
    obtain ⟨separator, hseparator⟩ := Value.write_of_isOrdinary ha st
    obtain ⟨items, hitems⟩ : ∃ items, v.sizedItems? st = some items := by
      cases v with
      | onceOnly id items => cases hv
      | _ => simpa [isReadable, Value.length?, Option.isSome_iff_exists] using hreadable
    have hread : v.items st = .ok items st := by
      rw [Value.items, run_bind_get]
      simp only [hitems]
      rfl
    obtain ⟨texts, htexts⟩ := writeAll_run (isWritable_of_mem_sizedItems? hv hitems) st
    rw [Answers, join, run_bind_ok hseparator, run_bind_get, if_pos hreadable, run_bind_ok hread, run_bind_ok htexts]
    exact ⟨_, _, rfl⟩

/-- The items of a value that stand at positions. -/
def placed? (st : Store) : Value → Option (List Value)
  | .text s => some (Value.characters s)
  | .list id items => some (st.pick id items)
  | .tuple items => some items
  | _ => none

theorem atPosition_zero {α : Type} (children : List α) : Value.atPosition children 0 = children.head? := by
  simp [Value.atPosition, List.head?_eq_getElem?]

theorem atPosition_last {α : Type} (children : List α) : Value.atPosition children (-1) = children.getLast? := by
  cases children with
  | nil => rfl
  | cons child rest =>
    have hlong : (1 : Int) ≤ rest.length + 1 := by omega
    simp [Value.atPosition, List.getLast?_eq_getElem?, hlong]

theorem atPosition_map {α β : Type} (f : α → β) (children : List α) (n : Int) :
    Value.atPosition (children.map f) n = (Value.atPosition children n).map f := by
  rw [Value.atPosition, Value.atPosition, List.length_map]
  split_ifs <;> simp

/-- The first and the last item are the empty text where there is none. -/
theorem itemOrEmpty_placed {items : List Value} (h : placed? st v = some items) :
    itemOrEmpty 0 v st = .ok (items.head?.getD (.text "")) st ∧
      itemOrEmpty (-1) v st = .ok (items.getLast?.getD (.text "")) st := by
  have hitem (n : Int) : v.itemAt? st n = Value.atPosition items n := by
    cases v with
    | text s =>
      cases h
      exact (atPosition_map _ s.toList n).symm
    | list id first | tuple first =>
      cases h
      rfl
    | _ => cases h
  have hrun (n : Int) : itemOrEmpty n v st = .ok ((Value.atPosition items n).getD (.text "")) st := by
    rw [← hitem]
    rfl
  rw [hrun, hrun, atPosition_zero, atPosition_last]
  exact ⟨rfl, rfl⟩

theorem itemOrEmpty_unplaced (h : placed? st v = none) (hmapping : ∀ id entries, v ≠ .mapping id entries) (n : Int) :
    itemOrEmpty n v st = .ok (.text "") st := by
  cases v with
  | text s | list id items | tuple items => cases h
  | mapping id entries => exact absurd rfl (hmapping id entries)
  | _ => rfl

/-! ## Sums -/

theorem not_isInfinite_of_integer? {n : Int} (h : integer? v = some n) : ¬ IsInfinite v := by
  rintro ⟨negative, rfl⟩
  cases h

theorem not_isInfinite_nan (id : Ident) : ¬ IsInfinite (.nan id) := by
  rintro ⟨negative, h⟩
  cases h

theorem exists_eq_int (h : isBeyondRange v = true) : ∃ n, v = .int n := by
  cases v with
  | int n => exact ⟨n, rfl⟩
  | _ => cases h

/-- A number that is read as no integer is infinite or undefined. -/
theorem exists_eq_nan (hnumber : isNumber v = true) (hinteger : integer? v = none) (hfinite : ¬ IsInfinite v) :
    ∃ id, v = .nan id := by
  cases v with
  | nan id => exact ⟨id, rfl⟩
  | float x =>
    cases x with
    | finite negative m q => cases hinteger
    | infinite negative => exact absurd ⟨negative, rfl⟩ hfinite
  | bool b => cases hinteger
  | int n => cases hinteger
  | _ => cases hnumber

/-- An argument is read as an integer only if the value is one. -/
theorem add_run (hv : ¬ IsInfinite v) (ha : (integer? v).isSome = true → ¬ IsInfinite a) (st : Store) :
    add v a st = match integer? v, integer? a with
      | some n, some m => .ok (.int (n + m)) st
      | _, _ => append v a st := by
  rw [add, run_bind_ok (toInteger?_run hv st)]
  cases hn : integer? v with
  | none => rfl
  | some n =>
    dsimp only
    rw [run_bind_ok (toInteger?_run (ha (hn ▸ rfl)) st)]
    cases integer? a with
    | none => rfl
    | some m => rfl

theorem add_of_unsummable (h : Unsummable v a) (st : Store) : add v a st = .error .infiniteNumber st := by
  obtain hv | ⟨hv, ha⟩ | ⟨⟨id, rfl⟩, ha⟩ | ⟨hv, id, rfl⟩ := h
  · rw [add, run_bind_error (toInteger?_infinite hv st)]
  · obtain ⟨n, hn⟩ := Option.isSome_iff_exists.mp hv
    rw [add, run_bind_ok (toInteger?_run (not_isInfinite_of_integer? hn) st), hn]
    dsimp only
    rw [run_bind_error (toInteger?_infinite ha st)]
  · obtain ⟨n, rfl⟩ := exists_eq_int ha
    rw [add_run (not_isInfinite_nan id) nofun]
    change (if isBeyondRange (.nan id) || isBeyondRange (.int n) then throw .infiniteNumber else _ : EvalM Value) st = _
    rw [if_pos (by rw [ha, Bool.or_true])]
    rfl
  · obtain ⟨n, rfl⟩ := exists_eq_int hv
    rw [add_run (not_isInfinite_of_integer? rfl) fun _ => not_isInfinite_nan id]
    change (if isBeyondRange (.int n) || isBeyondRange (.nan id) then throw .infiniteNumber else _ : EvalM Value) st = _
    rw [if_pos (by rw [hv, Bool.true_or])]
    rfl

/-- What is not both numbers with one of them beyond the range of the other can be put together, if only to the empty
text. -/
theorem append_answers (h : isNumber v = true → isNumber a = true → isBeyondRange v = false ∧ isBeyondRange a = false)
    (st : Store) : Answers (append v a) st := by
  unfold append
  split
  · exact ⟨_, _, rfl⟩
  · exact ⟨_, _, rfl⟩
  · exact ⟨_, _, rfl⟩
  · split_ifs with hnumbers hbeyond
    · obtain ⟨hv, ha⟩ := Bool.and_eq_true_iff.mp hnumbers
      obtain ⟨hv', ha'⟩ := h hv ha
      rw [hv', ha'] at hbeyond
      cases hbeyond
    · exact ⟨_, _, rfl⟩
    · exact ⟨_, _, rfl⟩

theorem add_answers (h : ¬ Unsummable v a) (st : Store) : Answers (add v a) st := by
  simp only [Unsummable, not_or, not_and] at h
  obtain ⟨hfinite, hadded, hto, hbeyond⟩ := h
  rw [Answers, add_run hfinite hadded]
  split
  · exact ⟨_, _, rfl⟩
  · rename_i hnone
    -- Of two numbers that are not both read as integers, one is undefined, and then the other is not out of range.
    refine append_answers (fun hv ha => ?_) st
    cases hn : integer? v with
    | none =>
      obtain ⟨id, rfl⟩ := exists_eq_nan hv hn hfinite
      exact ⟨rfl, by simpa using hto ⟨id, rfl⟩⟩
    | some n =>
      have hm : integer? a = none := Option.eq_none_iff_forall_ne_some.mpr fun m => hnone n m hn
      obtain ⟨id, rfl⟩ := exists_eq_nan ha hm (hadded (hn ▸ rfl))
      exact ⟨Bool.eq_false_iff.mpr fun hrange => hbeyond hrange ⟨id, rfl⟩, rfl⟩

theorem add_degrades (v a : Value) (st : Store) : Degrades "add" [v, a] (add v a) st := by
  by_cases h : Unsummable v a
  · exact .inl ⟨.infiniteNumber, ⟨h, rfl⟩, add_of_unsummable h st⟩
  · exact .inr ⟨fun e hrefused => h hrefused.1, add_answers h st⟩

/-- Values that can be added: both are read as integers, or both are numbers, texts, lists or tuples. -/
inductive Summable : Value → Value → Prop
  | integers {v a : Value} {n m : Int} (hv : integer? v = some n) (ha : integer? a = some m) : Summable v a
  | numbers {v a : Value} (hv : isNumber v = true) (ha : isNumber a = true) : Summable v a
  | texts (s t : String) : Summable (.text s) (.text t)
  | lists (i j : Ident) (xs ys : List Value) : Summable (.list i xs) (.list j ys)
  | tuples (xs ys : List Value) : Summable (.tuple xs) (.tuple ys)

/-- The sum of what cannot be added is the empty text. -/
theorem add_of_not_summable (h : ¬ Unsummable v a) (hsum : ¬ Summable v a) (st : Store) :
    add v a st = .ok (.text "") st := by
  simp only [Unsummable, not_or, not_and] at h
  rw [add_run h.1 h.2.1]
  split
  · rename_i hv ha
    exact absurd (.integers hv ha) hsum
  · unfold append
    split
    · exact absurd (.texts _ _) hsum
    · exact absurd (.lists _ _ _ _) hsum
    · exact absurd (.tuples _ _) hsum
    · have hnumbers : ¬ (isNumber v && isNumber a) = true := fun hnumbers =>
        hsum (.numbers (Bool.and_eq_true_iff.mp hnumbers).1 (Bool.and_eq_true_iff.mp hnumbers).2)
      rw [if_neg hnumbers]
      rfl

/-! ## Choices -/

theorem itemAt_tuple {items : List Value} {n : Nat} (h : n < items.length) (st : Store) :
    itemAt n (.tuple items) st = .ok items[n] st := by
  have hitem : (Value.tuple items).itemAt? st n = some items[n] := by
    simp [Value.itemAt?, Value.atPosition, h]
  rw [itemAt, run_bind_get]
  simp only [hitem]
  rfl

section YesNo

variable {argument : Option Value} {parts : List Value} (h : choices argument st = .ok (.tuple parts) st)
include h

/-- A single choice leaves the value alone. -/
theorem yesNo_of_few (hfew : parts.length < 2) (v : Value) : yesNo v argument st = .ok v st := by
  have hlength : (Value.tuple parts).length? st = some parts.length := rfl
  rw [yesNo, run_bind_ok h, run_bind_get]
  simp only [hlength, hfew, if_true]
  rfl

/-- The parts of a text are enough to choose from. -/
theorem yesNo_answers (v : Value) : Answers (yesNo v argument) st := by
  by_cases hfew : parts.length < 2
  · exact ⟨v, st, yesNo_of_few h hfew v⟩
  · have hlength : (Value.tuple parts).length? st = some parts.length := rfl
    have hlast : (if parts.length == 2 then 1 else 2) < parts.length := by
      split_ifs with htwo
      · omega
      · have hne : parts.length ≠ 2 := by simpa using htwo
        omega
    rw [Answers, yesNo, run_bind_ok h, run_bind_get]
    simp only [hlength, if_neg hfew, isSliceable, Bool.not_true, Bool.and_false, Bool.false_eq_true, if_false]
    rw [run_bind_ok (itemAt_tuple (show 0 < parts.length by omega) st),
      run_bind_ok (itemAt_tuple (show 1 < parts.length by omega) st), run_bind_ok (itemAt_tuple hlast st)]
    split
    · exact ⟨_, _, rfl⟩
    · exact ⟨_, _, rfl⟩

end YesNo

/-- Choices that are no text cannot be split, and ordinary data offers nothing that splits it. -/
theorem choices_of_not_text (ha : a.isOrdinary = true) (hnone : a ≠ .none) (htext : ∀ s, a ≠ .text s) (st : Store) :
    choices (some a) st =
      .error (if (a.attribute? "split").isSome then .unsupportedKind else .notText) st := by
  have hcalled {operation : Value} (hoperation : operation.isOrdinary = true) :
      operation.calledWithOne st = .error .unsupportedKind st := by
    cases operation with
    | hostFunction id shape result => cases hoperation
    | _ => rfl
  cases a with
  | none => exact absurd rfl hnone
  | text s => exact absurd rfl (htext s)
  | hostObject id attributes =>
    rw [Value.isOrdinary] at ha
    have hattribute : (Value.hostObject id attributes).attribute? "split" = attributes.lookup "split" := rfl
    rw [choices.eq_def]
    simp only [hattribute]
    cases hsplit : attributes.lookup "split" with
    | none => rfl
    | some operation => exact hcalled (Value.isOrdinary_of_lookup ha hsplit)
  | hostType id attributes => cases ha
  | _ => rfl

theorem yesNo_degrades (ha : a.isOrdinary = true) (v : Value) (st : Store) :
    Degrades "yesno" [v, a] (yesNo v (some a)) st := by
  by_cases hrefused : a ≠ .none ∧ ∀ s, a ≠ .text s
  · refine .inl ⟨_, ⟨hrefused.1, hrefused.2, rfl⟩, ?_⟩
    rw [yesNo, run_bind_error (choices_of_not_text ha hrefused.1 hrefused.2 st)]
  · refine .inr ⟨fun e he => hrefused ⟨he.1, he.2.1⟩, ?_⟩
    cases a with
    | none => exact yesNo_answers rfl v
    | text s => exact yesNo_answers rfl v
    | _ => exact absurd ⟨nofun, nofun⟩ hrefused

/-! ## All filters -/

def FilterDegrades (st : Store) (name : String) (f : Filter) : Prop :=
  ∀ arguments, (∀ v ∈ arguments, v.isOrdinary = true) → f.accepts arguments.length = true →
    Degrades name arguments (f.call arguments) st

theorem ofValue_degrades {name : String} {f : Value → EvalM Value}
    (h : ∀ v, v.isOrdinary = true → Degrades name [v] (f v) st) : FilterDegrades st name (ofValue f) := by
  intro arguments hordinary haccepts
  rw [Filter.call, if_pos haccepts]
  match arguments, hordinary, haccepts with
  | [v], hordinary, _ => exact h v (hordinary v List.mem_cons_self)

theorem ofPair_degrades {name : String} {f : Value → Value → EvalM Value}
    (h : ∀ v a, v.isOrdinary = true → a.isOrdinary = true → Degrades name [v, a] (f v a) st) :
    FilterDegrades st name (ofPair f) := by
  intro arguments hordinary haccepts
  rw [Filter.call, if_pos haccepts]
  match arguments, hordinary, haccepts with
  | [v, a], hordinary, _ => exact h v a (hordinary v (by simp)) (hordinary a (by simp))

theorem ofOptional_degrades {name : String} {f : Value → Option Value → EvalM Value}
    (hvalue : ∀ v, Degrades name [v] (f v none) st)
    (hpair : ∀ v a, a.isOrdinary = true → Degrades name [v, a] (f v (some a)) st) :
    FilterDegrades st name (ofOptional f) := by
  intro arguments hordinary haccepts
  rw [Filter.call, if_pos haccepts]
  match arguments, hordinary, haccepts with
  | [v], _, _ => exact hvalue v
  | [v, a], hordinary, _ => exact hpair v a (hordinary a (by simp))

theorem degrades_of_mem {name : String} {f : Filter} (hf : (name, f) ∈ all) (st : Store) :
    FilterDegrades st name f := by
  have hall : ∀ e ∈ all, FilterDegrades st e.1 e.2 := by
    have htext {name : String} (hname : name ∉ ["truncatechars", "add", "yesno"]) (f : List Char → List Char) :
        FilterDegrades st name (ofText f) :=
      ofValue_degrades fun v hv => degrades_of_answers hname (ofText_answers f hv st) [v]
    rw [all]
    simp only [List.forall_mem_cons, List.not_mem_nil, false_imp_iff, implies_true, and_true]
    refine ⟨htext (by decide) _, htext (by decide) _, htext (by decide) _, htext (by decide) _, ?cut, ?truncatechars,
      ?default, ?defaultIfNone, ?length, ?join, ?first, ?last, ?add, ?yesno⟩
    case cut =>
      exact ofPair_degrades fun v a hv ha => degrades_of_answers (by decide) (cut_answers hv ha st) [v, a]
    case truncatechars => exact ofPair_degrades fun v a hv _ => truncateChars_degrades hv a st
    case join =>
      exact ofPair_degrades fun v a hv ha => degrades_of_answers (by decide) (join_answers hv ha st) [v, a]
    case add => exact ofPair_degrades fun v a _ _ => add_degrades v a st
    case yesno =>
      exact ofOptional_degrades (fun v => .inr ⟨fun _ hrefused => hrefused, yesNo_answers rfl v⟩)
        fun v a ha => yesNo_degrades ha v st
    case default => exact ofPair_degrades fun v a _ _ => degrades_of_answers (by decide) ⟨_, _, rfl⟩ [v, a]
    case defaultIfNone =>
      refine ofPair_degrades fun v a _ _ => degrades_of_answers (by decide) ?_ [v, a]
      unfold defaultIfNone
      split
      · exact ⟨_, _, rfl⟩
      · exact ⟨_, _, rfl⟩
    all_goals exact ofValue_degrades fun v _ => degrades_of_answers (by decide) ⟨_, _, rfl⟩ [v]
  exact hall (name, f) hf

/-! ## Falling back -/

/-- A value has no item at a position: it is empty, has no such key, or has no items at positions. -/
inductive Lacks (st : Store) (n : Int) : Value → Prop
  | empty {v : Value} (h : placed? st v = some []) : Lacks st n v
  | unkeyed {id : Ident} {entries : List (Value × Value)} (h : Value.keyed? (.int n) (st.pick id entries) = none) :
    Lacks st n (.mapping id entries)
  | unplaced {v : Value} (h : placed? st v = none) (hmapping : ∀ id entries, v ≠ .mapping id entries) : Lacks st n v

/-- What the standard filters fall back on. -/
inductive FallsBack (st : Store) : String → List Value → Value → Prop
  | truncatechars {v a : Value} (h : integer? a = none) : FallsBack st "truncatechars" [v, a] v
  | add {v a : Value} (h : ¬ Summable v a) : FallsBack st "add" [v, a] (.text "")
  | yesno {v : Value} {s : String} (h : ∀ c ∈ s.toList, c ≠ ',') : FallsBack st "yesno" [v, .text s] v
  | first {v : Value} (h : Lacks st 0 v) : FallsBack st "first" [v] (.text "")
  | last {v : Value} (h : Lacks st (-1) v) : FallsBack st "last" [v] (.text "")
  | length {v : Value} (h : v.length? st = none) : FallsBack st "length" [v] (.int 0)
  | join {v a : Value} (h : isReadable st v = false) : FallsBack st "join" [v, a] v

theorem itemOrEmpty_of_lacks {n : Int} (h : Lacks st n v) (hn : n = 0 ∨ n = -1) :
    itemOrEmpty n v st = .ok (.text "") st := by
  cases h with
  | empty hempty =>
    obtain rfl | rfl := hn
    · exact (itemOrEmpty_placed hempty).1
    · exact (itemOrEmpty_placed hempty).2
  | unkeyed hunkeyed =>
    rename_i id entries
    have hitem : (Value.mapping id entries).itemAt? st n = none := hunkeyed
    change EStateM.Result.ok (((Value.mapping id entries).itemAt? st n).getD (.text "")) st = _
    rw [hitem]
    rfl
  | unplaced hplaced hmapping => exact itemOrEmpty_unplaced hplaced hmapping n

/-- A standard filter that is not refused falls back, and nothing is changed by it. -/
theorem call_of_fallsBack {name : String} {f : Filter} (hf : (name, f) ∈ all) {arguments : List Value}
    (hordinary : ∀ v ∈ arguments, v.isOrdinary = true) (hrefused : ∀ e, ¬ Refused name arguments e) {result : Value}
    (h : FallsBack st name arguments result) : f.call arguments st = .ok result st := by
  cases h with
  | truncatechars ha =>
    obtain rfl : f = ofPair truncateChars := by simpa [all] using hf
    exact truncateChars_of_integer?_eq_none ha (fun hinfinite => hrefused _ ⟨hinfinite, rfl⟩) result st
  | add hsum =>
    obtain rfl : f = ofPair add := by simpa [all] using hf
    exact add_of_not_summable (fun hunsummable => hrefused _ ⟨hunsummable, rfl⟩) hsum st
  | yesno hcomma =>
    rename_i s
    obtain rfl : f = ofOptional yesNo := by simpa [all] using hf
    have hchoices : choices (some (.text s)) st = .ok (.tuple [.text (String.ofList s.toList)]) st := by
      rw [choices, commaParts, splitAtChar_eq_singleton hcomma]
      rfl
    exact yesNo_of_few hchoices Nat.one_lt_two result
  | first hlacks =>
    obtain rfl : f = ofValue (itemOrEmpty 0) := by simpa [all] using hf
    exact itemOrEmpty_of_lacks hlacks (.inl rfl)
  | last hlacks =>
    obtain rfl : f = ofValue (itemOrEmpty (-1)) := by simpa [all] using hf
    exact itemOrEmpty_of_lacks hlacks (.inr rfl)
  | length hlength =>
    rename_i v
    obtain rfl : f = ofValue length := by simpa [all] using hf
    change EStateM.Result.ok (Value.int ((v.length? st).getD 0)) st = _
    rw [hlength]
    rfl
  | join hreadable =>
    obtain rfl : f = ofPair join := by simpa [all] using hf
    exact join_of_not_isReadable (hordinary _ (by simp)) hreadable

/-- With ordinary arguments, as many as it takes, a standard filter fails in three ways only: if an infinite number is
to be an integer, if the undefined number and an integer beyond the range of the others are added, and if the choices
are no text. Otherwise it answers, with what it falls back on where it does. -/
theorem standard_filters_degrade {name : String} {f : Filter} (hf : (name, f) ∈ all) {arguments : List Value}
    (hordinary : ∀ v ∈ arguments, v.isOrdinary = true) (haccepts : f.accepts arguments.length = true) (st : Store) :
    (∃ e, Refused name arguments e ∧ f.call arguments st = .error e st) ∨
      ((∀ e, ¬ Refused name arguments e) ∧ (∃ result st', f.call arguments st = .ok result st') ∧
        ∀ result, FallsBack st name arguments result → f.call arguments st = .ok result st) := by
  obtain hfails | ⟨hrefused, hanswers⟩ := degrades_of_mem hf st arguments hordinary haccepts
  · exact .inl hfails
  · exact .inr ⟨hrefused, hanswers, fun _ h => call_of_fallsBack hf hordinary hrefused h⟩

theorem standard_filters_degrade_sum :
    (ofPair add).call [.text "a", .list 0 [.int 1]] (.empty 0) = .ok (.text "") (.empty 0) := by
  have hordinary : ∀ v ∈ [Value.text "a", .list 0 [.int 1]], v.isOrdinary = true := by
    intro v hv
    simp only [List.mem_cons, List.not_mem_nil, or_false] at hv
    obtain rfl | rfl := hv
    · rfl
    · decide +kernel
  have hinteger : integer? (.text "a") = none := by decide +kernel
  obtain ⟨e, ⟨hrefused, -⟩, -⟩ | ⟨-, -, hfallsBack⟩ :=
    standard_filters_degrade (show ("add", ofPair add) ∈ all by simp [all]) hordinary rfl (.empty 0)
  · rw [Unsummable, hinteger] at hrefused
    obtain ⟨_, h⟩ | ⟨h, _⟩ | ⟨⟨_, h⟩, _⟩ | ⟨h, _⟩ := hrefused
    all_goals cases h
  · refine hfallsBack _ (.add ?_)
    intro hsum
    cases hsum with
    | integers hv ha => cases hinteger.symm.trans hv
    | numbers hv ha => cases hv

/-- A number that is no integer, as it is infinite, does not leave the value alone. -/
theorem truncateChars_infinite_fails :
    ("truncatechars", ofPair truncateChars) ∈ all ∧
      (Value.text "abc").isOrdinary = true ∧ (Value.float (.infinite false)).isOrdinary = true ∧
      (ofPair truncateChars).call [.text "abc", .float (.infinite false)] (.empty 0) =
        .error .infiniteNumber (.empty 0) :=
  ⟨by simp [all], rfl, rfl, rfl⟩

end TextTemplate.StandardFilter
