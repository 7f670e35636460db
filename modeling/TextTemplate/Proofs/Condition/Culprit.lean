import TextTemplate.Proofs.Condition.Lexing
import TextTemplate.Proofs.Condition.Completion

/-!
# Where a report over a condition points

A condition that is not put together as it should be is reported at the first token with which it could not go on: what
is before the token can be completed to a condition, and what is up to the token cannot, whatever follows. The report
tells what the token is, or what should have been in its place.

A character that starts no token is reported before all else. Its offset is in the message; the position is 0.
-/

namespace TextTemplate.Condition

open Condition.Grammar

/-- Tokens that a condition may start with. -/
def Viable (ts : List ConditionToken) : Prop := ∃ more p, Within maxDepth .orExpr (ts ++ more) p

namespace Parse

variable {compile : OperandCompiler} {s rest : List ConditionToken} {t : ConditionToken} {fault : ConditionFault}
  {position : Nat} {e : CompileError}

/-- Compiling a phrase fails, if it does, as an operand does. -/
theorem compiled_failsWith {P : CompileError → Prop} (hcompile : ∀ text, FailsWith P (compile text)) (p : Phrase) :
    FailsWith P (p.compiled compile) := by
  induction p with
  | operand text => exact .bind (hcompile text) fun e => .ok _
  | comparison left op right => exact .bind (hcompile left) fun e => .bind (hcompile right) fun e' => .ok _
  | group inside ih | not inside ih => exact .bind ih fun c => .ok _
  | and left right ih ih' | or left right ih ih' => exact .bind ih fun c => .bind ih' fun c' => .ok _

section Dead

variable (hcompile : ∀ text, FailsWith CompileError.OffCondition (compile text))
include hcompile

/-- Tokens that can be completed are taken up to the end of what completes them. -/
theorem run_of_viable {before : List ConditionToken} (hs : Marked s) (h : Viable (before ++ ahead s)) :
    ∃ rest' mark, Marked rest' ∧ ahead rest' = ahead s ∧ mark.kind = .ending ∧
      (∀ e, (disjunction (negation compile maxDepth)).run (before ++ rest') = .error e → e.OffCondition) ∧
      ∀ c rest, (disjunction (negation compile maxDepth)).run (before ++ rest') = .ok (c, rest) → rest = [mark] := by
  obtain ⟨more, p, hderives, hnesting⟩ := h
  have hcomplete : Complete compile maxDepth .orExpr (before ++ ahead s ++ more) p :=
    complete_of_derives hderives hnesting
  have hreads : Reads compile (disjunction (negation compile maxDepth)) (before ++ ahead s ++ more)
      [⟨.ending, "", 0⟩] p := hcomplete.disjunction (.inr rfl)
  have hrun : (disjunction (negation compile maxDepth)).run (before ++ (ahead s ++ (more ++ [⟨.ending, "", 0⟩]))) =
      p.compiled compile >>= fun c => .ok (c, [⟨.ending, "", 0⟩]) := by
    simpa [Reads] using hreads
  refine ⟨ahead s ++ (more ++ [⟨.ending, "", 0⟩]), ⟨.ending, "", 0⟩, ?_, ahead_ahead_append hs _, rfl, ?_, ?_⟩
  · exact .append (.append ⟨[], _, rfl, rfl⟩ more) _
  · intro e he
    exact FailsWith.bind (compiled_failsWith hcompile p) (fun c => .ok _) e (hrun.symm.trans he)
  · intro c rest hc
    rw [hrun] at hc
    cases hp : p.compiled compile with
    | error e =>
      rw [hp] at hc
      cases hc
    | ok c' =>
      rw [hp] at hc
      cases hc
      rfl

/-- Where a reader fails, no condition goes on. -/
theorem not_viable_of_error (hs : Marked s) (h : (disjunction (negation compile maxDepth)).run s = .error e)
    (hcause : e.cause = .condition fault position) :
    ∃ before t after, s = before ++ t :: after ∧ position = t.offset ∧ ¬Viable (before ++ ahead (t :: after)) := by
  obtain ⟨before, t, after, hafter, rfl, hposition, hsame⟩ :=
    (local_disjunction (local_negation hcompile maxDepth) s hs).error h hcause
  refine ⟨before, t, after, rfl, hposition, fun hviable => ?_⟩
  obtain ⟨rest', mark, hrest', hahead, -, herror, -⟩ := run_of_viable hcompile hafter hviable
  exact herror e (hsame rest' hrest' hahead) fault position hcause

/-- Where a reader stops in front of a token, no condition goes on with it. -/
theorem not_viable_of_rest {before after : List ConditionToken} {c : Condition} (hs : Marked (before ++ t :: after))
    (ht : t.kind ≠ .ending)
    (h : (disjunction (negation compile maxDepth)).run (before ++ t :: after) = .ok (c, t :: after)) :
    ¬Viable (before ++ ahead (t :: after)) := by
  -- what completes the tokens would be taken up to its end, but the reader stops in front of the token there too
  intro hviable
  obtain ⟨hafter, used, hused, hsame⟩ := (local_disjunction (local_negation hcompile maxDepth) _ hs).ok h
  obtain rfl := List.append_cancel_right hused
  obtain ⟨rest', mark, hrest', hahead, hmark, -, hrest⟩ := run_of_viable hcompile hafter hviable
  obtain rfl := hrest c rest' (hsame rest' hrest' hahead)
  obtain ⟨s', hs'⟩ := exists_cons_of_ahead hahead
  cases hs'
  exact ht hmark

end Dead

/-- Where offsets rise, an offset is that of one token only. -/
theorem split_unique {before before' after after' : List ConditionToken} {t t' : ConditionToken}
    (h : (before ++ t :: after).Pairwise fun t u => t.offset < u.offset)
    (heq : before ++ t :: after = before' ++ t' :: after') (hoffset : t.offset = t'.offset) :
    before = before' ∧ t = t' ∧ after = after' := by
  obtain ⟨-, hafter, hbefore⟩ := List.pairwise_append.mp h
  have hnotBefore : t' ∉ before := fun hmem => by
    have := hbefore t' hmem t List.mem_cons_self
    omega
  have hnotAfter : t' ∉ after := fun hmem => by
    have := List.rel_of_pairwise_cons hafter hmem
    omega
  exact (List.append_cons_inj_of_notMem hnotBefore hnotAfter).mp heq

theorem run'_eq_error {α : Type} {m : ParseM α} : m.run' s = .error e ↔ m.run s = .error e := by
  change Prod.fst <$> m.run s = .error e ↔ _
  cases m.run s <;> simp [Functor.map, Except.map]

/-- What the whole reader reports over a token: what a reader of it reports, or a token behind all that is read. -/
theorem whole_run_eq_error (hs : Marked s) (h : (whole compile).run s = .error e)
    (hcause : e.cause = .condition fault position) (hplace : fault.isOverPlace = true) :
    (disjunction (negation compile maxDepth)).run s = .error e ∨
      ∃ c t after, (disjunction (negation compile maxDepth)).run s = .ok (c, t :: after) ∧ t.kind ≠ .ending ∧
        fault = .unexpectedToken t.text ∧ position = t.offset := by
  obtain ⟨t, s, rfl⟩ := hs.exists_cons
  rw [whole, run_bind_of_ok (current_run_cons t s)] at h
  split at h
  · cases h
    cases hcause
    cases hplace
  obtain hinside | ⟨c, rest, hinside, hlater⟩ := run_bind_eq_error.mp h
  · exact .inl hinside
  cases rest with
  | nil => cases hlater
  | cons u rest =>
    rw [run_bind_of_ok (current_run_cons u rest)] at hlater
    split at hlater
    · cases hlater
    · rename_i hu
      cases hlater
      cases hcause
      exact .inr ⟨c, u, rest, hinside, by simpa using hu, rfl, rfl⟩

/-- The whole reader reports at the first token with which no condition goes on. -/
theorem whole_culprit (hcompile : ∀ text, FailsWith CompileError.OffCondition (compile text)) (hs : Marked s)
    (hspelled : ∀ t ∈ s, t.Spelled) (hrise : s.Pairwise fun t u => t.offset < u.offset)
    (h : (whole compile).run s = .error e) (hcause : e.cause = .condition fault position)
    (hplace : fault.isOverPlace = true) :
    ∃ before t after, s = before ++ t :: after ∧ position = t.offset ∧ Reports fault before t ∧ Viable before ∧
      ¬Viable (before ++ ahead (t :: after)) := by
  obtain hinside | ⟨c, t, after, hinside, ht, rfl, rfl⟩ := whole_run_eq_error hs h hcause hplace
  · obtain ⟨before, t, after, rfl, rfl, hreports, hviable⟩ :=
      disjunction_points (negation_sound maxDepth) (negation_points hcompile maxDepth) hs hspelled hinside hcause hplace
    -- both are at the reported position, which no two tokens share
    obtain ⟨before', t', after', heq, hposition, hdead⟩ := not_viable_of_error hcompile hs hinside hcause
    obtain ⟨rfl, rfl, rfl⟩ := split_unique hrise heq hposition
    exact ⟨before, t, after, rfl, rfl, hreports, hviable, hdead⟩
  · obtain ⟨ts, p, rfl, hwithin, -⟩ := disjunction_sound (negation_sound maxDepth) hspelled hinside
    exact ⟨ts, t, after, rfl, rfl, .unexpectedToken ht, ⟨[], p, by rwa [List.append_nil]⟩,
      not_viable_of_rest hcompile hs ht hinside⟩

end Parse

/-- The culprit of a condition is reported at its offset in the text. It is the token that the report is about, or that
is in the place of what the report misses; what is before it can be completed to a condition, and with it no condition
goes on. The end of the text is reported at its length. The exception is a character that starts no token: it is
reported before all else, and at position 0 wherever it is. -/
theorem parse_error_culprit {compile : OperandCompiler} {text : String} {e : CompileError} {fault : ConditionFault}
    {position : Nat} (hcompile : ∀ text, FailsWith CompileError.OffCondition (compile text))
    (h : parse compile text = .error e) (hcause : e.cause = .condition fault position)
    (hplace : fault.isOverPlace = true) :
    (∃ before t after, ConditionToken.ofString text = .ok (before ++ t :: after) ∧
      position = t.offset ∧ (∃ rest, text.toList.drop position = t.text.toList ++ rest) ∧
      (t.kind = .ending → position = text.length) ∧ Reports fault before t ∧ Viable before ∧
      ¬Viable (before ++ Parse.ahead (t :: after))) ∨
    ∃ c offset rest, fault = .strayCharacter c offset ∧ position = 0 ∧
      ConditionToken.ofString text = .error (c, offset) ∧ text.toList.drop offset = c :: rest ∧
      ConditionToken.Stray c rest := by
  rw [parse] at h
  cases hlex : ConditionToken.ofString text with
  | error stray =>
    have hscanned := ConditionToken.ofString_scanned text
    rw [hlex] at h hscanned
    cases h
    cases hcause
    obtain ⟨ts, rest, -, hdrop, hstray, -⟩ := hscanned
    exact .inr ⟨stray.1, stray.2, rest, rfl, rfl, rfl, hdrop, hstray⟩
  | ok tokens =>
    rw [hlex] at h
    obtain ⟨ts, rfl, hts⟩ := ConditionToken.scan_ending hlex
    have hmarked : Parse.Marked (ts ++ [⟨.ending, "", 0 + text.toList.length⟩]) := ⟨ts, _, rfl, rfl⟩
    have hspelled : ∀ t ∈ ts ++ [⟨.ending, "", 0 + text.toList.length⟩], t.Spelled :=
      List.forall_mem_append.mpr ⟨fun t ht => (hts t ht).2, by simp [ConditionToken.Spelled]⟩
    have hrise := ConditionToken.offsets_rise hlex
    obtain ⟨before, t, after, heq, rfl, hreports, hviable, hdead⟩ :=
      Parse.whole_culprit hcompile hmarked hspelled hrise (Parse.run'_eq_error.mp h) hcause hplace
    have hmem : t ∈ ts ++ [⟨.ending, "", 0 + text.toList.length⟩] := by
      rw [heq]
      exact List.mem_append_right before List.mem_cons_self
    obtain ⟨hslice, hend⟩ := ConditionToken.slice_at_offset hlex t hmem
    exact .inl ⟨before, t, after, congrArg Except.ok heq, rfl, hslice, hend, hreports, hviable, hdead⟩

/-- Expressions fail over their own form or over a filter, so they can be the operands of a condition. -/
theorem compileUnfiltered_offCondition (text : String) : FailsWith CompileError.OffCondition (compileUnfiltered text) :=
  Pipeline.compile_failsWith (fun _ _ _ => nofun) (fun _ => .error fun _ _ => nofun) text

theorem eq_error_of_check {r : Except CompileError Condition} {e : CompileError}
    (h : (match r with | .error e' => decide (e' = e) | .ok _ => false) = true) : r = .error e := by
  cases r with
  | error e' => rw [of_decide_eq_true h]
  | ok c => cases h

/-- The second `not` is in the place of a closing parenthesis, as no `in` follows it. -/
theorem parse_error_culprit_nested :
    ∃ before t after, ConditionToken.ofString "a and (b or not c not d" = .ok (before ++ t :: after) ∧ 18 = t.offset ∧
      Reports .unclosedGroup before t ∧ Viable before ∧ ¬Viable (before ++ Parse.ahead (t :: after)) := by
  have hparse : parse compileUnfiltered "a and (b or not c not d" = .error (.ofCause (.condition .unclosedGroup 18)) :=
    eq_error_of_check (by decide +kernel)
  obtain ⟨before, t, after, hlex, hoffset, -, -, hculprit⟩ | ⟨c, offset, rest, ⟨⟩, -⟩ :=
    parse_error_culprit compileUnfiltered_offCondition hparse rfl rfl
  exact ⟨before, t, after, hlex, hoffset, hculprit⟩

/-- An equals sign at offset 2 is reported at position 0. -/
theorem parse_stray_misplaced : ∃ e, parse compileUnfiltered "a = b" = .error e ∧
    e.cause = .condition (.strayCharacter '=' 2) 0 ∧
    e.message = "Condition error at position 0: Unexpected character '=' at position 2" :=
  ⟨.ofCause (.condition (.strayCharacter '=' 2) 0), eq_error_of_check (by decide +kernel), rfl, by decide +kernel⟩

end TextTemplate.Condition
