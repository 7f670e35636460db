import TextTemplate.Expression.Pipeline
import TextTemplate.Proofs.Condition.Soundness

/-!
# Conditions that are derived are read

Each reader takes what is derived from its nonterminal, in front of any token that may stand behind it. A
chain is read from the left, so in the middle of one it is not the answer that is known but what is left to
do: the induction on the derivation says that the chain reads on from there, with room for a further part for
each token.

With both directions, a condition is accepted just if it is derived. That there is one derivation at most is a
fact about the readers too: they have one answer, and where operands keep their texts the phrase can be told
from it.
-/

namespace TextTemplate.Condition

namespace Parse

open Grammar

variable {α β : Type} {compile : OperandCompiler} {s rest ts us : List ConditionToken}
  {k l t : ConditionToken} {p q : Phrase} {depth : Nat}

/-- A condition or a group ends before the token. -/
def Closes (t : ConditionToken) : Prop := t.Is .symbol ")" ∨ t.kind = .ending

theorem run_bind_of_eq {m : ParseM α} {x : Except CompileError α} (h : m.run s = x >>= fun a => .ok (a, rest))
    (f : α → ParseM β) : (m >>= f).run s = x >>= fun a => (f a).run rest := by
  rw [StateT.run_bind, h]
  cases x <;> rfl

theorem operator?_run_of_operator {os : List ConditionToken} {op : Comparison} (h : Operator os op)
    (rest : List ConditionToken) : operator?.run (os ++ rest) = .ok (some op, rest) := by
  cases h with
  | @symbol t _ kind spelled =>
    rw [List.singleton_append, operator?_run_cons, if_pos kind, spelled]
  | @isIn t keyword =>
    rw [List.singleton_append, operator?_run_cons, if_neg (by simp [keyword.1]), if_pos keyword]
  | @isNotIn t u first second =>
    have hin : ¬t.Is .keyword "in" := fun h => absurd (first.2.symm.trans h.2) (by decide)
    rw [List.cons_append, List.singleton_append, operator?_run_cons, if_neg (by simp [first.1]), if_neg hin]
    exact if_pos ⟨first, second⟩

/-- No operator of a comparison starts with a token that may stand behind one. -/
theorem operator?_run_of_follower (h : Closes t ∨ t.Is .keyword "or" ∨ t.Is .keyword "and")
    (rest : List ConditionToken) : operator?.run (t :: rest) = .ok (none, t :: rest) := by
  have hoperator : t.kind ≠ .operator := by
    rintro hkind
    simp [Closes, ConditionToken.Is, hkind] at h
  have hkeyword {text : String} (ht : t.Is .keyword text) (htext : text ≠ "or") (htext' : text ≠ "and") :
      False := by
    obtain ⟨hkind, rfl⟩ := ht
    simp [Closes, ConditionToken.Is, hkind, htext, htext'] at h
  rw [operator?_run_cons, if_neg hoperator, if_neg fun hin => hkeyword hin (by decide) (by decide)]
  cases rest with
  | nil => rfl
  | cons u rest => exact if_neg fun hnot => hkeyword hnot.1 (by decide) (by decide)

theorem operand_run_cons (ht : t.kind = .operand) (fault : ConditionFault) :
    (operand compile fault).run (t :: s) = compile t.text >>= fun e => .ok (e, s) := by
  rw [operand, run_bind_of_ok (current_run_cons t s)]
  simp only [ht, beq_self_eq_true, if_true]
  cases compile t.text <;> rfl

theorem primary_run_operand (inside : ParseM Condition) (ht : t.kind = .operand) :
    (primary compile inside).run (t :: s) = compile t.text >>= fun e => .ok (.operand e, s) := by
  have haccept := accept_run_cons (t := t) (s := s) .symbol "("
  rw [if_neg (by simp [ConditionToken.Is, ht])] at haccept
  rw [primary, run_bind_of_ok haccept, if_neg Bool.false_ne_true, run_bind_of_ok (current_run_cons t s)]
  simp only [ht]
  rw [run_bind_of_eq (operand_run_cons ht _)]
  rfl

theorem primary_run_group {inside : ParseM Condition} {x : Except CompileError Condition}
    (ht : t.Is .symbol "(") (hinside : inside.run s = x >>= fun c => .ok (c, k :: rest))
    (hk : k.Is .symbol ")") :
    (primary compile inside).run (t :: s) = x >>= fun c => .ok (.group c, rest) := by
  have hopen := accept_run_cons (t := t) (s := s) .symbol "("
  rw [if_pos ht] at hopen
  have hclose := accept_run_cons (t := k) (s := rest) .symbol ")"
  rw [if_pos hk] at hclose
  rw [primary, run_bind_of_ok hopen, if_pos rfl, run_bind_of_eq hinside]
  congr 1
  funext c
  rw [run_bind_of_ok hclose]
  rfl

section Chain

variable {keyword : String} {join : Condition → Condition → Condition} {part : ParseM Condition}

theorem chainFrom_run_stop (h : ¬t.Is .keyword keyword) (n : Nat) (left : Condition) :
    (chainFrom keyword join part n left).run (t :: s) = .ok (left, t :: s) := by
  cases n with
  | zero => rfl
  | succ n =>
    have haccept := accept_run_cons (t := t) (s := s) .keyword keyword
    rw [if_neg h] at haccept
    rw [chainFrom, run_bind_of_ok haccept]
    rfl

theorem chainFrom_run_next {x : Except CompileError Condition} (h : t.Is .keyword keyword)
    (hpart : part.run s = x >>= fun c => .ok (c, rest)) (n : Nat) (left : Condition) :
    (chainFrom keyword join part (n + 1) left).run (t :: s) =
      x >>= fun right => (chainFrom keyword join part n (join left right)).run rest := by
  have haccept := accept_run_cons (t := t) (s := s) .keyword keyword
  rw [if_pos h] at haccept
  rw [chainFrom, run_bind_of_ok haccept, if_pos rfl, run_bind_of_eq hpart]

theorem chain_run {x : Except CompileError Condition} (hpart : part.run s = x >>= fun c => .ok (c, rest)) :
    (chain keyword join part).run s =
      x >>= fun left => (chainFrom keyword join part rest.length left).run rest := by
  rw [chain, run_bind_of_eq hpart]
  rfl

end Chain

/-- The phrase is read from the tokens, and what is left is the rest. -/
def Reads (compile : OperandCompiler) (m : ParseM Condition) (ts rest : List ConditionToken) (p : Phrase) :
    Prop :=
  m.run (ts ++ rest) = p.compiled compile >>= fun c => .ok (c, rest)

/-- The phrase is read from the tokens as the start of a chain, with room for all further parts. -/
def ReadsChain (compile : OperandCompiler) (keyword : String) (join : Condition → Condition → Condition)
    (part : ParseM Condition) (ts rest : List ConditionToken) (p : Phrase) : Prop :=
  ∃ n, rest.length ≤ n ∧ (chain keyword join part).run (ts ++ rest) =
    p.compiled compile >>= fun c => (chainFrom keyword join part n c).run rest

section Chain

variable {keyword : String} {join : Condition → Condition → Condition} {part : ParseM Condition}
  {joined : Phrase → Phrase → Phrase}

theorem ReadsChain.first (h : Reads compile part ts rest p) :
    ReadsChain compile keyword join part ts rest p :=
  ⟨rest.length, Nat.le_refl _, chain_run h⟩

theorem ReadsChain.next (h : ReadsChain compile keyword join part ts (k :: us ++ rest) p)
    (hk : k.Is .keyword keyword) (hpart : Reads compile part us rest q)
    (hjoined : (joined p q).compiled compile = do return join (← p.compiled compile) (← q.compiled compile)) :
    ReadsChain compile keyword join part (ts ++ k :: us) rest (joined p q) := by
  obtain ⟨n, hn, hrun⟩ := h
  obtain ⟨n, rfl⟩ : ∃ n', n = n' + 1 := Nat.exists_eq_succ_of_ne_zero (by rintro rfl; simp at hn)
  refine ⟨n, by simp at hn; omega, ?_⟩
  simp only [List.append_assoc, List.cons_append] at hrun ⊢
  rw [hrun, hjoined]
  simp only [chainFrom_run_next hk hpart, bind_assoc]
  rfl

theorem ReadsChain.stop (h : ReadsChain compile keyword join part ts (k :: rest) p)
    (hk : ¬k.Is .keyword keyword) : Reads compile (chain keyword join part) ts (k :: rest) p := by
  obtain ⟨n, -, hrun⟩ := h
  rw [Reads, hrun]
  simp only [chainFrom_run_stop hk]

end Chain

/-- The phrase is read by the reader of its nonterminal, in front of every token that may stand behind it. In
a chain a further part may stand there. -/
def Complete (compile : OperandCompiler) (depth : Nat) :
    Nonterminal → List ConditionToken → Phrase → Prop
  | .comparison, ts, p => ∀ k rest, (Closes k ∨ k.Is .keyword "or" ∨ k.Is .keyword "and") →
    Reads compile (comparison compile (grouped compile depth)) ts (k :: rest) p
  | .notExpr, ts, p => ∀ k rest, (Closes k ∨ k.Is .keyword "or" ∨ k.Is .keyword "and") →
    Reads compile (negation compile depth) ts (k :: rest) p
  | .andExpr, ts, p => ∀ k rest, (Closes k ∨ k.Is .keyword "or" ∨ k.Is .keyword "and") →
    ReadsChain compile "and" .and (negation compile depth) ts (k :: rest) p
  | .orExpr, ts, p => ∀ k rest, (Closes k ∨ k.Is .keyword "or") →
    ReadsChain compile "or" .or (chain "and" .and (negation compile depth)) ts (k :: rest) p

theorem Closes.not_keyword (h : Closes t) (text : String) : ¬t.Is .keyword text := by
  rintro ⟨hkind, -⟩
  simp [Closes, ConditionToken.Is, hkind] at h

/-- An `and` chain is read whole in front of what does not carry it on. -/
theorem Complete.conjunction (h : Complete compile depth .andExpr ts p) (hk : Closes k ∨ k.Is .keyword "or") :
    Reads compile (chain "and" .and (negation compile depth)) ts (k :: rest) p := by
  refine (h k rest (hk.imp_right .inl)).stop ?_
  obtain hk | hk := hk
  · exact hk.not_keyword _
  · exact fun hand => absurd (hk.2.symm.trans hand.2) (by decide)

/-- A condition is read whole in front of its end. -/
theorem Complete.disjunction (h : Complete compile depth .orExpr ts p) (hk : Closes k) :
    Reads compile (disjunction (negation compile depth)) ts (k :: rest) p :=
  (h k rest (.inl hk)).stop (hk.not_keyword _)

theorem Complete.not (h : Complete compile depth .notExpr ts p) (hk : k.Is .keyword "not") :
    Complete compile (depth + 1) .notExpr (k :: ts) (.not p) := by
  intro l rest hl
  have haccept := accept_run_cons (t := k) (s := ts ++ l :: rest) .keyword "not"
  rw [if_pos hk] at haccept
  rw [Reads, List.cons_append, negation_eq, run_bind_of_ok haccept, if_pos rfl, negated,
    run_bind_of_eq (h l rest hl), Phrase.compiled, bind_assoc]
  rfl

theorem Complete.positive (hderives : Derives .comparison ts p)
    (h : Complete compile depth .comparison ts p) : Complete compile depth .notExpr ts p := by
  intro l rest hl
  obtain ⟨t, ts', rfl, ht⟩ := hderives.comparison_head
  have haccept := accept_run_cons (t := t) (s := ts' ++ l :: rest) .keyword "not"
  rw [if_neg ht] at haccept
  rw [Reads, List.cons_append, negation_eq, run_bind_of_ok haccept, if_neg nofun]
  exact h l rest hl

/-- A primary stands alone in front of a token that starts no operator. -/
theorem comparison_run_primary {inside : ParseM Condition} {x : Except CompileError Condition}
    (hprimary : (primary compile inside).run s = x >>= fun c => .ok (c, t :: rest))
    (ht : Closes t ∨ t.Is .keyword "or" ∨ t.Is .keyword "and") :
    (comparison compile inside).run s = x >>= fun c => .ok (c, t :: rest) := by
  rw [comparison, run_bind_of_eq hprimary]
  simp only [run_bind_of_ok (operator?_run_of_follower ht rest)]
  rfl

theorem Complete.operand (depth : Nat) (ht : t.kind = .operand) :
    Complete compile depth .comparison [t] (.operand t.text) := by
  intro l rest hl
  refine comparison_run_primary ?_ hl
  rw [List.singleton_append, primary_run_operand _ ht, Phrase.compiled, bind_assoc]
  rfl

theorem Complete.compared (depth : Nat) {r : ConditionToken} {os : List ConditionToken} {op : Comparison}
    (hl : l.kind = .operand) (hop : Operator os op) (hr : r.kind = .operand) :
    Complete compile depth .comparison (l :: os ++ [r]) (.comparison l.text op r.text) := by
  intro k rest _
  have hprimary : (primary compile (grouped compile depth)).run (l :: (os ++ r :: k :: rest)) =
      (compile l.text >>= fun e => .ok (.operand e)) >>= fun c => .ok (c, os ++ r :: k :: rest) := by
    rw [primary_run_operand _ hl, bind_assoc]
    rfl
  simp only [Reads, List.cons_append, List.append_assoc, List.nil_append]
  rw [comparison, run_bind_of_eq hprimary]
  simp only [run_bind_of_ok (operator?_run_of_operator hop _), Phrase.compiled, bind_assoc]
  congr 1
  funext e
  change (Parse.operand compile _ >>= fun right => pure (Condition.comparison e op right) :
    ParseM Condition).run (r :: k :: rest) = _
  rw [run_bind_of_eq (operand_run_cons hr _)]
  rfl

theorem Complete.group {o c : ConditionToken} (ho : o.Is .symbol "(")
    (h : Complete compile depth .orExpr ts p) (hc : c.Is .symbol ")") :
    Complete compile (depth + 1) .comparison (o :: ts ++ [c]) (.group p) := by
  intro k rest hk
  refine comparison_run_primary ?_ hk
  have hinside : (grouped compile (depth + 1)).run (ts ++ c :: k :: rest) =
      p.compiled compile >>= fun inside => .ok (inside, c :: k :: rest) := h.disjunction (.inl hc)
  simp only [List.cons_append, List.append_assoc, List.nil_append]
  rw [primary_run_group ho hinside hc, Phrase.compiled, bind_assoc]
  rfl

theorem complete_of_derives {n : Nonterminal} (h : Derives n ts p) (hdepth : p.nesting ≤ depth) :
    Complete compile depth n ts p := by
  induction h generalizing depth with
  | orFirst part ih => exact fun k rest hk => .first ((ih hdepth).conjunction hk)
  | orNext before keyword part ih ih' =>
    obtain ⟨hp, hq⟩ := Nat.max_le.mp hdepth
    exact fun k rest hk => (ih hp _ _ (.inr keyword)).next keyword ((ih' hq).conjunction hk) rfl
  | andFirst part ih => exact fun k rest hk => .first (ih hdepth k rest hk)
  | andNext before keyword part ih ih' =>
    obtain ⟨hp, hq⟩ := Nat.max_le.mp hdepth
    exact fun k rest hk => (ih hp _ _ (.inr (.inr keyword))).next keyword (ih' hq k rest hk) rfl
  | not keyword inside ih =>
    cases depth with
    | zero => cases hdepth
    | succ depth => exact (ih (Nat.le_of_succ_le_succ hdepth)).not keyword
  | positive inside ih => exact .positive inside (ih hdepth)
  | compared left operator right => exact .compared depth left operator right
  | operand kind => exact .operand depth kind
  | group opener inside closer ih =>
    cases depth with
    | zero => cases hdepth
    | succ depth => exact .group opener (ih (Nat.le_of_succ_le_succ hdepth)) closer

/-- Where an end mark is next after what was derived, everything before the mark was derived. -/
theorem eq_of_current_ending {n : Nonterminal} {e : ConditionToken}
    (hts : ∀ t ∈ ts, t.kind ≠ .ending) (he : e.kind = .ending) (hderives : Derives n us p)
    (h : ts ++ [e] = us ++ rest) (hcurrent : current.run rest = .ok (t, s)) (ht : t.kind = .ending) :
    ts = us ∧ rest = [e] := by
  cases rest with
  | nil =>
    rw [List.append_nil] at h
    exact absurd he (hderives.kind_ne_ending e (by simp [← h]))
  | cons r rest' =>
    cases hcurrent
    obtain ⟨vs, rfl, hvs⟩ | ⟨vs, rfl, hvs⟩ := List.append_eq_append_iff.mp h
    · cases vs with
      | nil => exact ⟨(List.append_nil ts).symm, hvs.symm⟩
      | cons v vs => simp at hvs
    · cases vs with
      | nil => exact ⟨List.append_nil us, hvs⟩
      | cons v vs =>
        cases hvs
        exact absurd ht (hts t (by simp))

theorem run'_eq_ok {m : ParseM α} {a : α} : m.run' s = .ok a ↔ ∃ rest, m.run s = .ok (a, rest) := by
  change Prod.fst <$> m.run s = .ok a ↔ _
  cases m.run s with
  | error e => exact ⟨nofun, nofun⟩
  | ok found =>
    obtain ⟨b, rest⟩ := found
    simp [Functor.map, Except.map]

/-- The whole reader accepts just what is derived of the tokens before the end mark, and compiles it. -/
theorem whole_run_eq_ok_iff {e : ConditionToken} {c : Condition}
    (hts : ∀ t ∈ ts, t.kind ≠ .ending ∧ t.Spelled) (he : e.kind = .ending) :
    (whole compile).run' (ts ++ [e]) = .ok c ↔
      ∃ p, Within maxDepth .orExpr ts p ∧ p.compiled compile = .ok c := by
  have hspelled : ∀ t ∈ ts ++ [e], t.Spelled := by
    rw [List.forall_mem_append]
    exact ⟨fun t ht => (hts t ht).2, by simp [ConditionToken.Spelled, he]⟩
  rw [run'_eq_ok]
  constructor
  · rintro ⟨rest, h⟩
    rw [whole, run_bind_eq_ok] at h
    obtain ⟨first, s, hfirst, h⟩ := h
    obtain rfl := current_run_eq_ok hfirst
    split at h
    · cases h
    · rw [run_bind_eq_ok] at h
      obtain ⟨c', s₁, hrun, h⟩ := h
      obtain ⟨us, p, hus, hwithin, hcompiled⟩ := disjunction_sound (negation_sound maxDepth) hspelled hrun
      rw [run_bind_eq_ok] at h
      obtain ⟨last, s₂, hlast, h⟩ := h
      split at h
      · rename_i hlastKind
        obtain ⟨rfl, rfl⟩ := run_pure_eq_ok.mp h
        obtain ⟨rfl, -⟩ :=
          eq_of_current_ending (fun t ht => (hts t ht).1) he hwithin.1 hus hlast (by simpa using hlastKind)
        exact ⟨p, hwithin, hcompiled⟩
      · exact absurd h (fail_run_ne_ok _ _)
  · rintro ⟨p, ⟨hderives, hnesting⟩, hcompiled⟩
    obtain ⟨t, ts', rfl⟩ := List.exists_cons_of_ne_nil hderives.ne_nil
    have hcomplete : Complete compile maxDepth .orExpr (t :: ts') p := complete_of_derives hderives hnesting
    have hrun : (disjunction (negation compile maxDepth)).run (t :: ts' ++ [e]) = .ok (c, [e]) := by
      rw [hcomplete.disjunction (.inr he), hcompiled]
      rfl
    refine ⟨[e], ?_⟩
    rw [List.cons_append] at hrun ⊢
    rw [whole, run_bind_of_ok (current_run_cons _ _), if_neg (by simpa using (hts t List.mem_cons_self).1),
      run_bind_of_ok hrun, run_bind_of_ok (current_run_cons _ _), if_pos (by simp [he])]
    rfl

/-! Derivations are unique, because a reader that keeps the texts of operands gives their phrase back. -/

/-- The operand that only knows how it is written. -/
def verbatim : OperandCompiler := fun text => .ok ⟨text, ⟨text, .literal .none⟩, []⟩

end Parse

/-- How a condition is put together. -/
def phrase : Condition → Phrase
  | operand e => .operand e.source
  | comparison left op right => .comparison left.source op right.source
  | group inside => .group inside.phrase
  | not inside => .not inside.phrase
  | and left right => .and left.phrase right.phrase
  | or left right => .or left.phrase right.phrase

/-- A phrase can be told from the condition that it is compiled to. -/
theorem Phrase.compiled_verbatim (p : Phrase) : ∃ c, p.compiled Parse.verbatim = .ok c ∧ c.phrase = p := by
  induction p with
  | operand text => exact ⟨_, rfl, rfl⟩
  | comparison left op right => exact ⟨_, rfl, rfl⟩
  | group inside ih | not inside ih =>
    obtain ⟨c, hc, hphrase⟩ := ih
    rw [compiled, hc]
    exact ⟨_, rfl, by rw [phrase, hphrase]⟩
  | and left right ih ih' | or left right ih ih' =>
    obtain ⟨c, hc, hphrase⟩ := ih
    obtain ⟨c', hc', hphrase'⟩ := ih'
    rw [compiled, hc, hc']
    exact ⟨_, rfl, by rw [phrase, hphrase, hphrase']⟩

open Parse in
theorem Grammar.Derives.unique {ts : List ConditionToken} {p q : Phrase} (hp : Derives .orExpr ts p)
    (hq : Derives .orExpr ts q) : p = q := by
  have hread {r : Phrase} (hr : Derives .orExpr ts r) (hmax : r.nesting ≤ max p.nesting q.nesting) :
      Reads verbatim (disjunction (negation verbatim (max p.nesting q.nesting))) ts [⟨.ending, "", 0⟩] r :=
    (complete_of_derives hr hmax).disjunction (.inr rfl)
  obtain ⟨c, hc, rfl⟩ := p.compiled_verbatim
  obtain ⟨c', hc', rfl⟩ := q.compiled_verbatim
  have hsame := (hread hp (Nat.le_max_left _ _)).symm.trans (hread hq (Nat.le_max_right _ _))
  rw [hc, hc'] at hsame
  cases hsame
  rfl

/-- A phrase compiles if its operands do. -/
theorem Grammar.Derives.compiled_ok {n : Nonterminal} {ts : List ConditionToken} {p : Phrase}
    (h : Derives n ts p) {compile : OperandCompiler}
    (hcompile : ∀ t ∈ ts, t.kind = .operand → ∃ e, compile t.text = .ok e) :
    ∃ c, p.compiled compile = .ok c := by
  induction h with
  | orFirst _ ih | andFirst _ ih | positive _ ih => exact ih hcompile
  | orNext _ _ _ ih ih' | andNext _ _ _ ih ih' =>
    rw [List.forall_mem_append, List.forall_mem_cons] at hcompile
    obtain ⟨c, hc⟩ := ih hcompile.1
    obtain ⟨c', hc'⟩ := ih' hcompile.2.2
    rw [Phrase.compiled, hc, hc']
    exact ⟨_, rfl⟩
  | not _ _ ih =>
    obtain ⟨c, hc⟩ := ih (List.forall_mem_cons.mp hcompile).2
    rw [Phrase.compiled, hc]
    exact ⟨_, rfl⟩
  | compared left _ right =>
    rw [List.forall_mem_append, List.forall_mem_cons] at hcompile
    obtain ⟨e, he⟩ := hcompile.1.1 left
    obtain ⟨e', he'⟩ := hcompile.2 _ List.mem_cons_self right
    rw [Phrase.compiled, he, he']
    exact ⟨_, rfl⟩
  | operand kind =>
    obtain ⟨e, he⟩ := hcompile _ List.mem_cons_self kind
    rw [Phrase.compiled, he]
    exact ⟨_, rfl⟩
  | group _ _ _ ih =>
    rw [List.forall_mem_append, List.forall_mem_cons] at hcompile
    obtain ⟨c, hc⟩ := ih hcompile.1.2
    rw [Phrase.compiled, hc]
    exact ⟨_, rfl⟩

/-- A condition is accepted just if its tokens are derived with no more groups and `not`s open at once than
are allowed. There is one derivation at most, and the answer is its tree, compiled from left to right. -/
theorem parse_ok_iff_derives {compile : OperandCompiler} {text : String} {tokens : List ConditionToken}
    (hlex : ConditionToken.ofString text = .ok tokens)
    (hcompile : ∀ t ∈ tokens, t.kind = .operand → ∃ e, compile t.text = .ok e) :
    ∃ ts, tokens = ts ++ [⟨.ending, "", text.length⟩] ∧ (∀ t ∈ ts, t.kind ≠ .ending) ∧
      ((∃ c, parse compile text = .ok c) ↔ ∃ p, Grammar.Derives .orExpr ts p ∧ p.nesting ≤ maxDepth) ∧
      (∀ p q, Grammar.Derives .orExpr ts p → Grammar.Derives .orExpr ts q → p = q) ∧
      ∀ p, Grammar.Derives .orExpr ts p → p.nesting ≤ maxDepth →
        ∃ c, p.compiled compile = .ok c ∧ parse compile text = .ok c := by
  obtain ⟨ts, rfl, hts⟩ := ConditionToken.scan_ending hlex
  rw [Nat.zero_add, String.length_toList] at *
  have hparse {c : Condition} : parse compile text = .ok c ↔
      ∃ p, Grammar.Within maxDepth .orExpr ts p ∧ p.compiled compile = .ok c := by
    rw [parse, hlex]
    exact Parse.whole_run_eq_ok_iff hts rfl
  have hcompiled {p : Phrase} (hp : Grammar.Derives .orExpr ts p) : ∃ c, p.compiled compile = .ok c :=
    hp.compiled_ok fun t ht => hcompile t (List.mem_append_left _ ht)
  refine ⟨ts, rfl, fun t ht => (hts t ht).1, ⟨?_, ?_⟩, fun p q => Grammar.Derives.unique, ?_⟩
  · rintro ⟨c, hc⟩
    obtain ⟨p, hp, -⟩ := hparse.mp hc
    exact ⟨p, hp⟩
  · rintro ⟨p, hp⟩
    obtain ⟨c, hc⟩ := hcompiled hp.1
    exact ⟨c, hparse.mpr ⟨p, hp, hc⟩⟩
  · intro p hp hnesting
    obtain ⟨c, hc⟩ := hcompiled hp
    exact ⟨c, hc, hparse.mpr ⟨p, ⟨hp, hnesting⟩, hc⟩⟩

/-- A negated group, and a comparison whose operator starts like a negation. -/
def negatedGroupText : String := "not (a or b) and c not in d"

/-- The negation takes the group only, and `not in` is one operator. -/
def negatedGroupPhrase : Phrase :=
  .and (.not (.group (.or (.operand "a") (.operand "b")))) (.comparison "c" .isNotIn "d")

/-- The tokens before the end mark. -/
def negatedGroupTokens : List ConditionToken := [
  ⟨.keyword, "not", 0⟩, ⟨.symbol, "(", 4⟩, ⟨.operand, "a", 5⟩, ⟨.keyword, "or", 7⟩, ⟨.operand, "b", 10⟩,
  ⟨.symbol, ")", 11⟩, ⟨.keyword, "and", 13⟩, ⟨.operand, "c", 17⟩, ⟨.keyword, "not", 19⟩, ⟨.keyword, "in", 23⟩,
  ⟨.operand, "d", 26⟩]

theorem negatedGroupPhrase_derives : Grammar.Derives .orExpr negatedGroupTokens negatedGroupPhrase := by
  have hor : Grammar.Derives .orExpr ([⟨.operand, "a", 5⟩] ++ ⟨.keyword, "or", 7⟩ :: [⟨.operand, "b", 10⟩])
      (.or (.operand "a") (.operand "b")) :=
    .orNext (.orFirst (.andFirst (.positive (.operand rfl)))) ⟨rfl, rfl⟩
      (.andFirst (.positive (.operand rfl)))
  have hgroup :=
    Grammar.Derives.group (o := ⟨.symbol, "(", 4⟩) (c := ⟨.symbol, ")", 11⟩) ⟨rfl, rfl⟩ hor ⟨rfl, rfl⟩
  have hoperator : Grammar.Operator [⟨.keyword, "not", 19⟩, ⟨.keyword, "in", 23⟩] .isNotIn :=
    .isNotIn ⟨rfl, rfl⟩ ⟨rfl, rfl⟩
  have hcompared :=
    Grammar.Derives.compared (l := ⟨.operand, "c", 17⟩) (r := ⟨.operand, "d", 26⟩) rfl hoperator rfl
  have hnot := Grammar.Derives.not (k := ⟨.keyword, "not", 0⟩) ⟨rfl, rfl⟩ (.positive hgroup)
  exact .orFirst (.andNext (k := ⟨.keyword, "and", 13⟩) (.andFirst hnot) ⟨rfl, rfl⟩ (.positive hcompared))

/-- Operands that run through no filter. -/
def compileUnfiltered : OperandCompiler :=
  Pipeline.compile fun name => .error (.ofCause (.unknownFilter name))

/-- Such a condition is accepted as the tree that is derived of it. -/
theorem parse_ok_iff_derives_negatedGroup :
    ∃ c, negatedGroupPhrase.compiled compileUnfiltered = .ok c ∧
      parse compileUnfiltered negatedGroupText = .ok c := by
  have hlexed : (match ConditionToken.ofString negatedGroupText with
      | .ok tokens => decide (tokens = negatedGroupTokens ++ [⟨.ending, "", negatedGroupText.length⟩])
      | .error _ => false) = true := by decide +kernel
  cases h : ConditionToken.ofString negatedGroupText with
  | error e =>
    rw [h] at hlexed
    cases hlexed
  | ok tokens =>
    rw [h] at hlexed
    have htokens := of_decide_eq_true hlexed
    have hall : tokens.all (fun t => t.kind != .operand || (compileUnfiltered t.text).isOk) = true := by
      rw [htokens]
      decide +kernel
    have hcompile : ∀ t ∈ tokens, t.kind = .operand → ∃ e, compileUnfiltered t.text = .ok e := by
      intro t ht hkind
      have hok := List.all_eq_true.mp hall t ht
      cases hc : compileUnfiltered t.text with
      | ok e => exact ⟨e, rfl⟩
      | error e => simp [hkind, hc, Except.isOk, Except.toBool] at hok
    obtain ⟨ts, hts, -, -, -, hresult⟩ := parse_ok_iff_derives h hcompile
    obtain rfl := List.append_cancel_right (htokens.symm.trans hts)
    exact hresult negatedGroupPhrase negatedGroupPhrase_derives (by decide)

end TextTemplate.Condition
