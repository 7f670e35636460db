import TextTemplate.Proofs.Token.Partition
import TextTemplate.Token.Stream

/-!
# Reading tokens

What the operations of a token stream do to the tokens that are still to be read: looking ahead leaves them
as they are, taking a token removes the first one, and putting one back adds it in front. The pushback buffer
does not show in these statements. The failure after the last token is met by the first operation that needs
one token more.
-/

namespace TextTemplate

section Sequencing

variable {ε σ α β : Type}

/-- A sequence goes on from where its first part ends, or fails where that fails. -/
theorem run_bind (m : EStateM ε σ α) (f : α → EStateM ε σ β) (s : σ) :
    (m >>= f) s = match m s with
      | .ok a s' => f a s'
      | .error e s' => .error e s' := by
  change EStateM.bind m f s = _
  rw [EStateM.bind]
  cases m s <;> rfl

theorem run_bind_ok {m : EStateM ε σ α} {f : α → EStateM ε σ β} {s s' : σ} {a : α} (h : m s = .ok a s') :
    (m >>= f) s = f a s' := by rw [run_bind, h]

theorem run_bind_error {m : EStateM ε σ α} {f : α → EStateM ε σ β} {s s' : σ} {e : ε}
    (h : m s = .error e s') : (m >>= f) s = .error e s' := by rw [run_bind, h]

theorem run_bind_get (f : σ → EStateM ε σ β) (s : σ) : ((get : EStateM ε σ σ) >>= f) s = f s s := rfl

/-- A sequence of results succeeds exactly when both its parts do. -/
theorem bind_eq_ok_iff {r : Except ε α} {f : α → Except ε β} {b : β} :
    (r >>= f) = .ok b ↔ ∃ a, r = .ok a ∧ f a = .ok b := by
  cases r with
  | ok a =>
    constructor
    · exact fun h => ⟨a, rfl, h⟩
    · rintro ⟨_, ⟨⟩, h⟩
      exact h
  | error e =>
    constructor
    · rintro ⟨⟩
    · rintro ⟨_, ⟨⟩, _⟩

end Sequencing

namespace TokenStream

/-- The stream `s'` is `s` after the tokens `taken` were read from it. -/
structure Took (s : TokenStream) (taken : List Token) (s' : TokenStream) : Prop where
  unread_eq : s.unread = taken ++ s'.unread
  fault_eq : s'.fault = s.fault

variable {s : TokenStream} {t : Token} {rest : List Token}

/-- While there are tokens, filling the buffer shows the first and loses none. -/
theorem fill_of_unread_cons (h : s.unread = t :: rest) :
    ∃ s', fill s = .ok true s' ∧ s'.pending.head? = some t ∧ s.Took [] s' := by
  rcases s with ⟨_ | ⟨p, pending⟩, _ | ⟨q, source⟩, fault, last⟩
  · simp [unread] at h
  · exact ⟨_, rfl, by simpa [unread] using (List.cons.inj h).1, rfl, rfl⟩
  · exact ⟨_, rfl, by simpa [unread] using (List.cons.inj h).1, rfl, rfl⟩
  · exact ⟨_, rfl, by simpa [unread] using (List.cons.inj h).1, rfl, rfl⟩

theorem hasNext_of_unread_cons (h : s.unread = t :: rest) : ∃ s', hasNext s = .ok true s' ∧ s.Took [] s' := by
  obtain ⟨s', hs', -, htook⟩ := fill_of_unread_cons h
  exact ⟨s', hs', htook⟩

/-- At the end the failure of the source is reported, if it has one. -/
theorem hasNext_of_unread_nil (h : s.unread = []) :
    hasNext s = match s.fault with
      | some e => .error e { s with fault := none }
      | none => .ok false s := by
  rcases s with ⟨_ | ⟨p, pending⟩, _ | ⟨q, source⟩, _ | e, last⟩ <;> first | rfl | simp [unread] at h

/-- While there are tokens, the first one is taken. -/
theorem next_of_unread_cons (h : s.unread = t :: rest) :
    ∃ s', next s = .ok t s' ∧ s.Took [t] s' := by
  obtain ⟨⟨_ | ⟨p, pending⟩, source, fault, last⟩, hfill, hhead, hunread, hfault⟩ := fill_of_unread_cons h
  · simp at hhead
  · obtain rfl : p = t := by simpa using hhead
    refine ⟨⟨pending, source, fault, p.line⟩, ?_, hunread, hfault⟩
    rw [next, run_bind_ok hfill]
    rfl

theorem prepend_took (t : Token) (s : TokenStream) :
    ∃ s', prepend t s = .ok () s' ∧ s'.unread = t :: s.unread ∧ s'.fault = s.fault :=
  ⟨_, rfl, rfl, rfl⟩

theorem Took.trans {s s' s'' : TokenStream} {u w : List Token} (h : s.Took u s') (h' : s'.Took w s'') :
    s.Took (u ++ w) s'' where
  unread_eq := by rw [h.unread_eq, h'.unread_eq, List.append_assoc]
  fault_eq := h'.fault_eq.trans h.fault_eq

/-- As many tokens as there are can be read, one after the other and in order. -/
theorem takeUpTo_of_le {n : Nat} (h : n ≤ s.unread.length) :
    ∃ s', takeUpTo n s = .ok (s.unread.take n) s' ∧ s.Took (s.unread.take n) s' := by
  induction n generalizing s with
  | zero => exact ⟨s, rfl, rfl, rfl⟩
  | succ n ih =>
    obtain ⟨t, rest, hs⟩ := List.exists_cons_of_length_pos (l := s.unread) (by omega)
    obtain ⟨s₁, hhas, htook₁⟩ := hasNext_of_unread_cons hs
    have hs₁ : s₁.unread = t :: rest := by simpa [hs] using htook₁.unread_eq.symm
    obtain ⟨s₂, hnext, htook₂⟩ := next_of_unread_cons hs₁
    have hs₂ : s₂.unread = rest := by simpa [hs₁] using htook₂.unread_eq.symm
    obtain ⟨s₃, htake, htook₃⟩ := ih (s := s₂) (by rw [hs, List.length_cons] at h; rw [hs₂]; omega)
    rw [hs₂] at htake htook₃
    refine ⟨s₃, ?_, by simpa [hs] using (htook₁.trans htook₂).trans htook₃⟩
    rw [takeUpTo, run_bind_ok hhas, if_pos rfl, run_bind_ok hnext, run_bind_ok htake, hs]
    rfl

/-- Reading past the last token meets the failure of the source, after all tokens were read. -/
theorem takeUpTo_of_fault {e : CompileError} (hfault : s.fault = some e) {n : Nat}
    (h : s.unread.length < n) : ∃ s', takeUpTo n s = .error e s' := by
  induction n generalizing s with
  | zero => omega
  | succ n ih =>
    cases hs : s.unread with
    | nil =>
      refine ⟨{ s with fault := none }, run_bind_error ?_⟩
      rw [hasNext_of_unread_nil hs, hfault]
    | cons t rest =>
      obtain ⟨s₁, hhas, htook₁⟩ := hasNext_of_unread_cons hs
      have hs₁ : s₁.unread = t :: rest := by simpa [hs] using htook₁.unread_eq.symm
      obtain ⟨s₂, hnext, htook₂⟩ := next_of_unread_cons hs₁
      have hs₂ : s₂.unread = rest := by simpa [hs₁] using htook₂.unread_eq.symm
      obtain ⟨s₃, htake⟩ := ih (s := s₂) (by rw [htook₂.fault_eq, htook₁.fault_eq, hfault])
        (by rw [hs, List.length_cons] at h; rw [hs₂]; omega)
      refine ⟨s₃, ?_⟩
      rw [takeUpTo, run_bind_ok hhas, if_pos rfl, run_bind_ok hnext, run_bind_error htake]

end TokenStream

namespace Lexer

/-- Source falls into tokens without loss, each cut as its kind asks and on its own line, up to the end or to a
delimiter that is never closed; a reader gets all these tokens in order before it meets that failure. -/
theorem tokens_partition (source : String) :
    ∃ rest, Partitions source.toList 1 (tokens source).1 (tokens source).2 rest ∧
      (∀ n ≤ (tokens source).1.length, ∃ s', TokenStream.takeUpTo n (.ofSource source) =
        .ok ((tokens source).1.take n) s') ∧
      ∀ e, (tokens source).2 = some e →
        ∃ s', TokenStream.takeUpTo ((tokens source).1.length + 1) (.ofSource source) = .error e s' := by
  obtain ⟨rest, hrest⟩ := scan_partitions source.toList 1
  have hunread : (TokenStream.ofSource source).unread = (tokens source).1 := rfl
  refine ⟨rest, hrest, fun n hn => ?_, fun e he => ?_⟩
  · obtain ⟨s', hs', -⟩ := TokenStream.takeUpTo_of_le (s := .ofSource source) (hunread ▸ hn)
    exact ⟨s', hunread ▸ hs'⟩
  · exact TokenStream.takeUpTo_of_fault (s := .ofSource source) he (by rw [hunread]; omega)

end Lexer

end TextTemplate
