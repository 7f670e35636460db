import TextTemplate.Compile.Parse
import TextTemplate.Proofs.Token.Reading

/-!
# How computations of the compiler end

A computation ends with an answer or with a failure, and with a session in both cases. What is asked of the two
ends is written as one statement, which is carried backwards through sequences, open tags and reads, so that
what a tag does follows from what its parts do. A session has taken tokens from another when its stream has,
with the same block tags open.
-/

namespace TextTemplate

namespace CompileError

/-- A failure that keeps the line it has, whoever passes it on. -/
def Settled (e : CompileError) : Prop := ∀ line, e.atLine line = e

theorem settled_of_line (cause : CompileCause) (line : Int) : Settled ⟨cause, some line⟩ := by
  intro n
  simp [atLine]

/-- A failure that was given a line is settled. -/
theorem atLine_settled (e : CompileError) (line : Nat) : (e.atLine line).Settled := by
  intro n
  rcases e with ⟨cause, _ | l⟩ <;> cases h : cause.isUserError <;> simp [atLine, h]

end CompileError

namespace Session

/-- The session `s'` is `s` after the tokens `u` were taken, with the same tags open. -/
structure Took (s : Session) (u : List Token) (s' : Session) : Prop where
  stream : s.stream.Took u s'.stream
  openTags_eq : s'.openTags = s.openTags

variable {s s' s'' : Session} {u w : List Token}

theorem Took.refl (s : Session) : s.Took [] s := ⟨⟨rfl, rfl⟩, rfl⟩

theorem Took.trans (h : s.Took u s') (h' : s'.Took w s'') : s.Took (u ++ w) s'' where
  stream := h.stream.trans h'.stream
  openTags_eq := h'.openTags_eq.trans h.openTags_eq

theorem Took.cons {t : Token} (h : s.Took [t] s') (h' : s'.Took w s'') : s.Took (t :: w) s'' := h.trans h'

theorem Took.unread_eq (h : s.Took u s') : s.stream.unread = u ++ s'.stream.unread := h.stream.unread_eq

theorem Took.fault_eq (h : s.Took u s') : s'.stream.fault = s.stream.fault := h.stream.fault_eq

end Session

namespace CompileM

variable {α β : Type} {s : Session}

/-- A computation ends with an answer and a session in `Q`, or with a failure and a session in `E`. -/
def Ends (m : CompileM α) (s : Session) (Q : α → Session → Prop) (E : CompileError → Session → Prop) : Prop :=
  match m s with
  | .ok a s' => Q a s'
  | .error e s' => E e s'

variable {m : CompileM α} {Q Q' : α → Session → Prop} {E E' : CompileError → Session → Prop}

theorem ends_of_ok {a : α} {s' : Session} (h : m s = .ok a s') (hQ : Q a s') : Ends m s Q E := by
  rw [Ends, h]
  exact hQ

theorem ends_of_error {e : CompileError} {s' : Session} (h : m s = .error e s') (hE : E e s') :
    Ends m s Q E := by
  rw [Ends, h]
  exact hE

theorem Ends.of_ok {a : α} {s' : Session} (h : Ends m s Q E) (hm : m s = .ok a s') : Q a s' := by
  rwa [Ends, hm] at h

theorem Ends.of_error {e : CompileError} {s' : Session} (h : Ends m s Q E) (hm : m s = .error e s') :
    E e s' := by
  rwa [Ends, hm] at h

/-- What cannot fail has an answer. -/
theorem Ends.exists_ok (h : Ends m s Q E) (hE : ∀ e s', ¬ E e s') : ∃ a s', m s = .ok a s' ∧ Q a s' := by
  cases hm : m s with
  | ok a s' => exact ⟨a, s', rfl, h.of_ok hm⟩
  | error e s' => exact absurd (h.of_error hm) (hE e s')

theorem Ends.imp (h : Ends m s Q E) (hQ : ∀ a s', Q a s' → Q' a s')
    (hE : ∀ e s', E e s' → E' e s') : Ends m s Q' E' := by
  rw [Ends] at h ⊢
  cases hm : m s with
  | ok a s' => rw [hm] at h; exact hQ a s' h
  | error e s' => rw [hm] at h; exact hE e s' h

/-- A sequence ends well if its second part does wherever the first one leads. -/
theorem Ends.bind {f : α → CompileM β} {Q : β → Session → Prop}
    (h : Ends m s (fun a s' => Ends (f a) s' Q E) E) : Ends (m >>= f) s Q E := by
  rw [Ends] at h ⊢
  rw [run_bind]
  cases hm : m s with
  | ok a s' => rw [hm] at h; exact h
  | error e s' => rw [hm] at h; exact h

theorem ends_bind_ok {f : α → CompileM β} {Q : β → Session → Prop} {a : α} {s' : Session}
    (hm : m s = .ok a s') (h : Ends (f a) s' Q E) : Ends (m >>= f) s Q E :=
  Ends.bind (ends_of_ok hm h)

theorem ofResult_run (r : Except CompileError α) (s : Session) :
    ofResult r s = match r with
      | .ok a => .ok a s
      | .error e => .error e s := by
  cases r <;> rfl

/-- A computation that only hands on a result ends with its answer or its failure. -/
theorem ends_of_result {r : Except CompileError α} (hm : m s = ofResult r s) (hQ : ∀ a, r = .ok a → Q a s)
    (hE : ∀ e, r = .error e → E e s) : Ends m s Q E := by
  rw [Ends, hm]
  cases r with
  | ok a => exact hQ a rfl
  | error e => exact hE e rfl

/-- What runs inside an open tag has that tag on its stack; a failure gets the line of the tag. -/
theorem ends_withOpenTag {t : Token}
    (h : Ends m { s with openTags := t :: s.openTags } (fun a s' => Q a { s' with openTags := s.openTags })
      (fun e s' => E (e.atLine t.line) { s' with openTags := s.openTags })) :
    Ends (withOpenTag t m) s Q E := by
  rw [Ends] at h ⊢
  rw [withOpenTag]
  cases hm : m { s with openTags := t :: s.openTags } with
  | ok a s' => rw [hm] at h; exact h
  | error e s' => rw [hm] at h; exact h

theorem ends_atLine {line : Nat} (h : Ends m s Q (fun e s' => E (e.atLine line) s')) :
    Ends (atLine line m) s Q E := by
  rw [Ends] at h ⊢
  rw [atLine]
  cases hm : m s with
  | ok a s' => rw [hm] at h; exact h
  | error e s' => rw [hm] at h; exact h

/-! ## Reads -/

/-- Taking the next token when there is one. -/
theorem next_run {t : Token} {rest : List Token} (h : s.stream.unread = t :: rest) :
    ∃ s', next s = .ok t s' ∧ s.Took [t] s' ∧ s'.active = s.active := by
  obtain ⟨stream, hnext, htook⟩ := TokenStream.next_of_unread_cons h
  refine ⟨{ s with stream := stream }, ?_, ⟨htook, rfl⟩, rfl⟩
  rw [next, onStream, hnext]

theorem deleteNext_run {t : Token} {rest : List Token} (h : s.stream.unread = t :: rest) :
    ∃ s', deleteNext s = .ok () s' ∧ s.Took [t] s' ∧ s'.active = s.active := by
  obtain ⟨stream, hnext, htook⟩ := TokenStream.next_of_unread_cons h
  refine ⟨{ s with stream := stream }, ?_, ⟨htook, rfl⟩, rfl⟩
  rw [deleteNext, onStream, TokenStream.deleteNext, run_bind_ok hnext]
  rfl

/-- Deleting a token is taking it. -/
theorem deleteNext_eq : deleteNext = (do let _ ← next) := by
  funext s
  cases h : TokenStream.next s.stream with
  | ok t stream =>
    have hnext : next s = .ok t { s with stream := stream } := by rw [next, onStream, h]
    rw [run_bind_ok hnext, deleteNext, onStream, TokenStream.deleteNext, run_bind_ok h]
    rfl
  | error e stream =>
    have hnext : next s = .error e { s with stream := stream } := by rw [next, onStream, h]
    rw [run_bind_error hnext, deleteNext, onStream, TokenStream.deleteNext, run_bind_error h]

/-- While there are tokens, a read takes the first one. -/
theorem read_run {t : Token} {rest : List Token} (h : s.stream.unread = t :: rest) :
    ∃ s₀ s', hasNext s = .ok true s₀ ∧ next s₀ = .ok t s' ∧ s.Took [t] s' ∧ s'.active = s.active := by
  obtain ⟨stream, hhas, htook⟩ := TokenStream.hasNext_of_unread_cons h
  have hunread : stream.unread = t :: rest := by simpa [h] using htook.unread_eq.symm
  obtain ⟨s', hnext, htook', hactive⟩ := next_run (s := { s with stream := stream }) hunread
  refine ⟨{ s with stream := stream }, s', ?_, hnext, ⟨htook.trans htook'.stream, htook'.openTags_eq⟩, hactive⟩
  rw [hasNext, onStream, hhas]

/-- A read goes on with the next token; at the end it meets the failure of the source, or finds that there is
no token left. -/
theorem ends_read {f : Token → CompileM α} {g : CompileM α}
    (hnext : ∀ t s', s.Took [t] s' → s'.active = s.active → Ends (f t) s' Q E)
    (hfault : ∀ e s', s.stream.unread = [] → s.stream.fault = some e → s'.openTags = s.openTags → E e s')
    (hend : s.stream.unread = [] → s.stream.fault = none → Ends g s Q E) :
    Ends (do if ← hasNext then f (← next) else g) s Q E := by
  cases hs : s.stream.unread with
  | nil =>
    have hhas := TokenStream.hasNext_of_unread_nil hs
    cases hf : s.stream.fault with
    | none =>
      rw [hf] at hhas
      have hrun : hasNext s = .ok false s := by rw [hasNext, onStream, hhas]
      exact ends_bind_ok hrun (by simpa using hend hs hf)
    | some e =>
      rw [hf] at hhas
      have hrun : hasNext s = .error e { s with stream := { s.stream with fault := none } } := by
        rw [hasNext, onStream, hhas]
      exact Ends.bind (ends_of_error hrun (hfault e _ hs hf rfl))
  | cons t rest =>
    obtain ⟨s₀, s', hhas, hnext', htook, hactive⟩ := read_run hs
    exact ends_bind_ok hhas (by simpa using ends_bind_ok hnext' (hnext t s' htook hactive))

/-- A token that was taken and is put back is as if it had not been taken. -/
theorem prepend_run {t : Token} {s' : Session} (h : s.Took [t] s') :
    ∃ s'', prepend t s' = .ok () s'' ∧ s.Took [] s'' ∧ s''.active = s'.active ∧
      s''.stream.unread = t :: s'.stream.unread := by
  obtain ⟨stream, hrun, hunread, hfault⟩ := TokenStream.prepend_took t s'.stream
  refine ⟨{ s' with stream := stream }, ?_, ⟨⟨?_, hfault.trans h.fault_eq⟩, h.openTags_eq⟩, rfl, hunread⟩
  · rw [prepend, onStream, hrun]
  · rw [h.unread_eq, hunread]
    rfl

/-- While a factory runs, the tag being compiled is the innermost open tag. -/
theorem currentToken_run {t : Token} {outer : List Token} (h : s.openTags = t :: outer) :
    currentToken s = .ok t s := by
  rw [currentToken, run_bind_get, h]
  rfl

theorem rounds_run (s : Session) : rounds s = .ok (s.stream.unread.length + 1) s := rfl

end CompileM

end TextTemplate
