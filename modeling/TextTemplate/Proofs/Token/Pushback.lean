import TextTemplate.Proofs.Token.Reading

/-!
# A token stream is a list

A token stream has a buffer, which holds tokens that were put back together with tokens that were only looked at,
and a source behind it that may fail at its end. To those who read from it, it is a plain list: taking a token
removes the head, putting one back adds a head, and looking ahead changes nothing. The two are compared over runs of
requests, in which a failure is an answer like any other and the next request is still carried out.

In a run there can be any number of iterators at once, each advanced when it is its turn. An iterator that has met
the end, or a failure, stays finished, even if tokens are put back later.
-/

namespace TextTemplate

/-- What can be asked of a reader of tokens. Iterators are known by their numbers. -/
inductive TokenRequest where
  | hasNext
  | peek
  | next
  | prepend (t : Token)
  | deleteNext
  | advance (iterator : Nat)

inductive TokenAnswer where
  | done
  | whether (b : Bool)
  | token (t : Token)
  | tokenIfAny (t : Option Token)
  deriving DecidableEq

/-- The operations of a reader, on states of some kind. -/
structure TokenReader (σ : Type) where
  hasNext : EStateM CompileError σ Bool
  peek : EStateM CompileError σ (Option Token)
  next : EStateM CompileError σ Token
  prepend : Token → EStateM CompileError σ Unit
  deleteNext : EStateM CompileError σ Unit
  /-- One step of an iteration; no token at the end. -/
  step : EStateM CompileError σ (Option Token)

/-- A reader in use: its state, and the iterators that are finished. -/
structure Reading (σ : Type) where
  state : σ
  finished : List Nat

/-- The answer to a request, or why there is none. -/
abbrev TokenOutcome := Except CompileError TokenAnswer

namespace Reading

variable {σ τ : Type}

def start (s : σ) : Reading σ := ⟨s, []⟩

/-- Carry out an operation of the reader. -/
def perform (m : EStateM CompileError σ TokenAnswer) (u : Reading σ) : TokenOutcome × Reading σ :=
  match m u.state with
  | .ok a s => (.ok a, { u with state := s })
  | .error e s => (.error e, { u with state := s })

/-- Carry out one step of an iterator, which is then finished unless it gives a token. -/
def advance (step : EStateM CompileError σ (Option Token)) (iterator : Nat) (u : Reading σ) :
    TokenOutcome × Reading σ :=
  if iterator ∈ u.finished then (.ok (.tokenIfAny none), u)
  else match step u.state with
    | .ok (some t) s => (.ok (.tokenIfAny (some t)), { u with state := s })
    | .ok none s => (.ok (.tokenIfAny none), ⟨s, iterator :: u.finished⟩)
    | .error e s => (.error e, ⟨s, iterator :: u.finished⟩)

def map (view : σ → τ) (u : Reading σ) : Reading τ := ⟨view u.state, u.finished⟩

end Reading

namespace TokenReader

variable {σ τ : Type}

/-- The answer to one request, and the reader after it. -/
def answer (R : TokenReader σ) : TokenRequest → Reading σ → TokenOutcome × Reading σ
  | .hasNext => Reading.perform do return .whether (← R.hasNext)
  | .peek => Reading.perform do return .tokenIfAny (← R.peek)
  | .next => Reading.perform do return .token (← R.next)
  | .prepend t => Reading.perform do
    R.prepend t
    return .done
  | .deleteNext => Reading.perform do
    R.deleteNext
    return .done
  | .advance iterator => Reading.advance R.step iterator

/-- The answers to requests one after the other. -/
def answers (R : TokenReader σ) : List TokenRequest → Reading σ → List TokenOutcome
  | [], _ => []
  | r :: rest, u => (R.answer r u).1 :: R.answers rest (R.answer r u).2

/-- The reader after requests. -/
def after (R : TokenReader σ) (requests : List TokenRequest) (u : Reading σ) : Reading σ :=
  requests.foldl (fun u r => (R.answer r u).2) u

end TokenReader

/-! ## The list -/

/-- The tokens that are still to be read, in order. -/
structure PushbackList where
  tokens : List Token
  /-- The failure after the last token of the source, until it is reported. -/
  fault : Option CompileError
  /-- The line of the last token handed out, 0 before the first. -/
  lastLine : Nat

namespace PushbackList

variable {α : Type}

/-- Without a token to read, the failure of the source is reported; once it is, or if there is none, the source has
ended. -/
def atEnd (l : PushbackList) (ended : Except CompileError α) : EStateM.Result CompileError PushbackList α :=
  match l.fault, ended with
  | some e, _ => .error e { l with fault := none }
  | none, .ok a => .ok a l
  | none, .error e => .error e l

def hasNext : EStateM CompileError PushbackList Bool := fun l =>
  match l.tokens with
  | _ :: _ => .ok true l
  | [] => l.atEnd (.ok false)

def peek : EStateM CompileError PushbackList (Option Token) := fun l =>
  match l.tokens with
  | t :: _ => .ok (some t) l
  | [] => l.atEnd (.ok none)

/-- The failure for a token that is not there, with the line of the last token handed out, if there was one. -/
def unexpectedEnd (lastLine : Nat) : CompileError := ⟨.unexpectedEnd, if lastLine = 0 then none else some lastLine⟩

/-- Take the head, which has to be there. -/
def next : EStateM CompileError PushbackList Token := fun l =>
  match l.tokens with
  | t :: rest => .ok t { l with tokens := rest, lastLine := t.line }
  | [] => l.atEnd (.error (unexpectedEnd l.lastLine))

def prepend (t : Token) : EStateM CompileError PushbackList Unit := fun l =>
  .ok () { l with tokens := t :: l.tokens }

def deleteNext : EStateM CompileError PushbackList Unit := do
  let _ ← next

/-- Take the head, if there is one. -/
def step : EStateM CompileError PushbackList (Option Token) := fun l =>
  match l.tokens with
  | t :: rest => .ok (some t) { l with tokens := rest, lastLine := t.line }
  | [] => l.atEnd (.ok none)

/-- Take all tokens; they are lost if the source fails behind them. -/
def drain : EStateM CompileError PushbackList (List Token) := fun l =>
  atEnd ⟨[], l.fault, (l.tokens.getLast?.map (·.line)).getD l.lastLine⟩ (.ok l.tokens)

theorem drain_cons (t : Token) (rest : List Token) (fault : Option CompileError) (last : Nat) :
    drain ⟨t :: rest, fault, last⟩ = match drain ⟨rest, fault, t.line⟩ with
      | .ok tokens l => .ok (t :: tokens) l
      | .error e l => .error e l := by
  cases fault <;> cases rest <;> simp [drain, atEnd, List.getLast?_cons]

def reader : TokenReader PushbackList := ⟨hasNext, peek, next, prepend, deleteNext, step⟩

end PushbackList

/-! ## The stream behaves as the list -/

namespace TokenStream

variable {α β : Type} {s : TokenStream}

/-- A step of an iteration over a stream is an iteration that is left after one token. -/
def reader : TokenReader TokenStream :=
  ⟨hasNext, peek, next, prepend, deleteNext, do return (← takeUpTo 1).head?⟩

/-- The stream as its reader sees it. -/
def view (s : TokenStream) : PushbackList := ⟨s.unread, s.fault, s.lastLine⟩

/-- The outcome of an operation as the reader of the stream sees it. -/
def shows : EStateM.Result CompileError TokenStream α → EStateM.Result CompileError PushbackList α
  | .ok a s => .ok a s.view
  | .error e s => .error e s.view

theorem shows_eq_ok {r : EStateM.Result CompileError TokenStream α} {a : α} {l : PushbackList} :
    shows r = .ok a l ↔ ∃ s, r = .ok a s ∧ s.view = l := by
  cases r with
  | ok b s => simp [shows]
  | error e s => simp [shows]

/-- An operation does to the stream what another one does to the list. -/
def DoesAs (m : StreamM α) (m' : EStateM CompileError PushbackList α) : Prop := ∀ s, shows (m s) = m' s.view

theorem DoesAs.bind {m : StreamM α} {m' : EStateM CompileError PushbackList α} {f : α → StreamM β}
    {f' : α → EStateM CompileError PushbackList β} (hm : DoesAs m m') (hf : ∀ a, DoesAs (f a) (f' a)) :
    DoesAs (m >>= f) (m' >>= f') := by
  intro s
  rw [run_bind, run_bind, ← hm s]
  cases m s with
  | ok a s' => exact hf a s'
  | error e s' => rfl

theorem doesAs_pure (a : α) : DoesAs (pure a) (pure a) := fun _ => rfl

theorem hasNext_doesAs : DoesAs hasNext PushbackList.hasNext := by
  rintro ⟨_ | ⟨p, pending⟩, _ | ⟨q, source⟩, _ | e, last⟩ <;> rfl

theorem peek_doesAs : DoesAs peek PushbackList.peek := by
  rintro ⟨_ | ⟨p, pending⟩, _ | ⟨q, source⟩, _ | e, last⟩ <;> rfl

theorem next_doesAs : DoesAs next PushbackList.next := by
  rintro ⟨_ | ⟨p, pending⟩, _ | ⟨q, source⟩, _ | e, last⟩ <;> rfl

theorem prepend_doesAs (t : Token) : DoesAs (prepend t) (PushbackList.prepend t) := fun _ => rfl

theorem deleteNext_doesAs : DoesAs deleteNext PushbackList.deleteNext :=
  next_doesAs.bind fun _ => doesAs_pure ()

/-- A round of an iteration takes the head. -/
theorem step_doesAs : DoesAs reader.step PushbackList.step := by
  rintro ⟨_ | ⟨p, pending⟩, _ | ⟨q, source⟩, _ | e, last⟩ <;> rfl

theorem hasNext_of_view {t : Token} {rest : List Token} (h : s.unread = t :: rest) :
    ∃ s', hasNext s = .ok true s' ∧ s'.view = s.view := by
  have hlist : PushbackList.hasNext s.view = .ok true s.view := by rw [view, h]; rfl
  exact shows_eq_ok.mp ((hasNext_doesAs s).trans hlist)

theorem next_of_view {t : Token} {rest : List Token} (h : s.unread = t :: rest) :
    ∃ s', next s = .ok t s' ∧ s'.view = ⟨rest, s.fault, t.line⟩ := by
  have hlist : PushbackList.next s.view = .ok t ⟨rest, s.fault, t.line⟩ := by rw [view, h]; rfl
  exact shows_eq_ok.mp ((next_doesAs s).trans hlist)

/-- An iteration with rounds enough takes all tokens. -/
theorem takeUpTo_shows {n : Nat} (h : s.unread.length < n) :
    shows (takeUpTo n s) = PushbackList.drain s.view := by
  induction n generalizing s with
  | zero => omega
  | succ n ih =>
    cases hs : s.unread with
    | nil =>
      rcases s with ⟨_ | ⟨p, pending⟩, _ | ⟨q, source⟩, _ | e, last⟩ <;> first | rfl | simp [unread] at hs
    | cons t rest =>
      obtain ⟨s₁, hhas, hview₁⟩ := hasNext_of_view hs
      obtain ⟨s₂, hnext, hview₂⟩ := next_of_view ((congrArg PushbackList.tokens hview₁).trans hs)
      have hunread : s₂.unread = rest := congrArg PushbackList.tokens hview₂
      have hfault : s₁.fault = s.fault := congrArg PushbackList.fault hview₁
      have hrest := ih (s := s₂) (by rw [hs, List.length_cons] at h; rw [hunread]; omega)
      rw [hview₂, hfault] at hrest
      rw [takeUpTo, run_bind_ok hhas, if_pos rfl, run_bind_ok hnext, run_bind, view, hs,
        PushbackList.drain_cons, ← hrest]
      cases takeUpTo n s₂ <;> rfl

theorem drain_doesAs : DoesAs drain PushbackList.drain := fun _ => takeUpTo_shows (Nat.lt_succ_self _)

/-! ### Runs -/

variable (u : Reading TokenStream)

theorem perform_map {m : StreamM TokenAnswer} {m' : EStateM CompileError PushbackList TokenAnswer}
    (h : DoesAs m m') : (u.map view).perform m' = ((u.perform m).1, (u.perform m).2.map view) := by
  have hstate := h u.state
  rw [Reading.perform, Reading.perform, Reading.map, ← hstate]
  cases m u.state <;> rfl

theorem advance_map (iterator : Nat) : (u.map view).advance PushbackList.step iterator =
    ((u.advance reader.step iterator).1, (u.advance reader.step iterator).2.map view) := by
  have hstate := step_doesAs u.state
  rw [Reading.advance, Reading.advance, Reading.map, ← hstate]
  by_cases hfinished : iterator ∈ u.finished
  · rw [if_pos hfinished, if_pos hfinished]
    rfl
  · rw [if_neg hfinished, if_neg hfinished]
    rcases reader.step u.state with ⟨_ | _, _⟩ | _ <;> rfl

/-- A request has the same answer from the stream and from the list. -/
theorem answer_map (r : TokenRequest) :
    PushbackList.reader.answer r (u.map view) = ((reader.answer r u).1, (reader.answer r u).2.map view) := by
  cases r with
  | hasNext => exact perform_map u (hasNext_doesAs.bind fun _ => doesAs_pure _)
  | peek => exact perform_map u (peek_doesAs.bind fun _ => doesAs_pure _)
  | next => exact perform_map u (next_doesAs.bind fun _ => doesAs_pure _)
  | prepend t => exact perform_map u ((prepend_doesAs t).bind fun _ => doesAs_pure _)
  | deleteNext => exact perform_map u (deleteNext_doesAs.bind fun _ => doesAs_pure _)
  | advance iterator => exact advance_map u iterator

variable (requests : List TokenRequest)

theorem answers_map : PushbackList.reader.answers requests (u.map view) = reader.answers requests u := by
  induction requests generalizing u with
  | nil => rfl
  | cons r rest ih =>
    rw [TokenReader.answers, TokenReader.answers, answer_map]
    exact congrArg _ (ih _)

theorem after_map : PushbackList.reader.after requests (u.map view) = (reader.after requests u).map view := by
  induction requests generalizing u with
  | nil => rfl
  | cons r rest ih =>
    have hstep := congrArg Prod.snd (answer_map u r)
    exact (congrArg (PushbackList.reader.after rest) hstep).trans (ih _)

end TokenStream

/-! ## What holds of the list -/

/-- What a reader answers where there is nothing to read and no failure to report. -/
def TokenOutcome.IsEnding : TokenOutcome → Prop
  | .ok (.whether b) => b = false
  | .ok (.tokenIfAny t) => t = none
  | .ok _ => False
  | .error e => e.cause = .unexpectedEnd

/-- The token that an answer shows. -/
def TokenOutcome.shown : TokenOutcome → List Token
  | .ok (.token t) => [t]
  | .ok (.tokenIfAny t) => t.toList
  | _ => []

/-- The failures among answers, in order. -/
def TokenOutcome.failures (answers : List TokenOutcome) : List CompileError :=
  answers.filterMap fun
    | .error e => some e
    | .ok _ => none

theorem TokenOutcome.IsEnding.shown_eq {o : TokenOutcome} (h : o.IsEnding) : o.shown = [] := by
  rcases o with e | _ | b | t | t
  · rfl
  · rfl
  · rfl
  · exact h.elim
  · obtain rfl : t = none := h
    rfl

namespace PushbackList

open TokenOutcome

/-- All that a request can do to the list. It leaves the head where it is, or takes it, or it needs a token where
there is none; only then does it meet the failure of the source. -/
theorem answer_cases (r : TokenRequest) (tokens : List Token) (finished : List Nat) :
    (∃ a tokens', (tokens ≠ [] → tokens' ≠ []) ∧ ∀ fault last,
      reader.answer r ⟨⟨tokens, fault, last⟩, finished⟩ = (.ok a, ⟨⟨tokens', fault, last⟩, finished⟩)) ∨
    (∃ a t rest, tokens = t :: rest ∧ ∀ fault last,
      reader.answer r ⟨⟨tokens, fault, last⟩, finished⟩ = (.ok a, ⟨⟨rest, fault, t.line⟩, finished⟩)) ∨
    tokens = [] ∧ ∃ finished', ∀ last,
      (∀ e, reader.answer r ⟨⟨tokens, some e, last⟩, finished⟩ = (.error e, ⟨⟨[], none, last⟩, finished'⟩)) ∧
      ∃ o : TokenOutcome, o.IsEnding ∧
        reader.answer r ⟨⟨tokens, none, last⟩, finished⟩ = (o, ⟨⟨[], none, last⟩, finished'⟩) := by
  cases r with
  | hasNext =>
    cases tokens with
    | nil => exact .inr (.inr ⟨rfl, finished, fun last => ⟨fun e => rfl, .ok (.whether false), rfl, rfl⟩⟩)
    | cons t rest => exact .inl ⟨_, _, id, fun fault last => rfl⟩
  | peek =>
    cases tokens with
    | nil => exact .inr (.inr ⟨rfl, finished, fun last => ⟨fun e => rfl, .ok (.tokenIfAny none), rfl, rfl⟩⟩)
    | cons t rest => exact .inl ⟨_, _, id, fun fault last => rfl⟩
  | next | deleteNext =>
    cases tokens with
    | nil =>
      exact .inr (.inr ⟨rfl, finished, fun last => ⟨fun e => rfl, .error (unexpectedEnd last), rfl, rfl⟩⟩)
    | cons t rest => exact .inr (.inl ⟨_, t, rest, rfl, fun fault last => rfl⟩)
  | prepend t => exact .inl ⟨_, t :: tokens, fun _ => List.cons_ne_nil t tokens, fun fault last => rfl⟩
  | advance iterator =>
    by_cases hfinished : iterator ∈ finished
    · refine .inl ⟨.tokenIfAny none, tokens, id, fun fault last => ?_⟩
      rw [TokenReader.answer, Reading.advance, if_pos hfinished]
    · cases tokens with
      | nil =>
        refine .inr (.inr ⟨rfl, iterator :: finished, fun last => ⟨fun e => ?_, .ok (.tokenIfAny none), rfl, ?_⟩⟩)
        · rw [TokenReader.answer, Reading.advance, if_neg hfinished]
          rfl
        · rw [TokenReader.answer, Reading.advance, if_neg hfinished]
          rfl
      | cons t rest =>
        refine .inr (.inl ⟨.tokenIfAny (some t), t, rest, rfl, fun fault last => ?_⟩)
        rw [TokenReader.answer, Reading.advance, if_neg hfinished]
        rfl

/-- The failure of the source is the first failure of a run, if there is one, and it is reported once: all others
say that the end was met. -/
theorem failures_answers (requests : List TokenRequest) (u : Reading PushbackList) :
    ∃ ends : List CompileError, (∀ e ∈ ends, e.cause = .unexpectedEnd) ∧
      (failures (reader.answers requests u) = [] ∨
        failures (reader.answers requests u) = u.state.fault.toList ++ ends) := by
  induction requests generalizing u with
  | nil => exact ⟨[], List.forall_mem_nil _, .inl rfl⟩
  | cons r rest ih =>
    obtain ⟨⟨tokens, fault, last⟩, finished⟩ := u
    obtain ⟨a, tokens', -, h⟩ | ⟨a, t, tokens', -, h⟩ | ⟨rfl, finished', h⟩ := answer_cases r tokens finished
    · rw [TokenReader.answers, h]
      exact ih ⟨⟨tokens', fault, last⟩, finished⟩
    · rw [TokenReader.answers, h]
      exact ih ⟨⟨tokens', fault, t.line⟩, finished⟩
    · -- behind the report, only the end can be met
      obtain ⟨ends, hends, hlater⟩ := ih ⟨⟨[], none, last⟩, finished'⟩
      obtain ⟨later, hall, hfailures⟩ : ∃ later : List CompileError, (∀ e ∈ later, e.cause = .unexpectedEnd) ∧
          failures (reader.answers rest ⟨⟨[], none, last⟩, finished'⟩) = later := by
        rcases hlater with hnil | hends'
        · exact ⟨[], List.forall_mem_nil _, hnil⟩
        · exact ⟨ends, hends, hends'⟩
      cases fault with
      | some e =>
        rw [TokenReader.answers, (h last).1 e]
        exact ⟨later, hall, .inr (congrArg (e :: ·) hfailures)⟩
      | none =>
        obtain ⟨o, hending, hanswer⟩ := (h last).2
        rw [TokenReader.answers, hanswer]
        cases o with
        | ok a => exact ⟨later, hall, .inr hfailures⟩
        | error e => exact ⟨e :: later, List.forall_mem_cons.mpr ⟨hending, hall⟩, .inr (congrArg (e :: ·) hfailures)⟩

/-! ### Looking ahead -/

/-- The second reader answers as the first one does. Before the next token is handed out, nothing tells whether one
was handed out and put back. -/
structure Alike (u u' : Reading PushbackList) : Prop where
  tokens : u'.state.tokens = u.state.tokens
  fault : u'.state.fault = u.state.fault
  finished : u'.finished = u.finished
  lastLine : u'.state.lastLine = u.state.lastLine ∨ u.state.tokens ≠ []

/-- The second reader has reported the failure of the source, the first one has not. -/
structure Ahead (e : CompileError) (u u' : Reading PushbackList) : Prop where
  tokens : u'.state.tokens = u.state.tokens
  pending : u.state.fault = some e
  reported : u'.state.fault = none
  finished : u'.finished = u.finished
  lastLine : u'.state.lastLine = u.state.lastLine

variable {u u' u'' : Reading PushbackList} {e : CompileError}

theorem Alike.refl (u : Reading PushbackList) : Alike u u := ⟨rfl, rfl, rfl, .inl rfl⟩

theorem Alike.trans (h : Alike u u') (h' : Alike u' u'') : Alike u u'' where
  tokens := h'.tokens.trans h.tokens
  fault := h'.fault.trans h.fault
  finished := h'.finished.trans h.finished
  lastLine := by
    rcases h'.lastLine with hlast | hne
    · exact h.lastLine.imp_left hlast.trans
    · exact .inr (h.tokens ▸ hne)

theorem Alike.answer (h : Alike u u') (r : TokenRequest) :
    (reader.answer r u').1 = (reader.answer r u).1 ∧ Alike (reader.answer r u).2 (reader.answer r u').2 := by
  obtain ⟨⟨_, _, last⟩, _⟩ := u
  obtain ⟨⟨ts, fault, last'⟩, done⟩ := u'
  obtain ⟨rfl, rfl, rfl, hlast⟩ := h
  obtain ⟨a, ts', hne, h⟩ | ⟨a, t, rest, -, h⟩ | ⟨rfl, -⟩ := answer_cases r ts done
  · rw [h, h]
    exact ⟨rfl, rfl, rfl, rfl, hlast.imp_right hne⟩
  · rw [h, h]
    exact ⟨rfl, .refl _⟩
  · obtain rfl : last' = last := hlast.resolve_right fun hne => hne rfl
    exact ⟨rfl, .refl _⟩

/-- Readers that are alike answer alike from there on. -/
theorem Alike.answers (h : Alike u u') (requests : List TokenRequest) :
    reader.answers requests u' = reader.answers requests u ∧
      Alike (reader.after requests u) (reader.after requests u') := by
  induction requests generalizing u u' with
  | nil => exact ⟨rfl, h⟩
  | cons r rest ih =>
    obtain ⟨hanswer, hafter⟩ := h.answer r
    obtain ⟨hanswers, hrest⟩ := ih hafter
    exact ⟨by rw [TokenReader.answers, TokenReader.answers, hanswer, hanswers], hrest⟩

/-- A reader that has reported the failure is ahead until the other one reports it too. -/
theorem Ahead.answer (h : Ahead e u u') (r : TokenRequest) :
    ((reader.answer r u').1 = (reader.answer r u).1 ∧ Ahead e (reader.answer r u).2 (reader.answer r u').2) ∨
      ((reader.answer r u).1 = .error e ∧ (reader.answer r u').1.IsEnding ∧
        Alike (reader.answer r u).2 (reader.answer r u').2) := by
  obtain ⟨⟨_, _, _⟩, _⟩ := u
  obtain ⟨⟨ts, _, last⟩, done⟩ := u'
  obtain ⟨rfl, rfl, rfl, rfl, rfl⟩ := h
  obtain ⟨a, ts', -, h⟩ | ⟨a, t, rest, -, h⟩ | ⟨rfl, done', h⟩ := answer_cases r ts done
  · rw [h, h]
    exact .inl ⟨rfl, rfl, rfl, rfl, rfl, rfl⟩
  · rw [h, h]
    exact .inl ⟨rfl, rfl, rfl, rfl, rfl, rfl⟩
  · obtain ⟨o, hending, hanswer⟩ := (h last).2
    rw [(h last).1 e, hanswer]
    exact .inr ⟨rfl, hending, .refl _⟩

/-- The tokens that are handed out do not depend on when the failure is reported. -/
theorem Ahead.answers (h : Ahead e u u') (requests : List TokenRequest) :
    (reader.answers requests u').flatMap shown = (reader.answers requests u).flatMap shown ∧
      (reader.after requests u').state.tokens = (reader.after requests u).state.tokens := by
  induction requests generalizing u u' with
  | nil => exact ⟨rfl, h.tokens⟩
  | cons r rest ih =>
    rw [TokenReader.answers, TokenReader.answers, List.flatMap_cons, List.flatMap_cons]
    obtain ⟨hanswer, hafter⟩ | ⟨hreport, hending, hafter⟩ := h.answer r
    · obtain ⟨hanswers, htokens⟩ := ih hafter
      exact ⟨by rw [hanswer, hanswers], htokens⟩
    · obtain ⟨hanswers, hrest⟩ := hafter.answers rest
      refine ⟨?_, hrest.tokens⟩
      rw [hreport, hending.shown_eq, hanswers]
      rfl

/-- Requests that only look ahead, where `head` is the token that is next: whether there is one, which one it is, and
taking it and putting it back at once. -/
inductive LooksAhead (head : Option Token) : List TokenRequest → Prop
  | nil : LooksAhead head []
  | hasNext {rest} (others : LooksAhead head rest) : LooksAhead head (.hasNext :: rest)
  | peek {rest} (others : LooksAhead head rest) : LooksAhead head (.peek :: rest)
  | reread {t rest} (isHead : head = some t) (others : LooksAhead head rest) :
    LooksAhead head (.next :: .prepend t :: rest)

/-- What looking ahead does: nothing that can be told from outside, or it meets the failure of the source early. -/
def Looked (u u' : Reading PushbackList) : Prop := Alike u u' ∨ u.state.tokens = [] ∧ ∃ e, Ahead e u u'

theorem Looked.tokens_eq (h : Looked u u') : u'.state.tokens = u.state.tokens := by
  obtain hsame | ⟨-, e, hahead⟩ := h
  · exact hsame.tokens
  · exact hahead.tokens

theorem Looked.trans (h : Looked u u') (h' : Looked u' u'') : Looked u u'' := by
  obtain hsame | ⟨hnil, e, hahead⟩ := h
  · obtain hsame' | ⟨hnil', e, hahead⟩ := h'
    · exact .inl (hsame.trans hsame')
    · have hnil : u.state.tokens = [] := hsame.tokens.symm.trans hnil'
      have hlast : u'.state.lastLine = u.state.lastLine := hsame.lastLine.resolve_right fun hne => hne hnil
      exact .inr ⟨hnil, e, hahead.tokens.trans hsame.tokens, hsame.fault.symm.trans hahead.pending, hahead.reported,
        hahead.finished.trans hsame.finished, hahead.lastLine.trans hlast⟩
  · obtain hsame | ⟨-, e', hahead'⟩ := h'
    · have hlast : u''.state.lastLine = u'.state.lastLine :=
        hsame.lastLine.resolve_right fun hne => hne (hahead.tokens.trans hnil)
      exact .inr ⟨hnil, e, hsame.tokens.trans hahead.tokens, hahead.pending, hsame.fault.trans hahead.reported,
        hsame.finished.trans hahead.finished, hlast.trans hahead.lastLine⟩
    · -- the failure is not reported twice
      cases hahead.reported.symm.trans hahead'.pending

theorem looked_of_peeks {r : TokenRequest} (h : r = .hasNext ∨ r = .peek) (u : Reading PushbackList) :
    Looked u (reader.answer r u).2 := by
  obtain ⟨⟨_ | ⟨t, rest⟩, _ | e, last⟩, done⟩ := u
  · obtain rfl | rfl := h <;> exact .inl (.refl _)
  · obtain rfl | rfl := h <;> exact .inr ⟨rfl, e, rfl, rfl, rfl, rfl, rfl⟩
  · obtain rfl | rfl := h <;> exact .inl (.refl _)
  · obtain rfl | rfl := h <;> exact .inl (.refl _)

theorem looked_reread {t : Token} (h : u.state.tokens.head? = some t) :
    Looked u (reader.after [.next, .prepend t] u) := by
  obtain ⟨⟨_ | ⟨t', rest⟩, fault, last⟩, done⟩ := u
  · cases h
  · obtain rfl : t' = t := Option.some.inj h
    exact .inl ⟨rfl, rfl, rfl, .inr (List.cons_ne_nil t' rest)⟩

theorem LooksAhead.looked {looks : List TokenRequest} (h : LooksAhead u.state.tokens.head? looks) :
    Looked u (reader.after looks u) := by
  generalize hhead : u.state.tokens.head? = head at h
  induction h generalizing u with
  | nil => exact .inl (.refl u)
  | hasNext _ ih =>
    have hlook := looked_of_peeks (.inl rfl) u
    exact hlook.trans (ih (hlook.tokens_eq ▸ hhead))
  | peek _ ih =>
    have hlook := looked_of_peeks (.inr rfl) u
    exact hlook.trans (ih (hlook.tokens_eq ▸ hhead))
  | reread isHead _ ih =>
    have hlook := looked_reread (hhead.trans isHead)
    exact hlook.trans (ih (hlook.tokens_eq ▸ hhead))

/-- Looking ahead does not change which tokens are handed out later, and no answer but where it has met the failure of
the source. -/
theorem Looked.answers (h : Looked u u') (more : List TokenRequest) :
    (reader.answers more u').flatMap shown = (reader.answers more u).flatMap shown ∧
      (reader.after more u').state.tokens = (reader.after more u).state.tokens ∧
      (u.state.tokens ≠ [] ∨ u.state.fault = none → reader.answers more u' = reader.answers more u) := by
  obtain hsame | ⟨hnil, e, hahead⟩ := h
  · obtain ⟨hanswers, hafter⟩ := hsame.answers more
    exact ⟨congrArg _ hanswers, hafter.tokens, fun _ => hanswers⟩
  · obtain ⟨hshown, htokens⟩ := hahead.answers more
    refine ⟨hshown, htokens, ?_⟩
    rintro (hne | hnone)
    · exact absurd hnil hne
    · cases hnone.symm.trans hahead.pending

end PushbackList

/-! ## The stream -/

namespace TokenStream

open PushbackList TokenOutcome

/-- For any requests, a stream answers as the list of its tokens does, with the failure of the source behind them, and
both are left with the same tokens to be read, at once or one by one. The failure of the source is reported once, and
before the end of the stream is. Requests that only look ahead can be left out: the tokens of later requests are the
same, and so are all later answers unless the request was the one to meet the failure. -/
theorem reads_as_list (tokens : List Token) (fault : Option CompileError) (requests : List TokenRequest) :
    let u := reader.after requests (.start (ofTokens tokens fault))
    let l := PushbackList.reader.after requests (.start ⟨tokens, fault, 0⟩)
    let answers := reader.answers requests (.start (ofTokens tokens fault))
    answers = PushbackList.reader.answers requests (.start ⟨tokens, fault, 0⟩) ∧
      u.map view = l ∧ shows (drain u.state) = PushbackList.drain l.state ∧
      (∃ ends : List CompileError, (∀ e ∈ ends, e.cause = .unexpectedEnd) ∧
        (failures answers = [] ∨ failures answers = fault.toList ++ ends)) ∧
      ∀ looks more, LooksAhead u.state.unread.head? looks →
        (reader.answers more (reader.after looks u)).flatMap shown = (reader.answers more u).flatMap shown ∧
          (reader.after more (reader.after looks u)).state.unread = (reader.after more u).state.unread ∧
          (u.state.unread ≠ [] ∨ u.state.fault = none →
            reader.answers more (reader.after looks u) = reader.answers more u) := by
  intro u l answers
  have hstart : (Reading.start (ofTokens tokens fault)).map view = .start ⟨tokens, fault, 0⟩ := rfl
  have hanswers : answers = PushbackList.reader.answers requests (.start ⟨tokens, fault, 0⟩) := by
    rw [← hstart, answers_map]
  have hafter : u.map view = l := by
    show (reader.after requests _).map view = PushbackList.reader.after requests _
    rw [← hstart, after_map]
  refine ⟨hanswers, hafter, ?_, ?_, fun looks more hlooks => ?_⟩
  · rw [← hafter]
    exact drain_doesAs u.state
  · rw [hanswers]
    exact failures_answers requests _
  · have hlooked := LooksAhead.looked (u := u.map view) hlooks
    rw [after_map] at hlooked
    obtain ⟨hshown, htokens, hsame⟩ := hlooked.answers more
    rw [answers_map, answers_map] at hshown hsame
    rw [after_map, after_map] at htokens
    exact ⟨hshown, htokens, hsame⟩

/-- Text and a tag, with a comment behind them that is not closed: the text is looked at and taken, the tag is put back
and taken by an iterator, which then meets the failure; asked again, it has nothing more, and the end has been reached.
Before the tag is taken, one can look at it as often as one likes. -/
theorem reads_as_list_unclosed :
    let text : Token := ⟨.text, "a", 1, "a"⟩
    let tag : Token := ⟨.block, "b", 2, "\x7b% b %\x7d"⟩
    let fault := Lexer.unclosed .comment 3
    let start := Reading.start (ofTokens [text, tag] (some fault))
    let looks : List TokenRequest := [.hasNext, .peek, .next, .prepend tag, .peek]
    reader.answers [.peek, .next, .next, .prepend tag, .advance 0, .advance 0, .advance 0, .next] start =
        [.ok (.tokenIfAny (some text)), .ok (.token text), .ok (.token tag), .ok .done, .ok (.tokenIfAny (some tag)),
          .error fault, .ok (.tokenIfAny none), .error ⟨.unexpectedEnd, some 2⟩] ∧
      LooksAhead (reader.after [.next] start).state.unread.head? looks ∧
      reader.answers [.next, .next] (reader.after looks (reader.after [.next] start)) =
        reader.answers [.next, .next] (reader.after [.next] start) := by
  intro text tag fault start looks
  have hlooks : LooksAhead (reader.after [.next] start).state.unread.head? looks :=
    .hasNext (.peek (.reread rfl (.peek .nil)))
  obtain ⟨-, -, -, -, hahead⟩ := reads_as_list [text, tag] (some fault) [.next]
  obtain ⟨hanswers, -⟩ := reads_as_list [text, tag] (some fault)
    [.peek, .next, .next, .prepend tag, .advance 0, .advance 0, .advance 0, .next]
  exact ⟨hanswers, hlooks, (hahead looks [.next, .next] hlooks).2.2 (.inl (List.cons_ne_nil _ _))⟩

end TokenStream

end TextTemplate
