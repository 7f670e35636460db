import TextTemplate.Proofs.Compile.Ending
import TextTemplate.Proofs.Compile.HostTag

/-!
# Compiling in front of more tokens

Some computations of the compiler, once they succeed, would have succeeded in the same way with any other
tokens behind those that there were: they have not seen the end of the tokens, and have put back no more
tokens than they had taken. The standard tags are of this kind. Only bounds on the number of rounds grow with
the tokens that are left, so what is shown of a computation is that another one, with more rounds, does the
same in front of more tokens.
-/

namespace TextTemplate

namespace Session

/-- The session with more tokens after those of its source, and another failure after them. -/
def extend (s : Session) (more : List Token) (fault : Option CompileError) : Session :=
  { s with stream := { s.stream with source := s.stream.source ++ more, fault := fault } }

end Session

namespace CompileM

variable {α β : Type} {held n n' : Nat} {m m' : CompileM α} {f f' : α → CompileM β}

/-- Wherever `m` succeeds, with `held` tokens in hand that can be put back, `m'` has the same answer in front of
any more tokens, and leaves these as they are. -/
def CarriesOver (held : Nat) (m m' : CompileM α) : Prop :=
  ∀ s a s', m s = .ok a s' → s'.stream.unread.length ≤ s.stream.unread.length + held ∧
    ∀ more fault, m' (s.extend more fault) = .ok a (s'.extend more fault)

/-- Wherever the computation succeeds, it does the same in front of any more tokens. -/
def Conclusive (m : CompileM α) : Prop := CarriesOver 0 m m

/-- A computation that never succeeds has nothing to carry over. -/
theorem carriesOver_of_fails (h : ∀ s a s', m s ≠ .ok a s') : CarriesOver held m m' :=
  fun s a s' hm => absurd hm (h s a s')

theorem carriesOver_pure (a : α) : CarriesOver held (pure a) (pure a) := by
  intro s b s' h
  cases h
  exact ⟨Nat.le_add_right _ _, fun _ _ => rfl⟩

theorem throw_ne_ok (e : CompileError) (s : Session) (a : α) (s' : Session) :
    (throw e : CompileM α) s ≠ .ok a s' := by
  change EStateM.Result.error e s ≠ .ok a s'
  nofun

theorem carriesOver_throw (e : CompileError) : CarriesOver held (throw e : CompileM α) m' :=
  carriesOver_of_fails (throw_ne_ok e)

theorem carriesOver_ofResult (r : Except CompileError α) : CarriesOver held (ofResult r) (ofResult r) := by
  cases r with
  | ok a => exact carriesOver_pure a
  | error e => exact carriesOver_throw e

theorem CarriesOver.bind (h : CarriesOver 0 m m') (hf : ∀ a, CarriesOver held (f a) (f' a)) :
    CarriesOver held (m >>= f) (m' >>= f') := by
  intro s b s' hrun
  rw [run_bind] at hrun
  cases hm : m s with
  | error e s₁ =>
    rw [hm] at hrun
    cases hrun
  | ok a s₁ =>
    rw [hm] at hrun
    obtain ⟨hlength, hmore⟩ := h s a s₁ hm
    obtain ⟨hlength', hmore'⟩ := hf a s₁ b s' hrun
    exact ⟨by omega, fun more fault => (run_bind_ok (hmore more fault)).trans (hmore' more fault)⟩

theorem CarriesOver.atLine (line : Nat) (h : CarriesOver held m m') :
    CarriesOver held (atLine line m) (atLine line m') := by
  intro s a s' hrun
  cases hm : m s with
  | error e s₁ => simp [CompileM.atLine, hm] at hrun
  | ok b s₁ =>
    obtain ⟨rfl, rfl⟩ : b = a ∧ s₁ = s' := by simpa [CompileM.atLine, hm] using hrun
    obtain ⟨hlength, hmore⟩ := h s b s₁ hm
    exact ⟨hlength, fun more fault => by rw [CompileM.atLine, hmore]⟩

theorem CarriesOver.withOpenTag (t : Token) (h : CarriesOver held m m') :
    CarriesOver held (withOpenTag t m) (withOpenTag t m') := by
  intro s a s' hrun
  rw [CompileM.withOpenTag] at hrun
  cases hm : m { s with openTags := t :: s.openTags } with
  | error e s₁ => simp [hm] at hrun
  | ok b s₁ =>
    obtain ⟨rfl, rfl⟩ : b = a ∧ { s₁ with openTags := s.openTags } = s' := by simpa [hm] using hrun
    obtain ⟨hlength, hmore⟩ := h _ b s₁ hm
    refine ⟨hlength, fun more fault => ?_⟩
    have hopen : m' { s.extend more fault with openTags := t :: (s.extend more fault).openTags } =
      .ok b (s₁.extend more fault) := hmore more fault
    rw [CompileM.withOpenTag, hopen]
    rfl

/-! ## Reading -/

/-- A token that could be taken can be taken, and is then in hand. -/
theorem next_extend {s s' : Session} {t : Token} (h : next s = .ok t s') :
    s'.stream.unread.length + 1 = s.stream.unread.length ∧
      ∀ more fault, next (s.extend more fault) = .ok t (s'.extend more fault) := by
  rcases s with ⟨⟨_ | ⟨p, pending⟩, _ | ⟨q, source⟩, _ | e, last⟩, active, openTags⟩ <;> cases h <;>
    exact ⟨by simp [TokenStream.unread], fun _ _ => rfl⟩

theorem carriesOver_next {f f' : Token → CompileM α} (h : ∀ t, CarriesOver (held + 1) (f t) (f' t)) :
    CarriesOver held (next >>= f) (next >>= f') := by
  intro s a s' hrun
  rw [run_bind] at hrun
  cases hnext : next s with
  | error e s₁ =>
    rw [hnext] at hrun
    cases hrun
  | ok t s₁ =>
    rw [hnext] at hrun
    obtain ⟨hlength, hmore⟩ := next_extend hnext
    obtain ⟨hlength', hmore'⟩ := h t s₁ a s' hrun
    exact ⟨by omega, fun more fault => (run_bind_ok (hmore more fault)).trans (hmore' more fault)⟩

theorem conclusive_deleteNext : Conclusive deleteNext := by
  rw [deleteNext_eq]
  exact carriesOver_next fun _ => carriesOver_pure ()

end CompileM

open CompileM

/-- What a handle offers is conclusive; a body must be one that ends at a tag. -/
structure Handle.Conclusive (h : Handle) : Prop where
  parse : ∀ stop ≠ [], CompileM.Conclusive (h.parse stop)
  load : ∀ name, CompileM.Conclusive (h.load name)
  filters : CompileM.Conclusive h.filters
  callTag : ∀ name content, CompileM.Conclusive (h.callTag name content)

/-- A tag is conclusive wherever the compiler is. -/
def TagFactory.Conclusive (factory : TagFactory) : Prop :=
  ∀ content (h : Handle), h.Conclusive → CompileM.Conclusive (factory content h)

namespace Handle.Conclusive

variable {h : Handle} (hh : h.Conclusive)
include hh

theorem expression (source : String) : CompileM.Conclusive (h.expression source) :=
  hh.filters.bind fun _ => carriesOver_ofResult _

theorem expressions (sources : List String) : CompileM.Conclusive (h.expressions sources) := by
  induction sources with
  | nil => exact carriesOver_pure []
  | cons source rest ih => exact (hh.expression source).bind fun _ => ih.bind fun _ => carriesOver_pure _

theorem bodyUpTo (endTag : String) : CompileM.Conclusive (h.bodyUpTo endTag) :=
  (hh.parse _ (List.cons_ne_nil _ _)).bind fun _ => conclusive_deleteNext.bind fun _ => carriesOver_pure _

end Handle.Conclusive

/-! ## The standard tags -/

namespace StandardTag

variable {h : Handle} (hh : h.Conclusive) {held n n' : Nat}

include hh

end StandardTag

end TextTemplate
