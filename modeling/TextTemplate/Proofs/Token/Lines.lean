import Mathlib.Data.List.Forall2
import Mathlib.Data.Option.Basic
import TextTemplate.Proofs.Token.Prefix

/-!
# Tokens on other lines

Source has the same tokens wherever it starts, only on other lines. Which line belongs to which is left open, as a
relation between lines: it may say that one is so many lines further down, or nothing at all.
-/

namespace TextTemplate

/-- The same token on another line, where `L` relates the lines. -/
structure Token.Moved (L : Nat → Nat → Prop) (t t' : Token) : Prop where
  kind_eq : t'.kind = t.kind
  content_eq : t'.content = t.content
  raw_eq : t'.raw = t.raw
  lines : L t.line t'.line

/-- The same failure on another line, where `L` relates the lines. -/
inductive CompileError.Moved (L : Nat → Nat → Prop) : CompileError → CompileError → Prop
  | mk (cause : CompileCause) {n n' : Nat} (lines : L n n') : Moved L ⟨cause, some n⟩ ⟨cause, some n'⟩

variable {L : Nat → Nat → Prop} {t t' : Token}

namespace Token.Moved

theorem tagName_eq (h : t.Moved L t') : t'.tagName = t.tagName := by rw [tagName, h.content_eq, tagName]

theorem tagContent_eq (h : t.Moved L t') : t'.tagContent = t.tagContent := by
  rw [tagContent, h.content_eq, tagContent]

/-- A token stays where it is. -/
theorem refl (hL : ∀ n, L n n) (t : Token) : t.Moved L t := ⟨rfl, rfl, rfl, hL t.line⟩

end Token.Moved

namespace Lexer

/-- A delimiter that is never closed ends the tokens. -/
theorem scan_unclosed {s inside : List Char} {kind : TokenKind} (ho : opening? s = some (kind, inside))
    (hb : Text.breakAt (closer kind) inside = none) (line : Nat) : scan s line = ([], some (unclosed kind line)) := by
  rw [scan]
  split
  · rename_i kind' inside' ho'
    obtain ⟨rfl, rfl⟩ : kind = kind' ∧ inside = inside' := by simpa using ho.symm.trans ho'
    split
    · rfl
    · rename_i hb'
      cases hb.symm.trans hb'
  · rename_i ho'
    cases ho.symm.trans ho'

/-- Source that starts on another line has the same tokens and the same failure after them, each on the line that its
own is related to. -/
theorem scan_moved (s : List Char) {line line' : Nat} (hL : ∀ n, L (line + n) (line' + n)) :
    List.Forall₂ (Token.Moved L) (scan s line).1 (scan s line').1 ∧
      Option.Rel (CompileError.Moved L) (scan s line).2 (scan s line').2 := by
  fun_induction scan s line generalizing line' with
  | case1 s line kind inside ho hb =>
    rw [scan_unclosed ho hb]
    exact ⟨.nil, .some (.mk _ (hL 0))⟩
  | case2 s line kind inside ho inner after hb tokens fault heq ih =>
    have hinner (n : Nat) : L (line + newlines inner + n) (line' + newlines inner + n) := by
      simpa only [Nat.add_assoc] using hL (newlines inner + n)
    have hlater := ih hinner
    rw [heq] at hlater
    rw [scan_delimited ho hb]
    exact ⟨.cons ⟨rfl, rfl, rfl, hL 0⟩ hlater.1, hlater.2⟩
  | case3 line ho =>
    rw [scan_nil]
    exact ⟨.nil, .none⟩
  | case4 =>
    rename_i line c rest ho text tokens fault heq ih
    have htext (n : Nat) : L (line + newlines text + n) (line' + newlines text + n) := by
      simpa only [Nat.add_assoc] using hL (newlines text + n)
    have hlater := ih htext
    rw [heq] at hlater
    rw [scan_text ho]
    exact ⟨.cons ⟨rfl, rfl, rfl, hL 0⟩ hlater.1, hlater.2⟩

end Lexer

end TextTemplate
