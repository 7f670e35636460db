import TextTemplate.Proofs.Token.Segments

/-!
# Closing marks in joined text

A mark of two characters in a text that was put together is in one of the parts, unless it lies across a seam. So a tag
that is put together from a name and a header ends at its own closing mark if the header holds none.
-/

namespace TextTemplate

namespace Text

variable {a b c : Char} {p r s t : List Char}

/-- A mark of two characters does not reach into a text that does not hold the first of them. -/
theorem infix_of_infix_append_left (ha : a ∉ p) (h : [a, b] <:+: p ++ s) : [a, b] <:+: s := by
  induction p with
  | nil => exact h
  | cons c p ih =>
    obtain ⟨hc, hp⟩ : a ≠ c ∧ a ∉ p := by simpa using ha
    rcases List.infix_cons_iff.mp h with hprefix | hinfix
    · exact absurd (List.cons_prefix_cons.mp hprefix).1 hc
    · exact ih hp hinfix

/-- A mark of two characters does not reach into a text that does not hold the second of them. -/
theorem infix_of_infix_append_right (hb : b ∉ r) (h : [a, b] <:+: s ++ r) : [a, b] <:+: s := by
  induction s with
  | nil => exact absurd (h.subset (by simp)) hb
  | cons c s ih =>
    rcases List.infix_cons_iff.mp h with hprefix | hinfix
    · obtain ⟨rfl, hrest⟩ := List.cons_prefix_cons.mp hprefix
      cases s with
      | nil => exact absurd (hrest.subset (by simp)) hb
      | cons d s =>
        obtain ⟨rfl, -⟩ := List.cons_prefix_cons.mp hrest
        exact ⟨[], s, by simp⟩
    · exact (ih hinfix).trans (List.suffix_cons c s).isInfix

/-- A mark of two characters does not reach across a text that holds neither. -/
theorem infix_or_infix_of_append (ha : a ∉ r) (hb : b ∉ r) (hr : r ≠ []) (h : [a, b] <:+: s ++ r ++ t) :
    [a, b] <:+: s ∨ [a, b] <:+: t := by
  induction s with
  | nil => exact .inr (infix_of_infix_append_left ha h)
  | cons c s ih =>
    rcases List.infix_cons_iff.mp h with hprefix | hinfix
    · left
      obtain ⟨rfl, hrest⟩ := List.cons_prefix_cons.mp hprefix
      cases s with
      | nil =>
        obtain ⟨d, r, rfl⟩ := List.exists_cons_of_ne_nil hr
        obtain ⟨rfl, -⟩ := List.cons_prefix_cons.mp hrest
        exact absurd List.mem_cons_self hb
      | cons d s =>
        obtain ⟨rfl, -⟩ := List.cons_prefix_cons.mp hrest
        exact ⟨[], s, by simp⟩
    · exact (ih hinfix).imp_left fun hs => hs.trans (List.suffix_cons c s).isInfix

end Text

namespace Segment

open Lexer

/-- The raw text of a tag with a header. -/
theorem tag_raw {name header : String} (h : header ≠ "") :
    (tag name header).raw = ("\x7b% " ++ name ++ " " ++ header ++ " %\x7d").toList := by
  simp [tag, delimited, raw, opener, closer, h]

/-- The raw text of a tag without a header. -/
theorem tag_raw_bare (name : String) : (tag name "").raw = ("\x7b% " ++ name ++ " %\x7d").toList := by
  simp [tag, delimited, raw, opener, closer]

/-- A tag ends at its own closing mark, if there is none in its header. -/
theorem tag_isClean {name header : String} (hname : '%' ∉ name.toList) (hheader : ¬ closer .block <:+: header.toList) :
    (tag name header).IsClean := by
  have hkind : (tag name header).kind ≠ .text := TokenKind.noConfusion
  refine isClean_of_blank hkind (fun hmark => hheader ?_) (tag_isPadded name header hkind)
  by_cases hempty : header = ""
  · have hinner : (tag name header).inner = (' ' :: name.toList) ++ [' '] := by simp [tag, delimited, hempty]
    have hnone : '%' ∉ (' ' :: name.toList) ++ [' '] := by simpa using hname
    rw [hinner] at hmark
    exact absurd (hmark.subset (by simp [tag, delimited, closer])) hnone
  · have hinner : (tag name header).inner = (' ' :: name.toList ++ [' ']) ++ (header.toList ++ [' ']) := by
      simp [tag, delimited, hempty]
    rw [hinner] at hmark
    exact Text.infix_of_infix_append_right (by decide)
      (Text.infix_of_infix_append_left (by simpa using hname) hmark)

/-- The header of a block tag is within the tag, so there is no closing mark in it. -/
theorem IsClean.unmarked_tagContent {s : Segment} (h : s.IsClean) {line : Nat} (hkind : (s.token line).kind = .block) :
    ¬ closer .block <:+: (s.token line).tagContent.toList := by
  obtain ⟨kind, inner⟩ := s
  obtain rfl : kind = .block := by rwa [token_kind] at hkind
  intro hmark
  have hheader : ((Segment.token ⟨.block, inner⟩ line).tagContent).toList <:+: inner := by
    have hself : ((Segment.token ⟨.block, inner⟩ line).tagContent).toList =
        Text.trim (Text.firstWord (Text.trim inner)).2 := by
      simp [token, delimitedToken, Token.tagContent]
    rw [hself]
    exact ((Text.trim_isInfix _).trans (Text.firstWord_isSuffix _).isInfix).trans (Text.trim_isInfix _)
  obtain ⟨before, after, hinner⟩ := hmark.trans hheader
  have hnil : after ++ closer .block = [] := h before (after ++ closer .block) (by simp [← hinner])
  exact absurd (List.append_eq_nil_iff.mp hnil).2 (by decide)

end Segment

end TextTemplate
