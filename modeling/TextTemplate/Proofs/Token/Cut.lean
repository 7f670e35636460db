import TextTemplate.Proofs.Token.Segments

/-!
# Source that is cut in two

A place in source is outside every tag if no delimited token goes across it. It is then a place within a text or
between two tokens, so that what stands before it and what stands after it fall into segments of their own, and
there is room for a comment between them.
-/

namespace TextTemplate

namespace Segment

open Lexer

variable {segments before after left right : List Segment} {a b : List Char}

/-! ## Texts that may be empty -/

/-- A text as segments: there is none where there is no text. -/
def texts (s : List Char) : List Segment := if s = [] then [] else [⟨.text, s⟩]

@[simp] theorem texts_nil : texts [] = [] := rfl

theorem texts_of_ne_nil (h : a ≠ []) : texts a = [⟨.text, a⟩] := if_neg h

@[simp] theorem source_texts (s : List Char) : source (texts s) = s := by
  by_cases h : s = []
  · rw [h]
    rfl
  · rw [texts_of_ne_nil h, source_cons, raw_text, source_nil, List.append_nil]

/-- Source of canonical segments has the tokens of the segments. -/
theorem tokens_of_source (h : Canonical segments) {s : String} (hs : s.toList = source segments) :
    Lexer.tokens s = (tokensFrom 1 segments, none) := by
  rw [Lexer.tokens, hs, scan_source h]

/-! ## Cuts between segments and within them -/

/-- Where the source of segments is cut in two, it is cut between two segments or within one. -/
theorem exists_cut {s r : List Char} (h : source segments = s ++ r) :
    (∃ before after, segments = before ++ after ∧ s = source before ∧ r = source after) ∨
      ∃ before t after x y, segments = before ++ t :: after ∧ t.raw = x ++ y ∧ x ≠ [] ∧ y ≠ [] ∧
        s = source before ++ x ∧ r = y ++ source after := by
  induction segments generalizing s with
  | nil =>
    obtain ⟨rfl, rfl⟩ : s = [] ∧ r = [] := by simpa using h.symm
    exact .inl ⟨[], [], rfl, rfl, rfl⟩
  | cons t rest ih =>
    rw [source_cons] at h
    rcases List.append_eq_append_iff.mp h with ⟨x, rfl, hrest⟩ | ⟨x, hraw, rfl⟩
    · rcases ih hrest with ⟨before, after, rfl, rfl, rfl⟩ | ⟨before, u, after, x, y, rfl, hu, hx, hy, rfl, rfl⟩
      · exact .inl ⟨t :: before, after, rfl, rfl, rfl⟩
      · exact .inr ⟨t :: before, u, after, x, y, rfl, hu, hx, hy, (List.append_assoc _ _ _).symm, rfl⟩
    · by_cases hs : s = []
      · exact .inl ⟨[], t :: rest, rfl, hs, by rw [source_cons, hraw, hs, List.nil_append]⟩
      · by_cases hx : x = []
        · refine .inl ⟨[t], rest, rfl, ?_, ?_⟩
          · rw [source_cons, source_nil, hraw, hx, List.append_nil, List.append_nil]
          · rw [hx, List.nil_append]
        · exact .inr ⟨[], t, rest, s, x, rfl, hraw, hs, hx, rfl, rfl⟩

theorem canonical_append_iff : Canonical (left ++ right) ↔
    Canonical left ∧ Canonical right ∧ ∀ s ∈ left.getLast?, ∀ t ∈ right.head?, Separates s t := by
  simp only [canonical_iff, List.forall_mem_append, List.isChain_append]
  tauto

/-- Both parts of a clean text are clean, if there is something in them. -/
theorem canonical_texts_of_append (h : Canonical (texts (a ++ b))) : Canonical (texts a) ∧ Canonical (texts b) := by
  have hpart {part : List Char} (hpart : part <:+: a ++ b) : Canonical (texts part) := by
    by_cases hne : part = []
    · rw [hne]
      exact ⟨by simp, by simp⟩
    · have hwhole : a ++ b ≠ [] := fun hnil => hne (List.infix_nil.mp (hnil ▸ hpart))
      rw [texts_of_ne_nil hwhole] at h
      obtain ⟨-, hopen⟩ : a ++ b ≠ [] ∧ ∀ kind ≠ TokenKind.text, ¬ opener kind <:+: a ++ b :=
        h.clean _ (List.mem_singleton_self _)
      rw [texts_of_ne_nil hne]
      refine ⟨fun s hs => ?_, by simp⟩
      obtain rfl := List.mem_singleton.mp hs
      exact ⟨hne, fun kind hk hmark => hopen kind hk (hmark.trans hpart)⟩
  exact ⟨hpart (List.infix_append [] a b), hpart (List.suffix_append a b).isInfix⟩

section Canonical

variable (h : Canonical (before ++ texts (a ++ b) ++ after))

include h

/-- The segments up to a place within a text are canonical. -/
theorem Canonical.take : Canonical (before ++ texts a) := by
  obtain ⟨hleft, -, -⟩ := canonical_append_iff.mp h
  obtain ⟨hbefore, htext, hseam⟩ := canonical_append_iff.mp hleft
  refine canonical_append_iff.mpr ⟨hbefore, (canonical_texts_of_append htext).1, fun s hs t ht => ?_⟩
  by_cases ha : a = []
  · simp [ha] at ht
  · -- what stands before a text is no text, wherever that text ends
    rw [texts_of_ne_nil (List.append_ne_nil_of_left_ne_nil ha b)] at hseam
    exact fun hk => absurd rfl (hseam s hs _ rfl hk).1

/-- So are the segments after it. -/
theorem Canonical.drop : Canonical (texts b ++ after) := by
  rw [List.append_assoc] at h
  obtain ⟨-, hright, -⟩ := canonical_append_iff.mp h
  obtain ⟨htext, hafter, hseam⟩ := canonical_append_iff.mp hright
  refine canonical_append_iff.mpr ⟨(canonical_texts_of_append htext).2, hafter, fun s hs t ht _ => ?_⟩
  by_cases hb : b = []
  · simp [hb] at hs
  · rw [texts_of_ne_nil hb] at hs
    rw [texts_of_ne_nil (List.append_ne_nil_of_right_ne_nil a hb)] at hseam
    obtain rfl : ⟨.text, b⟩ = s := by simpa using hs
    obtain ⟨htag, hlast⟩ := hseam _ rfl t ht rfl
    exact ⟨htag, getLast?_ne_of_append hlast⟩

end Canonical

/-! ## Room for a comment -/

/-- A comment ends at its own closing mark, if there is none in it. -/
theorem isClean_comment {inner : List Char} (h : ¬ closer .comment <:+: inner) : IsClean ⟨.comment, inner⟩ := by
  intro p r hp
  rcases List.append_eq_append_iff.mp hp with ⟨x, hx, hrest⟩ | ⟨x, hx, -⟩
  · match x, hrest with
    | [], _ => exact absurd ⟨p, [], by simpa using hx⟩ h
    | [c], hrest =>
      obtain ⟨rfl, -⟩ : '#' = c ∧ ['\x7d'] = r := by simpa [closer] using hrest
      -- the mark would end in the character that it starts with
      simpa [closer] using congrArg List.getLast? hx
    | c :: d :: x, hrest =>
      obtain ⟨-, -, hnil⟩ : '#' = c ∧ '\x7d' = d ∧ [] = x ++ r := by simpa [closer] using hrest
      exact (List.append_eq_nil_iff.mp hnil.symm).2
  · exact absurd ⟨p, x, hx.symm⟩ h

/-- A delimited segment is kept apart from canonical segments on either side, unless the text before it runs into its
opening mark. -/
theorem Canonical.insert {s : Segment} (hleft : Canonical left) (hright : Canonical right) (hs : s.IsClean)
    (hk : s.kind ≠ .text) (hlast : (source left).getLast? ≠ some '\x7b') : Canonical (left ++ s :: right) := by
  have hself : Canonical (s :: right) := canonical_cons_iff.mpr ⟨hs, hright, fun _ _ htext => absurd htext hk⟩
  refine canonical_append_iff.mpr ⟨hleft, hself, fun u hu t ht htext => ?_⟩
  obtain rfl : s = t := by simpa using ht
  obtain ⟨_, inner⟩ := u
  obtain rfl : _ = TokenKind.text := htext
  obtain ⟨first, rfl⟩ := List.getLast?_eq_some_iff.mp hu
  rw [source_append, source_cons, raw_text, source_nil, List.append_nil] at hlast
  exact ⟨hk, getLast?_ne_of_append hlast⟩

/-- Delimited segments can stand in the place of any segment. -/
theorem Canonical.replace {s : Segment} {tags : List Segment} (h : Canonical (left ++ s :: right)) (hne : tags ≠ [])
    (htags : ∀ t ∈ tags, t.IsClean ∧ t.kind ≠ .text) : Canonical (left ++ (tags ++ right)) := by
  obtain ⟨hleft, hself, hseam⟩ := canonical_append_iff.mp h
  obtain ⟨-, hright, -⟩ := canonical_cons_iff.mp hself
  have hrest : Canonical (tags ++ right) := by
    clear hne
    induction tags with
    | nil => exact hright
    | cons t tags ih =>
      obtain ⟨⟨hclean, hk⟩, hlater⟩ := List.forall_mem_cons.mp htags
      exact canonical_cons_iff.mpr ⟨hclean, ih hlater, fun _ _ htext => absurd htext hk⟩
  refine canonical_append_iff.mpr ⟨hleft, hrest, fun u hu t ht htext => ?_⟩
  rw [List.head?_append_of_ne_nil _ hne] at ht
  exact ⟨(htags t (List.mem_of_mem_head? ht)).2, (hseam u hu s rfl htext).2⟩

end Segment

namespace Lexer

open Segment

/-! ## Text in front of source -/

/-- The tokens of source are those of the text that it starts with, and then those from its first opening mark on. -/
theorem scan_takeText (s : List Char) (line : Nat) :
    scan s line = (tokensFrom line (texts (takeText s).1) ++
        (scan (takeText s).2 (line + newlines (takeText s).1)).1,
      (scan (takeText s).2 (line + newlines (takeText s).1)).2) := by
  cases s with
  | nil => simp [takeText]
  | cons c rest =>
    cases ho : opening? (c :: rest) with
    | some found => simp [takeText, ho]
    | none =>
      rw [scan_text ho]
      simp [takeText, ho, texts, token]

/-- Text without a brace adds to the text that comes after it. -/
theorem takeText_append_of_notMem {text : List Char} (h : '\x7b' ∉ text) (s : List Char) :
    takeText (text ++ s) = (text ++ (takeText s).1, (takeText s).2) := by
  induction text with
  | nil => rfl
  | cons c text ih =>
    obtain ⟨hc, htext⟩ : '\x7b' ≠ c ∧ '\x7b' ∉ text := by simpa using h
    have ho : opening? (c :: (text ++ s)) = none := by
      cases hfound : opening? (c :: (text ++ s)) with
      | none => rfl
      | some found =>
        obtain ⟨inside, hinside⟩ := exists_brace_of_opening? hfound
        exact absurd (List.cons.inj hinside).1.symm hc
    rw [List.cons_append, takeText, ho, ih htext]
    rfl

/-! ## Places outside every tag -/

/-- No delimited token of `left ++ right` goes across the place between the two: each ends before it or starts after
it. -/
def CutsNoTag (left right : String) : Prop :=
  ∀ i (h : i < (tokens (left ++ right)).1.length), (tokens (left ++ right)).1[i].kind ≠ .text →
    rawText ((tokens (left ++ right)).1.take (i + 1)) <+: left.toList ∨
      left.toList <+: rawText ((tokens (left ++ right)).1.take i)

instance (left right : String) : Decidable (CutsNoTag left right) := Nat.decidableBallLT _ _

/-- A delimited token lies on one side of such a place. -/
theorem CutsNoTag.side {left right : String} (h : CutsNoTag left right) {before after : List Token} {t : Token}
    (htokens : (tokens (left ++ right)).1 = before ++ t :: after) (hk : t.kind ≠ .text) :
    rawText (before ++ [t]) <+: left.toList ∨ left.toList <+: rawText before := by
  have hside := h before.length (by simp [htokens])
  have htake : (before ++ t :: after).take (before.length + 1) = before ++ [t] := by
    rw [List.take_append, List.take_of_length_le (Nat.le_succ _), Nat.add_sub_cancel_left, List.take_one]
    rfl
  simp only [htokens, List.getElem_append_right (Nat.le_refl _), Nat.sub_self, List.getElem_cons_zero, htake,
    List.take_left'] at hside
  exact hside hk

theorem rawText_tokensFrom (line : Nat) (segments : List Segment) :
    rawText (tokensFrom line segments) = source segments := by
  induction segments generalizing line with
  | nil => rfl
  | cons s rest ih => simp [token_raw, ih]

/-- A place outside every tag is within a text, which may be empty, between other segments. -/
theorem CutsNoTag.exists_segments {left right : String} (h : CutsNoTag left right)
    (hscan : (tokens (left ++ right)).2 = none) : ∃ before a b after, left.toList = source before ++ a ∧
      right.toList = b ++ source after ∧ Canonical (before ++ texts (a ++ b) ++ after) := by
  obtain ⟨segments, hcanonical, hsource, -⟩ := exists_canonical_of_scan hscan
  have htokens := congrArg Prod.fst (tokens_of_source hcanonical hsource.symm)
  rw [String.toList_append] at hsource
  rcases exists_cut hsource with ⟨before, after, rfl, hl, hr⟩ | ⟨before, t, after, x, y, rfl, hraw, hx, hy, hl, hr⟩
  · exact ⟨before, [], [], after, by simpa using hl, hr, by simpa using hcanonical⟩
  · have htext : t.kind = .text := by
      by_contra hk
      rw [tokensFrom_append, tokensFrom_cons] at htokens
      have hside := h.side htokens (by rwa [token_kind])
      rw [rawText_append, rawText_tokensFrom, hl, rawText_cons, token_raw, String.toList_ofList, hraw] at hside
      have hlx := List.length_pos_iff.mpr hx
      have hly := List.length_pos_iff.mpr hy
      rcases hside with hends | hstarts
      · have hlength := hends.length_le
        simp only [List.length_append, rawText_nil, List.append_nil] at hlength
        omega
      · have hlength := hstarts.length_le
        simp only [List.length_append] at hlength
        omega
    obtain ⟨_, inner⟩ := t
    obtain rfl : _ = TokenKind.text := htext
    rw [raw_text] at hraw
    refine ⟨before, x, y, after, hl, hr, ?_⟩
    rw [← hraw, texts_of_ne_nil (by simp [hraw, hx]), List.append_assoc]
    exact hcanonical

end Lexer

end TextTemplate
