import TextTemplate.Proofs.Token.Partition

/-!
# Tokens of a prefix

Source that is cut short has the tokens of the whole source up to the cut. Only the last token may differ: a
literal text that the cut ends early, which may even be the start of an opening mark.
-/

namespace TextTemplate

/-- The first mark in a text is also the first one in whatever the text is the start of. -/
theorem Text.breakAt_extend {mark s before after : List Char} (h : breakAt mark s = some (before, after))
    (r : List Char) : breakAt mark (s ++ r) = some (before, after ++ r) := by
  fun_induction breakAt mark s generalizing before after with
  | case1 hempty =>
    obtain ⟨rfl, rfl⟩ : [] = before ∧ [] = after := by simpa using h
    obtain rfl : mark = [] := by simpa using hempty
    cases r <;> simp [breakAt]
  | case2 => simp at h
  | case3 c rest hmark =>
    obtain ⟨rfl, rfl⟩ : [] = before ∧ List.drop mark.length (c :: rest) = after := by simpa using h
    have hstart := List.isPrefixOf_iff_prefix.mp hmark
    have hmark' : mark.isPrefixOf (c :: (rest ++ r)) = true :=
      List.isPrefixOf_iff_prefix.mpr (hstart.trans (List.prefix_append (c :: rest) r))
    rw [List.cons_append, breakAt, if_pos hmark', ← List.cons_append,
      List.drop_append_of_le_length hstart.length_le]
  | case4 c rest hmark ih =>
    simp only [Option.map_eq_some_iff, Prod.exists, Prod.mk.injEq] at h
    obtain ⟨a, b, hb, rfl, rfl⟩ := h
    have hlength : mark.length ≤ (c :: rest).length := by
      rw [breakAt_append hb]
      simp only [List.length_cons, List.length_append]
      omega
    -- the mark is no longer than what is there, so what follows cannot complete it
    have hmark' : ¬ mark.isPrefixOf (c :: (rest ++ r)) = true := fun hp =>
      hmark (List.isPrefixOf_iff_prefix.mpr (List.prefix_of_prefix_length_le
        (List.isPrefixOf_iff_prefix.mp hp) (List.prefix_append (c :: rest) r) hlength))
    rw [List.cons_append, breakAt, if_neg hmark', ih hb]
    rfl

namespace Lexer

/-! ## One token at a time -/

section Scan

variable {s inside inner after : List Char} {kind : TokenKind}

/-- A delimiter that is closed is the first token. -/
theorem scan_delimited (ho : opening? s = some (kind, inside))
    (hb : Text.breakAt (closer kind) inside = some (inner, after)) (line : Nat) :
    scan s line = (delimitedToken kind inner line :: (scan after (line + newlines inner)).1,
      (scan after (line + newlines inner)).2) := by
  rw [scan]
  split
  · rename_i kind' inside' ho'
    obtain ⟨rfl, rfl⟩ : kind = kind' ∧ inside = inside' := by simpa using ho.symm.trans ho'
    split
    · rename_i hb'
      cases hb.symm.trans hb'
    · rename_i inner' after' hb'
      obtain ⟨rfl, rfl⟩ : inner = inner' ∧ after = after' := by simpa using hb.symm.trans hb'
      rfl
  · rename_i ho'
    cases ho.symm.trans ho'

/-- Text up to the first opening mark is the first token. -/
theorem scan_text {c : Char} {rest : List Char} (ho : opening? (c :: rest) = none) (line : Nat) :
    scan (c :: rest) line = (textToken (c :: (takeText rest).1) line ::
      (scan (takeText rest).2 (line + newlines (c :: (takeText rest).1))).1,
      (scan (takeText rest).2 (line + newlines (c :: (takeText rest).1))).2) := by
  rw [scan]
  split
  · rename_i ho'
    cases ho.symm.trans ho'
  · rfl

@[simp] theorem scan_nil (line : Nat) : scan [] line = ([], none) := by
  rw [scan]
  rfl

end Scan

/-! ## What comes after does not change what comes first -/

/-- An opening mark stays one. -/
theorem opening?_extend {s inside : List Char} {kind : TokenKind} (h : opening? s = some (kind, inside))
    (r : List Char) : opening? (s ++ r) = some (kind, inside ++ r) := by
  obtain ⟨hk, rfl⟩ := opening?_eq_some_iff.mp h
  exact opening?_eq_some_iff.mpr ⟨hk, List.append_assoc _ _ _⟩

/-- Two characters that are no opening mark never become one. -/
theorem opening?_extend_none {b c : Char} {s : List Char} (h : opening? (b :: c :: s) = none) (r : List Char) :
    opening? (b :: c :: (s ++ r)) = none := by
  simp only [opening?] at h ⊢
  split_ifs at h ⊢ with hb
  · rw [Option.map_eq_none_iff] at h ⊢
    exact h
  · rfl

/-- Text that is followed by an opening mark goes up to that mark, whatever comes after it. -/
theorem takeText_extend {s : List Char} (h : (takeText s).2 ≠ []) (r : List Char) :
    takeText (s ++ r) = ((takeText s).1, (takeText s).2 ++ r) := by
  induction s with
  | nil => exact absurd rfl h
  | cons c rest ih =>
    rw [takeText] at h ⊢
    rw [List.cons_append, takeText]
    cases ho : opening? (c :: rest) with
    | some found =>
      obtain ⟨kind, inside⟩ := found
      have ho' : opening? (c :: (rest ++ r)) = _ := opening?_extend ho r
      simp [ho']
    | none =>
      simp only [ho, Option.isSome_none, Bool.false_eq_true, if_false] at h ⊢
      cases rest with
      | nil => exact absurd rfl h
      | cons d rest =>
        have ho' : opening? (c :: (d :: rest ++ r)) = none := opening?_extend_none ho r
        rw [ho', ih h]
        rfl

/-- The tokens of a prefix are tokens of the whole, up to a literal text at the end. -/
theorem scan_extend (s r : List Char) (line : Nat) :
    ∃ common last, (scan s line).1 = common ++ last ∧ common <+: (scan (s ++ r) line).1 ∧
      (last = [] ∨ ∃ t, last = [t] ∧ t.kind = .text) := by
  fun_induction scan s line with
  | case1 => exact ⟨[], [], rfl, List.nil_prefix, .inl rfl⟩
  | case2 s line kind inside ho inner after hb tokens fault heq ih =>
    obtain ⟨common, last, hscan, hstart, hlast⟩ := ih
    rw [heq] at hscan
    refine ⟨delimitedToken kind inner line :: common, last, by simpa using hscan, ?_, hlast⟩
    rw [scan_delimited (opening?_extend ho r) (Text.breakAt_extend hb r)]
    exact List.prefix_cons_inj _ |>.mpr hstart
  | case3 => exact ⟨[], [], rfl, List.nil_prefix, .inl rfl⟩
  | case4 line c rest ho text tokens fault heq ih =>
    by_cases hrest : (takeText rest).2 = []
    · refine ⟨[], [textToken text line], ?_, List.nil_prefix, .inr ⟨_, rfl, rfl⟩⟩
      rw [hrest, scan_nil] at heq
      obtain rfl : [] = tokens := congrArg Prod.fst heq
      rfl
    · obtain ⟨common, last, hscan, hstart, hlast⟩ := ih
      rw [heq] at hscan
      have ho' : opening? (c :: (rest ++ r)) = none := by
        cases rest with
        | nil => exact absurd rfl hrest
        | cons d rest => exact opening?_extend_none ho r
      refine ⟨textToken text line :: common, last, by simpa using hscan, ?_, hlast⟩
      rw [List.cons_append, scan_text ho', takeText_extend hrest]
      exact List.prefix_cons_inj _ |>.mpr hstart

end Lexer

end TextTemplate
