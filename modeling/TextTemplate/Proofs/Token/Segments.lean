import TextTemplate.Proofs.Token.Relex

/-!
# Source and its segments

Putting canonical segments together and scanning undo each other. The source of canonical segments is scanned to
just these segments, without failure, and all source that is scanned without failure is put together from canonical
segments, in one way only. Whether a segment is clean can be told by scanning it on its own.
-/

namespace TextTemplate

namespace Lexer

variable {s : List Char}

/-- A text is taken as a whole exactly if it holds no opening mark. -/
theorem takeText_eq_nil_iff : (takeText s).2 = [] ↔ ∀ kind ≠ .text, ¬ opener kind <:+: s := by
  constructor
  · intro h kind hk
    have hinfix := not_infix_takeText hk s
    rwa [takeText_eq_self h] at hinfix
  · intro h
    have htake := takeText_clean h (.inl rfl)
    rw [List.append_nil] at htake
    rw [htake]

/-- Every opening mark starts with a brace. -/
theorem exists_brace_of_opening? {found : TokenKind × List Char} (h : opening? s = some found) :
    ∃ inside, s = '\x7b' :: inside := by
  obtain ⟨hk, rfl⟩ := opening?_eq_some_iff.mp h
  cases hkind : found.1
  case text => exact absurd hkind hk
  all_goals exact ⟨_, rfl⟩

/-- Text in front of an opening mark does not end in a brace: that would have made an earlier mark. -/
theorem takeText_getLast?_ne (h : (takeText s).2 ≠ []) : (takeText s).1.getLast? ≠ some '\x7b' := by
  induction s with
  | nil => exact absurd rfl h
  | cons c rest ih =>
    cases ho : opening? (c :: rest) with
    | some found => simp [takeText, ho]
    | none =>
      simp only [takeText, ho, Option.isSome_none, Bool.false_eq_true, if_false] at h ⊢
      cases htext : (takeText rest).1 with
      | cons d text =>
        rw [List.getLast?_cons_cons, ← htext]
        exact ih h
      | nil =>
        have hrest : (takeText rest).2 = rest := by simpa [htext] using takeText_append rest
        obtain ⟨found, hfound⟩ := Option.isSome_iff_exists.mp ((takeText_rest rest).resolve_left h)
        rw [hrest] at hfound
        intro hc
        obtain rfl : c = '\x7b' := by simpa using hc
        -- two braces in a row are an opening mark themselves
        obtain ⟨inside, rfl⟩ := exists_brace_of_opening? hfound
        cases ho

end Lexer

namespace Segment

open Lexer

variable {inner : List Char} {kind : TokenKind} {segments : List Segment}

/-- A text is clean exactly if there is something in it and all of it is taken as text. -/
theorem isClean_text_iff : IsClean ⟨.text, inner⟩ ↔ inner ≠ [] ∧ (takeText inner).2 = [] :=
  and_congr_right fun _ => takeText_eq_nil_iff.symm

/-- A delimited segment is clean exactly if it is broken at its own closing mark. -/
theorem isClean_delimited_iff (hk : kind ≠ .text) :
    IsClean ⟨kind, inner⟩ ↔ Text.breakAt (closer kind) (inner ++ closer kind) = some (inner, []) := by
  constructor
  · intro h
    simpa using breakAt_closer hk h []
  · intro h
    have hfirst := Text.breakAt_first h
    cases kind
    case text => exact absurd rfl hk
    all_goals exact hfirst

instance : DecidablePred IsClean := fun ⟨kind, _⟩ =>
  if hk : kind = .text then decidable_of_iff' _ (hk ▸ isClean_text_iff)
  else decidable_of_iff' _ (isClean_delimited_iff hk)

/-- There is something in every clean segment. -/
theorem IsClean.raw_ne_nil {s : Segment} (h : s.IsClean) : s.raw ≠ [] := by
  obtain ⟨kind, inner⟩ := s
  cases kind with
  | text => simpa [raw_text] using h.1
  | _ => simp [raw, opener]

theorem canonical_iff : Canonical segments ↔ (∀ s ∈ segments, s.IsClean) ∧ segments.IsChain Separates :=
  ⟨fun h => ⟨h.clean, h.separated⟩, fun h => ⟨h.1, h.2⟩⟩

/-- A segment in front of canonical ones. -/
theorem canonical_cons_iff {s : Segment} {rest : List Segment} :
    Canonical (s :: rest) ↔ s.IsClean ∧ Canonical rest ∧ ∀ t ∈ rest.head?, Separates s t := by
  simp only [canonical_iff, List.forall_mem_cons, List.isChain_cons]
  tauto

instance : DecidablePred Canonical := fun _ => decidable_of_iff' _ canonical_iff

theorem token_kind (s : Segment) (line : Nat) : (s.token line).kind = s.kind := by
  obtain ⟨kind, inner⟩ := s
  cases kind <;> rfl

theorem token_raw (s : Segment) (line : Nat) : (s.token line).raw = String.ofList s.raw := by
  obtain ⟨kind, inner⟩ := s
  cases kind with
  | text => rw [raw_text]; rfl
  | _ => rfl

/-- The tokens of segments have their kinds and their sources. -/
theorem tokensFrom_map (line : Nat) (segments : List Segment) :
    (tokensFrom line segments).map (fun t => (t.kind, t.raw)) =
      segments.map fun s => (s.kind, String.ofList s.raw) := by
  induction segments generalizing line with
  | nil => rfl
  | cons s rest ih => simp [token_kind, token_raw, ih]

/-- A segment is known by its kind and its source. -/
theorem kind_raw_injective : Function.Injective fun s : Segment => (s.kind, String.ofList s.raw) := by
  rintro ⟨kind, inner⟩ ⟨kind', inner'⟩ h
  obtain ⟨rfl, hraw⟩ : kind = kind' ∧ raw ⟨kind, inner⟩ = raw ⟨kind', inner'⟩ := by
    simpa [String.ofList_inj] using h
  have hinner : opener kind ++ inner = opener kind ++ inner' := List.append_cancel_right hraw
  rw [List.append_cancel_left hinner]

/-- The source of canonical segments is scanned to its end, and falls into just these segments in order, each on the
line that it starts on. -/
theorem tokens_of_canonical (h : Canonical segments) :
    Lexer.tokens (String.ofList (source segments)) = (tokensFrom 1 segments, none) ∧
      (tokensFrom 1 segments).map (fun t => (t.kind, t.raw)) =
        segments.map fun s => (s.kind, String.ofList s.raw) := by
  refine ⟨?_, tokensFrom_map 1 segments⟩
  rw [Lexer.tokens, String.toList_ofList]
  exact scan_source h 1

/-- Segments whose marks overlap with each other and with what stands between them. -/
def crowded : List Segment :=
  [⟨.text, "a\x7d".toList⟩, ⟨.variable, "\x7b".toList⟩, ⟨.block, "%".toList⟩, ⟨.comment, "\x7d\n%\x7d".toList⟩,
    ⟨.text, "%\x7d\x7d\x7b".toList⟩]

/-- They are kept apart all the same. -/
theorem tokens_of_canonical_crowded : Canonical crowded ∧
    Lexer.tokens "a\x7d\x7b\x7b\x7b\x7d\x7d\x7b%%%\x7d\x7b#\x7d\n%\x7d#\x7d%\x7d\x7d\x7b" =
      ([⟨.text, "a\x7d", 1, "a\x7d"⟩, ⟨.variable, "\x7b", 1, "\x7b\x7b\x7b\x7d\x7d"⟩,
        ⟨.block, "%", 1, "\x7b%%%\x7d"⟩, ⟨.comment, "\x7d\n%\x7d", 1, "\x7b#\x7d\n%\x7d#\x7d"⟩,
        ⟨.text, "%\x7d\x7d\x7b", 2, "%\x7d\x7d\x7b"⟩], none) := by
  have hcanonical : Canonical crowded := by decide
  have hscan := (tokens_of_canonical hcanonical).1
  exact ⟨hcanonical, hscan⟩

end Segment

namespace Lexer

open Segment

/-- Source that is scanned to its end is put together from canonical segments, and starts with a text only where no
opening mark stands. -/
theorem exists_canonical_of_scan {s : List Char} {line : Nat} (h : (scan s line).2 = none) :
    ∃ segments, Canonical segments ∧ source segments = s ∧
      ∀ t ∈ segments.head?, t.kind = .text → opening? s = none := by
  fun_induction scan s line with
  | case1 => cases h
  | case2 s line kind inside ho inner after hb tokens fault heq ih =>
    obtain ⟨hk, rfl⟩ := opening?_eq_some_iff.mp ho
    obtain ⟨segments, hcanonical, hsource, -⟩ := ih (by rwa [heq])
    have hclean : IsClean ⟨kind, inner⟩ := by
      have hfirst := Text.breakAt_first hb
      cases kind
      case text => exact absurd rfl hk
      all_goals exact hfirst
    have hcons : Canonical (⟨kind, inner⟩ :: segments) :=
      canonical_cons_iff.mpr ⟨hclean, hcanonical, fun _ _ htext => absurd htext hk⟩
    refine ⟨_, hcons, ?_, ?_⟩
    · rw [source_cons, hsource, Text.breakAt_append hb]
      simp [raw]
    · rintro t ⟨⟩ htext
      exact absurd htext hk
  | case3 line ho => exact ⟨[], ⟨by simp, by simp⟩, rfl, by simp⟩
  | case4 line c rest ho text tokens fault heq ih =>
    obtain ⟨segments, hcanonical, hsource, hhead⟩ := ih (by rwa [heq])
    have htake : takeText (c :: rest) = (text, (takeText rest).2) := by
      rw [takeText, ho]
      rfl
    have hclean : IsClean ⟨.text, text⟩ := by
      refine ⟨List.cons_ne_nil _ _, fun kind hk => ?_⟩
      have hinfix := not_infix_takeText hk (c :: rest)
      rwa [htake] at hinfix
    have hnext : ∀ t ∈ segments.head?, Separates ⟨.text, text⟩ t := by
      intro t ht _
      obtain ⟨later, rfl⟩ : ∃ later, segments = t :: later := by simpa [List.head?_eq_some_iff] using ht
      have hne : (takeText rest).2 ≠ [] := by
        rw [← hsource, source_cons]
        exact List.append_ne_nil_of_left_ne_nil (hcanonical.clean t List.mem_cons_self).raw_ne_nil _
      have hmark := (takeText_rest rest).resolve_left hne
      refine ⟨fun htext => ?_, ?_⟩
      · rw [hhead t ht htext] at hmark
        cases hmark
      · have hlast := takeText_getLast?_ne (s := c :: rest) (by rwa [htake])
        rwa [htake] at hlast
    refine ⟨_, canonical_cons_iff.mpr ⟨hclean, hcanonical, hnext⟩, ?_, fun _ _ _ => ho⟩
    rw [source_cons, raw_text, hsource]
    exact congrArg (c :: ·) (takeText_append rest)

end Lexer

/-- Source that is scanned without failure is put together from canonical segments in exactly one way. -/
theorem Segment.existsUnique_canonical {s : String} (h : (Lexer.tokens s).2 = none) :
    ∃! segments, Canonical segments ∧ String.ofList (source segments) = s := by
  obtain ⟨segments, hcanonical, hsource, -⟩ := Lexer.exists_canonical_of_scan h
  refine ⟨segments, ⟨hcanonical, by rw [hsource, String.ofList_toList]⟩, fun others hothers => ?_⟩
  obtain ⟨hcanonical', rfl⟩ := hothers
  rw [String.toList_ofList] at hsource
  have hscan := Lexer.scan_source hcanonical 1
  rw [hsource, Lexer.scan_source hcanonical' 1] at hscan
  have htokens : tokensFrom 1 others = tokensFrom 1 segments := congrArg Prod.fst hscan
  have hmap := tokensFrom_map 1 others
  rw [htokens, tokensFrom_map] at hmap
  exact (List.map_injective_iff.mpr kind_raw_injective hmap).symm

end TextTemplate
