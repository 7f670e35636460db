import Mathlib.Data.List.Chain
import Mathlib.Data.List.Infix
import TextTemplate.Token.Lexer

/-!
# Source falls into tokens

The raw texts of the tokens, in order, and what is left after the last one make up the source. Literal text
holds no opening mark and is never cut in two; a delimited token ends at the first closing mark after its
opening one; and every token knows the line on which it starts. Something is left only when a delimiter is
never closed: the rest then starts with its opening mark, and the failure names the line of that mark.
-/

namespace TextTemplate

namespace Text

/-- Breaking at a mark loses nothing. -/
theorem breakAt_append {mark s before after : List Char} (h : breakAt mark s = some (before, after)) :
    s = before ++ mark ++ after := by
  fun_induction breakAt mark s generalizing before after with
  | case1 => simp_all
  | case2 => simp at h
  | case3 c rest hmark =>
    obtain ⟨rfl, rfl⟩ : [] = before ∧ List.drop mark.length (c :: rest) = after := by simpa using h
    exact (List.prefix_iff_eq_append.mp (List.isPrefixOf_iff_prefix.mp hmark)).symm
  | case4 c rest _ ih =>
    simp only [Option.map_eq_some_iff, Prod.exists, Prod.mk.injEq] at h
    obtain ⟨a, b, hb, rfl, rfl⟩ := h
    rw [ih hb]
    rfl

/-- The mark that a text is broken at is its first one: before it and within it there is no other. -/
theorem breakAt_first {mark s before after : List Char} (h : breakAt mark s = some (before, after))
    (p r : List Char) (hp : before ++ mark = p ++ mark ++ r) : r = [] := by
  fun_induction breakAt mark s generalizing before after p with
  | case1 =>
    obtain ⟨rfl, rfl⟩ : [] = before ∧ [] = after := by simpa using h
    simp_all
  | case2 => simp at h
  | case3 c rest hmark =>
    obtain ⟨rfl, rfl⟩ : [] = before ∧ List.drop mark.length (c :: rest) = after := by simpa using h
    have hlen := congrArg List.length hp
    simp only [List.length_append, List.nil_append] at hlen
    exact List.length_eq_zero_iff.mp (by omega)
  | case4 c rest hmark ih =>
    simp only [Option.map_eq_some_iff, Prod.exists, Prod.mk.injEq] at h
    obtain ⟨a, b, hb, rfl, rfl⟩ := h
    cases p with
    | nil =>
      -- a mark at the very start would have been found at once
      refine absurd (List.isPrefixOf_iff_prefix.mpr ⟨r ++ b, ?_⟩) hmark
      rw [breakAt_append hb, ← List.append_assoc, show mark ++ r = c :: a ++ mark by simpa using hp.symm]
      rfl
    | cons x p => exact ih hb p (by simpa using (List.cons.inj hp).2)

/-- A text is not broken exactly when the mark does not occur in it. -/
theorem breakAt_eq_none_iff {mark s : List Char} : breakAt mark s = none ↔ ¬ mark <:+: s := by
  fun_induction breakAt mark s with
  | case1 h => simp_all
  | case2 h => simp_all
  | case3 c rest hmark =>
    simpa using (List.isPrefixOf_iff_prefix.mp hmark).isInfix
  | case4 c rest hmark ih =>
    rw [Option.map_eq_none_iff, ih, List.infix_cons_iff, not_or]
    exact ⟨fun h => ⟨fun hp => hmark (List.isPrefixOf_iff_prefix.mpr hp), h⟩, And.right⟩

end Text

namespace Lexer

/-- The source of a list of tokens. -/
def rawText (tokens : List Token) : List Char := tokens.flatMap fun t => t.raw.toList

@[simp] theorem rawText_nil : rawText [] = [] := rfl

@[simp] theorem rawText_cons (t : Token) (tokens : List Token) :
    rawText (t :: tokens) = t.raw.toList ++ rawText tokens := rfl

@[simp] theorem rawText_append (left right : List Token) :
    rawText (left ++ right) = rawText left ++ rawText right := List.flatMap_append

/-- Lines that end in a text end in one of its parts. -/
@[simp] theorem newlines_append (s t : List Char) : newlines (s ++ t) = newlines s + newlines t :=
  List.count_append

@[simp] theorem newlines_nil : newlines [] = 0 := rfl

/-- Neither mark of a delimiter ends a line. -/
theorem newlines_marks (kind : TokenKind) : newlines (opener kind) = 0 ∧ newlines (closer kind) = 0 := by
  cases kind <;> decide

/-- A character after a brace starts a token of some kind exactly when the two are its opening mark. -/
theorem kindAfterBrace?_eq_some_iff {c : Char} {kind : TokenKind} :
    kindAfterBrace? c = some kind ↔ kind ≠ .text ∧ opener kind = ['\x7b', c] := by
  unfold kindAfterBrace?
  cases kind <;> (split_ifs <;> simp_all [opener] <;> grind)

/-- Delimited tokens start exactly at the opening marks. -/
theorem opening?_eq_some_iff {s inside : List Char} {kind : TokenKind} :
    opening? s = some (kind, inside) ↔ kind ≠ .text ∧ s = opener kind ++ inside := by
  fun_cases opening? s with
  | case1 b c inside' hb =>
    obtain rfl : b = '\x7b' := by simpa using hb
    simp only [Option.map_eq_some_iff, Prod.mk.injEq, kindAfterBrace?_eq_some_iff]
    constructor
    · rintro ⟨kind', ⟨hk, ho⟩, rfl, rfl⟩
      exact ⟨hk, by rw [ho]; rfl⟩
    · rintro ⟨hk, hs⟩
      refine ⟨kind, ⟨hk, ?_⟩, rfl, ?_⟩ <;> cases kind <;> simp_all [opener]
  | case2 b c inside' hb => cases kind <;> simp_all [opener]
  | case3 s hs =>
    simp only [reduceCtorEq, false_iff, not_and]
    rintro hk rfl
    cases kind <;> simp_all [opener]

/-- Where no delimited token starts, the text starts with no opening mark. -/
theorem not_prefix_of_opening?_eq_none {s : List Char} {kind : TokenKind} (h : opening? s = none)
    (hk : kind ≠ .text) : ¬ opener kind <+: s := by
  rintro ⟨inside, rfl⟩
  rw [opening?_eq_some_iff.mpr ⟨hk, rfl⟩] at h
  exact Option.some_ne_none _ h

/-- Literal text holds no opening mark. -/
theorem not_infix_takeText {kind : TokenKind} (hk : kind ≠ .text) (s : List Char) :
    ¬ opener kind <:+: (takeText s).1 := by
  induction s with
  | nil => cases kind <;> simp_all [takeText, opener]
  | cons c rest ih =>
    rw [takeText]
    split
    · cases kind <;> simp_all [opener]
    · rename_i ho
      rw [List.infix_cons_iff, not_or]
      refine ⟨fun hp => ?_, ih⟩
      have hpre : c :: (takeText rest).1 <+: c :: rest :=
        ⟨(takeText rest).2, by rw [List.cons_append, takeText_append]⟩
      exact not_prefix_of_opening?_eq_none (by simpa using ho) hk (hp.trans hpre)

/-- After literal text comes an opening mark or the end. -/
theorem takeText_rest (s : List Char) : (takeText s).2 = [] ∨ (opening? (takeText s).2).isSome := by
  induction s with
  | nil => exact .inl rfl
  | cons c rest ih =>
    rw [takeText]
    split
    · rename_i ho
      exact .inr ho
    · exact ih

end Lexer

/-- A token as it is cut from source: literal text without an opening mark, or what stands between an opening
mark and the first closing mark after it. -/
def Token.IsCut (t : Token) : Prop :=
  match t.kind with
  | .text => t.raw ≠ "" ∧ t.content = t.raw ∧ ∀ kind ≠ .text, ¬ Lexer.opener kind <:+: t.raw.toList
  | kind => ∃ inner, t.raw.toList = Lexer.opener kind ++ inner ++ Lexer.closer kind ∧
      (∀ p r, inner ++ Lexer.closer kind = p ++ Lexer.closer kind ++ r → r = []) ∧
      t.content = String.ofList (Text.trim inner)

namespace Lexer

/-- Text that starts with no opening mark is cut as a whole. -/
theorem textToken_isCut {c : Char} {rest : List Char} (h : opening? (c :: rest) = none) (line : Nat) :
    (textToken (c :: (takeText rest).1) line).IsCut := by
  refine ⟨by simp [textToken, String.ofList_eq_empty_iff], rfl, fun kind hk => ?_⟩
  rw [textToken, String.toList_ofList]
  have := not_infix_takeText hk (c :: rest)
  rwa [takeText, h] at this

/-- What stands before the first closing mark is cut as one token. -/
theorem delimitedToken_isCut {kind : TokenKind} (hk : kind ≠ .text) {inside inner after : List Char}
    (h : Text.breakAt (closer kind) inside = some (inner, after)) (line : Nat) :
    (delimitedToken kind inner line).IsCut := by
  have hcut : ∃ inner', (delimitedToken kind inner line).raw.toList = opener kind ++ inner' ++ closer kind ∧
      (∀ p r, inner' ++ closer kind = p ++ closer kind ++ r → r = []) ∧
      (delimitedToken kind inner line).content = String.ofList (Text.trim inner') :=
    ⟨inner, by simp [delimitedToken], Text.breakAt_first h, rfl⟩
  cases kind
  case text => exact absurd rfl hk
  all_goals exact hcut

/-- Tokens and a rest that make up the source `s`, of which the first token starts on `line`. -/
structure Partitions (s : List Char) (line : Nat) (tokens : List Token) (fault : Option CompileError)
    (rest : List Char) : Prop where
  lossless : rawText tokens ++ rest = s
  isCut : ∀ t ∈ tokens, t.IsCut
  maximal : tokens.IsChain fun t u => t.kind = .text → u.kind ≠ .text
  line_eq : ∀ before t after, tokens = before ++ t :: after → t.line = line + newlines (rawText before)
  rest_eq_nil : fault = none → rest = []
  fault_iff : ∀ e, fault = some e ↔ ∃ kind ≠ .text, ∃ inside, rest = opener kind ++ inside ∧
    ¬ closer kind <:+: inside ∧ e = unclosed kind (line + newlines (rawText tokens))

/-- No source, no tokens. -/
theorem partitions_nil (line : Nat) : Partitions [] line [] none [] where
  lossless := rfl
  isCut := by simp
  maximal := by simp
  line_eq := by simp
  rest_eq_nil _ := rfl
  fault_iff e := by
    simp only [reduceCtorEq, ne_eq, false_iff, not_exists, not_and]
    intro kind hk inside h
    cases kind <;> simp_all [opener]

/-- A delimiter that is never closed leaves everything from its opening mark on. -/
theorem partitions_unclosed {kind : TokenKind} (hk : kind ≠ .text) {inside : List Char}
    (h : ¬ closer kind <:+: inside) (line : Nat) :
    Partitions (opener kind ++ inside) line [] (some (unclosed kind line)) (opener kind ++ inside) where
  lossless := rfl
  isCut := by simp
  maximal := by simp
  line_eq := by simp
  rest_eq_nil := by simp
  fault_iff e := by
    rw [Option.some.injEq]
    constructor
    · rintro rfl
      exact ⟨kind, hk, inside, rfl, h, by simp⟩
    · rintro ⟨kind', hk', inside', hs, -, rfl⟩
      have hk₁ : opening? (opener kind ++ inside) = some (kind, inside) :=
        opening?_eq_some_iff.mpr ⟨hk, rfl⟩
      rw [opening?_eq_some_iff.mpr ⟨hk', hs⟩] at hk₁
      obtain ⟨rfl, -⟩ : kind' = kind ∧ inside' = inside := by simpa using hk₁
      simp

/-- A token in front of a partition, unless it would put two literal texts side by side. -/
theorem Partitions.cons {t : Token} {after rest : List Char} {tokens : List Token}
    {fault : Option CompileError}
    (h : Partitions after (t.line + newlines t.raw.toList) tokens fault rest) (ht : t.IsCut)
    (hne : ∀ u ∈ tokens.head?, t.kind = .text → u.kind ≠ .text) :
    Partitions (t.raw.toList ++ after) t.line (t :: tokens) fault rest where
  lossless := by rw [rawText_cons, List.append_assoc, h.lossless]
  isCut := by simpa using ⟨ht, h.isCut⟩
  maximal := List.isChain_cons.mpr ⟨hne, h.maximal⟩
  line_eq before u later hu := by
    cases before with
    | nil =>
      obtain rfl : t = u := (List.cons.inj hu).1
      simp
    | cons x before =>
      obtain ⟨rfl, hsplit⟩ : t = x ∧ tokens = before ++ u :: later := by simpa using hu
      rw [h.line_eq before u later hsplit, rawText_cons, newlines_append, Nat.add_assoc]
  rest_eq_nil := h.rest_eq_nil
  fault_iff e := by rw [h.fault_iff e, rawText_cons, newlines_append, Nat.add_assoc]

/-- Source that starts with an opening mark, or is empty, has no literal text first. -/
theorem scan_head_ne_text {s : List Char} (h : s = [] ∨ (opening? s).isSome) (line : Nat) :
    ∀ t ∈ (scan s line).1.head?, t.kind ≠ .text := by
  intro t ht
  rw [scan] at ht
  split at ht
  · rename_i kind inside ho
    split at ht
    · simp at ht
    · obtain rfl : delimitedToken kind _ line = t := by simpa using ht
      exact (opening?_eq_some_iff.mp ho).1
  · rename_i ho
    rcases h with rfl | h
    · simp at ht
    · simp [ho] at h

/-- Scanning partitions its source. -/
theorem scan_partitions (s : List Char) (line : Nat) :
    ∃ rest, Partitions s line (scan s line).1 (scan s line).2 rest := by
  fun_induction scan s line with
  | case1 s line kind inside ho hb =>
    obtain ⟨hk, rfl⟩ := opening?_eq_some_iff.mp ho
    exact ⟨_, partitions_unclosed hk (Text.breakAt_eq_none_iff.mp hb) line⟩
  | case2 s line kind inside ho inner after hb tokens fault heq ih =>
    obtain ⟨hk, rfl⟩ := opening?_eq_some_iff.mp ho
    obtain ⟨rest, hrest⟩ := ih
    refine ⟨rest, ?_⟩
    have hmarks := newlines_marks kind
    have hraw : (delimitedToken kind inner line).raw.toList = opener kind ++ inner ++ closer kind := by
      simp [delimitedToken]
    have hafter : Partitions after ((delimitedToken kind inner line).line +
        newlines (delimitedToken kind inner line).raw.toList) tokens fault rest := by
      rw [hraw]
      simpa [delimitedToken, hmarks, heq] using hrest
    have hcons := hafter.cons (delimitedToken_isCut hk hb line) (fun _ _ h => absurd h hk)
    rw [hraw] at hcons
    rw [Text.breakAt_append hb]
    simpa [delimitedToken] using hcons
  | case3 line ho => exact ⟨[], partitions_nil line⟩
  | case4 line c rest ho text tokens fault heq ih =>
    obtain ⟨left, hleft⟩ := ih
    refine ⟨left, ?_⟩
    have hraw : (textToken text line).raw.toList = text := by simp [textToken]
    have hhead := scan_head_ne_text (takeText_rest rest) (line + newlines text)
    rw [heq] at hhead
    have hafter : Partitions (takeText rest).2 ((textToken text line).line +
        newlines (textToken text line).raw.toList) tokens fault left := by
      rw [hraw]
      simpa [textToken, heq] using hleft
    have hcons := hafter.cons (textToken_isCut ho line) (fun u hu _ => hhead u hu)
    rw [hraw] at hcons
    have hs : text ++ (takeText rest).2 = c :: rest := by
      rw [List.cons_append, takeText_append]
    rwa [hs] at hcons

end Lexer

end TextTemplate
