import TextTemplate.Proofs.Text.Trim
import TextTemplate.Proofs.Token.Prefix

/-!
# Scanning what was put together

Source can be put together from segments: literal texts, and delimited ones with something between their
marks. If no text holds an opening mark or could be taken together with what follows it, and no mark closes a
segment early, scanning gives back the segments, each with its line. A block tag is put together from its name
and its header, with a blank at either side.
-/

namespace TextTemplate

/-- A piece of source: literal text, or what stands between the marks of a delimited token. -/
structure Segment where
  kind : TokenKind
  inner : List Char
  deriving DecidableEq, Repr

namespace Segment

open Lexer

/-- The source of a segment; literal text has no marks. -/
def raw (s : Segment) : List Char := opener s.kind ++ s.inner ++ closer s.kind

/-- The token that a segment on a line is scanned to. -/
def token (s : Segment) (line : Nat) : Token :=
  match s.kind with
  | .text => textToken s.inner line
  | kind => delimitedToken kind s.inner line

/-- The source of segments. -/
def source (segments : List Segment) : List Char := segments.flatMap raw

/-- The tokens of segments, the first of which starts on `line`. -/
def tokensFrom (line : Nat) : List Segment → List Token
  | [] => []
  | s :: rest => s.token line :: tokensFrom (line + newlines s.raw) rest

/-- A text that is not empty and holds no opening mark, or a delimited segment that ends at the first closing
mark. -/
def IsClean (s : Segment) : Prop :=
  match s.kind with
  | .text => s.inner ≠ [] ∧ ∀ kind ≠ .text, ¬ opener kind <:+: s.inner
  | kind => ∀ p r, s.inner ++ closer kind = p ++ closer kind ++ r → r = []

/-- A text is followed by no other text, and what follows it does not complete an opening mark. -/
def Separates (s t : Segment) : Prop := s.kind = .text → t.kind ≠ .text ∧ s.inner.getLast? ≠ some '\x7b'

instance : DecidableRel Separates := fun s t =>
  inferInstanceAs (Decidable (s.kind = .text → t.kind ≠ .text ∧ s.inner.getLast? ≠ some '\x7b'))

/-- Segments that scanning keeps apart. -/
structure Canonical (segments : List Segment) : Prop where
  clean : ∀ s ∈ segments, s.IsClean
  separated : segments.IsChain Separates

@[simp] theorem source_nil : source [] = [] := rfl

@[simp] theorem source_cons (s : Segment) (rest : List Segment) : source (s :: rest) = s.raw ++ source rest := rfl

@[simp] theorem source_append (left right : List Segment) :
    source (left ++ right) = source left ++ source right := List.flatMap_append

@[simp] theorem tokensFrom_nil (line : Nat) : tokensFrom line [] = [] := rfl

@[simp] theorem tokensFrom_cons (line : Nat) (s : Segment) (rest : List Segment) :
    tokensFrom line (s :: rest) = s.token line :: tokensFrom (line + newlines s.raw) rest := rfl

/-- The tokens of a part start on the line that the parts before it end on. -/
@[simp] theorem tokensFrom_append (line : Nat) (left right : List Segment) :
    tokensFrom line (left ++ right) = tokensFrom line left ++ tokensFrom (line + newlines (source left)) right := by
  induction left generalizing line with
  | nil => simp
  | cons s left ih => simp [ih, Nat.add_assoc]

theorem raw_text (s : List Char) : (Segment.mk .text s).raw = s := by simp [raw, opener, closer]

end Segment

namespace Lexer

open Segment

/-- A delimited segment is broken at its own closing mark. -/
theorem breakAt_closer {kind : TokenKind} (hk : kind ≠ .text) {inner : List Char}
    (h : Segment.IsClean ⟨kind, inner⟩) (rest : List Char) :
    Text.breakAt (closer kind) (inner ++ closer kind ++ rest) = some (inner, rest) := by
  have hfirst : ∀ p r, inner ++ closer kind = p ++ closer kind ++ r → r = [] := by
    cases kind
    case text => exact absurd rfl hk
    all_goals exact h
  cases hb : Text.breakAt (closer kind) (inner ++ closer kind ++ rest) with
  | none =>
    have hinfix : closer kind <:+: inner ++ closer kind ++ rest := ⟨inner, rest, rfl⟩
    exact absurd hinfix (Text.breakAt_eq_none_iff.mp hb)
  | some found =>
    obtain ⟨before, after⟩ := found
    -- neither mark comes before the other
    rcases List.append_eq_append_iff.mp (Text.breakAt_append hb) with ⟨x, hx, hafter⟩ | ⟨x, hx, hafter⟩
    · obtain rfl := Text.breakAt_first hb inner x hx
      obtain rfl : before = inner := by simpa using hx
      simpa using hafter.symm
    · obtain rfl := hfirst before x hx
      obtain rfl : inner = before := by simpa using hx
      simpa using hafter

/-- A clean text is taken as a whole, up to the end or to an opening mark that it does not run into. -/
theorem takeText_clean {text rest : List Char} (h : ∀ kind ≠ .text, ¬ opener kind <:+: text)
    (hrest : rest = [] ∨ (opening? rest).isSome ∧ text.getLast? ≠ some '\x7b') :
    takeText (text ++ rest) = (text, rest) := by
  induction text with
  | nil =>
    cases rest with
    | nil => rfl
    | cons c rest =>
      have ho : (opening? (c :: rest)).isSome := by simpa using hrest
      rw [List.nil_append, takeText, if_pos ho]
  | cons c text ih =>
    have ho : opening? (c :: (text ++ rest)) = none := by
      cases hfound : opening? (c :: (text ++ rest)) with
      | none => rfl
      | some found =>
        obtain ⟨hk, hs⟩ := opening?_eq_some_iff.mp hfound
        cases text with
        | nil =>
          rcases hrest with rfl | ⟨-, hlast⟩
          · cases hkind : found.1 <;> simp_all [opener]
          · cases hkind : found.1 <;> simp_all [opener]
        | cons d text =>
          refine absurd ?_ (h found.1 hk)
          have : opener found.1 = [c, d] := by cases hkind : found.1 <;> simp_all [opener]
          exact ⟨[], text, by simp [this]⟩
    have hlater : ∀ kind ≠ .text, ¬ opener kind <:+: text := fun kind hk hinfix =>
      h kind hk (List.infix_cons hinfix)
    have hrest' : rest = [] ∨ (opening? rest).isSome ∧ text.getLast? ≠ some '\x7b' := by
      refine hrest.imp_right (And.imp_right fun hlast => ?_)
      cases text with
      | nil => simp
      | cons d text => simpa using hlast
    rw [List.cons_append, takeText, ho, ih hlater hrest']
    rfl

/-- A delimited segment starts with an opening mark. -/
theorem opening?_raw {s : Segment} (hk : s.kind ≠ .text) (rest : List Char) :
    opening? (s.raw ++ rest) = some (s.kind, s.inner ++ closer s.kind ++ rest) :=
  opening?_eq_some_iff.mpr ⟨hk, by simp [raw]⟩

/-- A clean text is scanned to its token, at the end or in front of an opening mark that it does not run
into. -/
theorem scan_text_append {text rest : List Char} (hne : text ≠ [])
    (hopen : ∀ kind ≠ .text, ¬ opener kind <:+: text)
    (hrest : rest = [] ∨ (opening? rest).isSome ∧ text.getLast? ≠ some '\x7b') (line : Nat) :
    scan (text ++ rest) line = (textToken text line :: (scan rest (line + newlines text)).1,
      (scan rest (line + newlines text)).2) := by
  obtain ⟨c, text, rfl⟩ := List.exists_cons_of_ne_nil hne
  have htake := takeText_clean hopen hrest
  have ho : opening? (c :: (text ++ rest)) = none := by
    rw [List.cons_append, takeText] at htake
    split at htake
    · cases htake
    · rename_i ho
      simpa using ho
  rw [List.cons_append, takeText, ho] at htake
  simp only [Option.isSome_none, Bool.false_eq_true, if_false, Prod.mk.injEq, List.cons.injEq, true_and] at htake
  rw [List.cons_append, scan_text ho, htake.1, htake.2]

/-- A clean delimited segment is scanned to its token, whatever follows. -/
theorem scan_delimited_append {s : Segment} (hk : s.kind ≠ .text) (hclean : s.IsClean) (rest : List Char)
    (line : Nat) : scan (s.raw ++ rest) line =
      (s.token line :: (scan rest (line + newlines s.raw)).1, (scan rest (line + newlines s.raw)).2) := by
  have hlines : newlines s.raw = newlines s.inner := by
    simp [raw, newlines_marks s.kind]
  rw [scan_delimited (opening?_raw hk _) (breakAt_closer hk hclean rest), hlines]
  obtain ⟨kind, inner⟩ := s
  cases kind with
  | text => exact absurd rfl hk
  | _ => rfl

/-- Scanning canonical segments gives back the segments, to the end. -/
theorem scan_source {segments : List Segment} (h : Canonical segments) (line : Nat) :
    scan (source segments) line = (tokensFrom line segments, none) := by
  induction segments generalizing line with
  | nil => simp
  | cons s rest ih =>
    obtain ⟨hclean, hrest⟩ := List.forall_mem_cons.mp h.clean
    obtain ⟨hnext, hchain⟩ := List.isChain_cons.mp h.separated
    have hlater := ih ⟨hrest, hchain⟩
    rw [source_cons, tokensFrom_cons]
    by_cases hk : s.kind = .text
    · obtain ⟨kind, text⟩ := s
      obtain rfl : kind = .text := hk
      obtain ⟨hne, hopen⟩ : text ≠ [] ∧ ∀ kind ≠ TokenKind.text, ¬ opener kind <:+: text := hclean
      have hafter : source rest = [] ∨ (opening? (source rest)).isSome ∧ text.getLast? ≠ some '\x7b' := by
        cases rest with
        | nil => exact .inl rfl
        | cons t rest =>
          obtain ⟨htag, hlast⟩ := hnext t rfl rfl
          exact .inr ⟨by rw [source_cons, opening?_raw htag]; rfl, hlast⟩
      rw [raw_text, scan_text_append hne hopen hafter, hlater]
      rfl
    · rw [scan_delimited_append hk hclean, hlater]

/-! ## Source in front of an opening mark -/

section Append

variable {s after : List Char}

/-- The last character of the second part is that of the whole. -/
theorem getLast?_ne_of_append {c : Char} {before : List Char} (h : (before ++ s).getLast? ≠ some c) :
    s.getLast? ≠ some c := by
  rcases List.eq_nil_or_concat s with rfl | ⟨s, d, rfl⟩
  · simp
  · simpa using h

/-- Text that goes up to the end is all there is. -/
theorem takeText_eq_self (h : (takeText s).2 = []) : (takeText s).1 = s := by
  have happend := takeText_append s
  rwa [h, List.append_nil] at happend

/-- Source that was scanned to its end keeps its tokens in front of an opening mark. -/
theorem scan_append {line : Nat} (hs : (scan s line).2 = none) (hlast : s.getLast? ≠ some '\x7b')
    (hafter : (opening? after).isSome) : scan (s ++ after) line =
      ((scan s line).1 ++ (scan after (line + newlines s)).1, (scan after (line + newlines s)).2) := by
  fun_induction scan s line with
  | case1 => cases hs
  | case2 s line kind inside ho inner rest hb tokens fault heq ih =>
    obtain ⟨hk, rfl⟩ := opening?_eq_some_iff.mp ho
    rw [heq] at ih
    have hsplit : opener kind ++ inside = opener kind ++ (inner ++ closer kind) ++ rest := by
      rw [Text.breakAt_append hb]
      exact (List.append_assoc _ _ _).symm
    have hlines : line + newlines (opener kind ++ inside) = line + newlines inner + newlines rest := by
      obtain ⟨hopen, hclose⟩ := newlines_marks kind
      rw [hsplit, newlines_append, newlines_append, newlines_append, hopen, hclose]
      omega
    have hlater := ih hs (getLast?_ne_of_append (hsplit ▸ hlast))
    rw [scan_delimited (opening?_extend ho after) (Text.breakAt_extend hb after), hlater, hlines]
    rfl
  | case3 line ho => simp
  | case4 line c rest ho text tokens fault heq ih =>
    by_cases hrest : (takeText rest).2 = []
    · rw [hrest, scan_nil] at heq
      obtain ⟨rfl, rfl⟩ : [] = tokens ∧ none = fault := by simpa using heq
      have hopen : ∀ kind ≠ .text, ¬ opener kind <:+: c :: rest := by
        intro kind hk
        have hinfix := not_infix_takeText hk (c :: rest)
        rwa [takeText, ho, Option.isSome_none, if_neg Bool.false_ne_true, takeText_eq_self hrest] at hinfix
      rw [scan_text_append (List.cons_ne_nil c rest) hopen (.inr ⟨hafter, hlast⟩)]
      simp only [text, takeText_eq_self hrest]
      rfl
    · rw [heq] at ih
      have ho' : opening? (c :: (rest ++ after)) = none := by
        cases rest with
        | nil => exact absurd rfl hrest
        | cons d rest => exact opening?_extend_none ho after
      have hsplit : c :: rest = text ++ (takeText rest).2 := by
        rw [List.cons_append, takeText_append]
      have hlater := ih hs (getLast?_ne_of_append (hsplit ▸ hlast))
      rw [List.cons_append, scan_text ho', takeText_extend hrest, hlater, hsplit, newlines_append, Nat.add_assoc]
      rfl

end Append

end Lexer

/-! ## Tags -/

namespace Segment

open Lexer

/-- A delimited segment with a blank at either side of its content. -/
def delimited (kind : TokenKind) (content : String) : Segment := ⟨kind, ' ' :: content.toList ++ [' ']⟩

/-- A block tag with its name and, unless that is empty, its header. -/
def tag (name header : String) : Segment :=
  delimited .block (if header = "" then name else name ++ " " ++ header)

/-- Segments with something in every text and no mark where it would be taken for one. -/
structure Legible (segments : List Segment) : Prop where
  text : ∀ s ∈ segments, s.kind = .text →
    s.inner ≠ [] ∧ ∀ kind ∈ [.variable, .block, .comment], ¬ opener kind <:+: s.inner
  delimited : ∀ s ∈ segments, s.kind ≠ .text → ¬ closer s.kind <:+: s.inner
  separated : segments.IsChain Separates

/-- A delimited segment that ends with a blank ends at its own closing mark. -/
theorem isClean_of_blank {s : Segment} (hk : s.kind ≠ .text) (hmark : ¬ closer s.kind <:+: s.inner)
    (hblank : s.inner.getLast? = some ' ') : s.IsClean := by
  obtain ⟨kind, inner⟩ := s
  obtain ⟨a, b, hcloser, ha⟩ : ∃ a b, closer kind = [a, b] ∧ a ≠ ' ' := by
    cases kind
    case text => exact absurd rfl hk
    all_goals exact ⟨_, _, rfl, by decide⟩
  have hfirst : ∀ p r, inner ++ closer kind = p ++ closer kind ++ r → r = [] := by
    intro p r h
    rcases List.append_eq_append_iff.mp h with ⟨x, hx, hrest⟩ | ⟨x, hx, -⟩
    · rw [hcloser] at hx hrest
      -- the closing mark would have to start with the blank
      match x, hrest with
      | [], _ => exact absurd ⟨p, [], by simpa [hcloser] using hx⟩ hmark
      | [c], hrest =>
        obtain ⟨rfl, -⟩ : a = c ∧ [b] = r := by simpa using hrest
        have hinner : inner = p ++ [a] := by
          have : (p ++ [a]) ++ [b] = inner ++ [a] := by simpa using hx
          exact (List.append_inj' this rfl).1.symm
        rw [hinner] at hblank
        exact absurd (by simpa using hblank) ha
      | c :: d :: x, hrest =>
        obtain ⟨-, -, hnil⟩ : a = c ∧ b = d ∧ [] = x ++ r := by simpa using hrest
        exact (List.append_eq_nil_iff.mp hnil.symm).2
    · exact absurd ⟨p, x, hx.symm⟩ hmark
  cases kind
  case text => exact absurd rfl hk
  all_goals exact hfirst

/-- A text, or a segment with a blank before its closing mark. -/
def IsPadded (s : Segment) : Prop := s.kind ≠ .text → s.inner.getLast? = some ' '

theorem delimited_isPadded (kind : TokenKind) (content : String) :
    (Segment.delimited kind content).IsPadded := by
  intro _
  rw [Segment.delimited, List.getLast?_append_of_ne_nil _ (List.cons_ne_nil ' ' [])]
  rfl

theorem tag_isPadded (name header : String) : (tag name header).IsPadded := delimited_isPadded _ _

/-- Legible segments are kept apart if there is a blank before each closing mark. -/
theorem Legible.canonical {segments : List Segment} (h : Legible segments) (hpadded : ∀ s ∈ segments, s.IsPadded) :
    Canonical segments where
  clean s hs := by
    by_cases hk : s.kind = .text
    · obtain ⟨kind, inner⟩ := s
      obtain rfl : kind = .text := hk
      obtain ⟨hne, hopen⟩ := h.text _ hs rfl
      exact ⟨hne, fun kind hkind => hopen kind (by cases kind <;> simp_all)⟩
    · exact isClean_of_blank hk (h.delimited s hs hk) (hpadded s hs hk)
  separated := h.separated

/-- The blanks are not part of the content. -/
theorem delimited_token (kind : TokenKind) (hk : kind ≠ .text) {content : String}
    (h : Text.Trimmed content.toList) (line : Nat) :
    ((Segment.delimited kind content).token line).kind = kind ∧
      ((Segment.delimited kind content).token line).content = content := by
  have htrim : String.ofList (Text.trim (' ' :: content.toList ++ [' '])) = content := by
    rw [h.trim_padded, String.ofList_toList]
  cases kind
  case text => exact absurd rfl hk
  all_goals exact ⟨rfl, htrim⟩

end Segment

/-- A block tag of a name and a header. -/
structure Token.Heads (t : Token) (name header : String) : Prop where
  kind : t.kind = .block
  tagName : t.tagName = name
  tagContent : t.tagContent = header

theorem Token.Heads.isBlock {t : Token} {name header : String} (h : t.Heads name header) : t.isBlock name := by
  simp [Token.isBlock, h.kind, h.tagName]

/-- A name that a block tag can have. -/
def IsTagName (name : String) : Prop := Text.allOf (!Text.isBlank ·) name.toList = true

instance : DecidablePred IsTagName := fun name =>
  inferInstanceAs (Decidable (Text.allOf (!Text.isBlank ·) name.toList = true))

namespace Segment

/-- A block tag has the name and the header that it was put together from. -/
theorem tag_token {name header : String} (hname : IsTagName name) (hheader : Text.Trimmed header.toList)
    (line : Nat) : ((tag name header).token line).Heads name header := by
  obtain ⟨hne, hblank⟩ : name.toList ≠ [] ∧ ∀ c ∈ name.toList, Text.isBlank c = false := by
    simpa [IsTagName, Text.allOf] using hname
  have htrimmed : Text.Trimmed name.toList :=
    ⟨fun c hc => hblank c (List.mem_of_mem_head? hc), fun c hc => hblank c (List.mem_of_mem_getLast? hc)⟩
  by_cases hempty : header = ""
  · subst hempty
    obtain ⟨hkind, hcontent⟩ := delimited_token .block (by decide) htrimmed line
    have hfirst := Text.firstWord_self hblank
    have hself : tag name "" = Segment.delimited .block name := by simp [tag]
    rw [hself]
    refine ⟨hkind, ?_, ?_⟩
    · rw [Token.tagName, hcontent, hfirst, String.ofList_toList]
    · rw [Token.tagContent, hcontent, hfirst]
      rfl
  · have hself : tag name header = Segment.delimited .block (name ++ " " ++ header) := by simp [tag, hempty]
    have hjoin : (name ++ " " ++ header).toList = name.toList ++ [' '] ++ header.toList := by simp
    have hall : Text.Trimmed (name ++ " " ++ header).toList := by
      rw [hjoin]
      exact htrimmed.append hheader hne (by simpa using hempty) [' ']
    obtain ⟨hkind, hcontent⟩ := delimited_token .block (by decide) hall line
    have hfirst : Text.firstWord (name ++ " " ++ header).toList = (name.toList, ' ' :: header.toList) := by
      rw [hjoin, List.append_assoc]
      exact Text.firstWord_word hblank hne header.toList
    rw [hself]
    refine ⟨hkind, ?_, ?_⟩
    · rw [Token.tagName, hcontent, hfirst, String.ofList_toList]
    · rw [Token.tagContent, hcontent, hfirst, Text.trim_blank, hheader.trim_eq, String.ofList_toList]

/-- A block tag without a header. -/
theorem heads_bare {name : String} (h : IsTagName name) (line : Nat) : ((tag name "").token line).Heads name "" :=
  tag_token h Text.trimmed_empty line

end Segment

end TextTemplate
