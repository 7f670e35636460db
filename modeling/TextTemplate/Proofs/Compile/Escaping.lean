import TextTemplate.Node.Render
import TextTemplate.Proofs.Node.RoundTrip
import TextTemplate.Proofs.Token.Marks

/-!
# Writing any text

Every text can be written by a template, also one that is template source itself: each opening brace is written by a
`templatetag` tag, and everything else stands for itself. No mark can start without an opening brace, so between the
tags there is only text, whatever it holds, and each tag ends at its own closing mark.
-/

namespace TextTemplate

open Grammar Segment

/-- The tag that writes an opening brace. -/
def braceTag : Segment := tag "templatetag" "openbrace"

/-- What stands for a character in the source: the tag for an opening brace, and for any other character itself. -/
def escapedChar (c : Char) : List Char := if c = '\x7b' then "\x7b% templatetag openbrace %\x7d".toList else [c]

/-- The source that writes a text: a tag in place of each opening brace. -/
def escaped (s : String) : String := String.ofList (s.toList.flatMap escapedChar)

/-- Segments that write a text: tags for its opening braces, and the texts between them. -/
inductive Writes : List Segment → List Char → Prop
  | nil : Writes [] []
  | text {inner rest s} (hne : inner ≠ []) (hbrace : '\x7b' ∉ inner) (later : Writes rest s)
    (apart : ∀ t ∈ rest.head?, t.kind ≠ .text) : Writes (⟨.text, inner⟩ :: rest) (inner ++ s)
  | brace {rest s} (later : Writes rest s) : Writes (braceTag :: rest) ('\x7b' :: s)

variable {segments : List Segment} {s : List Char}

theorem braceTag_raw : braceTag.raw = "\x7b% templatetag openbrace %\x7d".toList := tag_raw (by decide)

theorem exists_writes (s : List Char) : ∃ segments, Writes segments s := by
  induction s with
  | nil => exact ⟨[], .nil⟩
  | cons c s ih =>
    obtain ⟨segments, hs⟩ := ih
    by_cases hc : c = '\x7b'
    · subst hc
      exact ⟨_, .brace hs⟩
    · have hbrace : '\x7b' ∉ [c] := by simpa using Ne.symm hc
      -- the character goes to the text that the rest starts with, if it starts with one
      cases hs with
      | nil => exact ⟨_, .text (by simp) hbrace .nil (by simp)⟩
      | brace later => exact ⟨_, .text (by simp) hbrace (.brace later) (by simp [braceTag, tag, delimited])⟩
      | @text inner rest s hne hinner later apart =>
        exact ⟨⟨.text, c :: inner⟩ :: rest, .text (by simp) (by simpa using ⟨Ne.symm hc, hinner⟩) later apart⟩

namespace Writes

/-- Put together, the segments are the source that writes the text. -/
theorem source_eq (h : Writes segments s) : source segments = s.flatMap escapedChar := by
  induction h with
  | nil => rfl
  | @text inner rest s _ hbrace _ _ ih =>
    have hsame : ∀ c ∈ inner, escapedChar c = [c] := fun c hc => if_neg (ne_of_mem_of_not_mem hc hbrace)
    rw [source_cons, raw_text, List.flatMap_append, List.flatMap_congr hsame, List.flatMap_singleton', ih]
  | brace _ ih =>
    rw [source_cons, braceTag_raw, List.flatMap_cons, ih]
    rfl

/-- A text without an opening brace holds no opening mark. -/
theorem isClean_of_brace {inner : List Char} (hne : inner ≠ []) (hbrace : '\x7b' ∉ inner) : IsClean ⟨.text, inner⟩ := by
  refine ⟨hne, fun kind hk hwithin => hbrace (hwithin.subset ?_)⟩
  cases kind
  case text => exact absurd rfl hk
  all_goals exact List.mem_cons_self

/-- The segments are those that the source falls into. -/
theorem canonical (h : Writes segments s) : Canonical segments := by
  induction h with
  | nil => exact ⟨by simp, by simp⟩
  | @text inner rest s hne hbrace _ apart ih =>
    refine canonical_cons_iff.mpr ⟨isClean_of_brace hne hbrace, ih, fun t ht _ => ⟨apart t ht, fun hlast => ?_⟩⟩
    exact hbrace (List.mem_of_mem_getLast? hlast)
  | brace _ ih =>
    have hclean : braceTag.IsClean := tag_isClean (by decide) (by decide)
    exact canonical_cons_iff.mpr ⟨hclean, ih, fun _ _ htext => absurd htext TokenKind.noConfusion⟩

/-- Wherever they start, the segments are derived as nodes that write the text and do nothing else. -/
theorem body {env : Environment} {base : List Nat} (hbase : env.HasStandardTags base) (room : Nat)
    (h : Writes segments s) (line : Nat) :
    ∃ nodes, Body env (room + 1) base (tokensFrom line segments) nodes base ∧
      Node.renderAll nodes = pure (String.ofList s) := by
  induction h generalizing line with
  | nil => exact ⟨[], .nil, by rw [Node.renderAll]⟩
  | @text inner rest s _ _ _ _ ih =>
    obtain ⟨nodes, hbody, hrender⟩ := ih (line + Lexer.newlines (Segment.raw ⟨.text, inner⟩))
    refine ⟨.text (String.ofList inner) :: nodes, .text rfl hbody, ?_⟩
    rw [Node.renderAll, Node.render_text, hrender, String.ofList_append]
    simp
  | @brace rest s _ ih =>
    obtain ⟨nodes, hbody, hrender⟩ := ih (line + Lexer.newlines braceTag.raw)
    have htrimmed : Text.Trimmed "openbrace".toList := by decide
    obtain ⟨hopens, hcontent⟩ := Tree.opens_tag hbase .symbol htrimmed line
    have hread : HeaderReader.symbol ((braceTag.token line).tagContent) = .ok "\x7b" := by
      rw [show (braceTag.token line).tagContent = "openbrace" from hcontent]
      decide +kernel
    have hblock : Block env (Body env room) base [braceTag.token line] (some (.text "\x7b")) base :=
      .symbol hopens hread
    refine ⟨.text "\x7b" :: nodes, .block hblock hbody, ?_⟩
    have hcons : String.ofList ('\x7b' :: s) = "\x7b" ++ String.ofList s := @String.ofList_append ['\x7b'] s
    rw [Node.renderAll, Node.render_text, hrender, hcons]
    simp

end Writes

/-- Every text is written by the template that has a tag in place of each opening brace of the text: the template
compiles, and whatever the context is, it renders to exactly that text and does nothing else. -/
theorem compile_escaped {env : Environment} {base : List Nat} (henv : env.StandardTagsOnly)
    (hbase : env.HasStandardTags base) (s : String) :
    ∃ nodes, env.compile base (escaped s) = .ok nodes ∧ ∀ state, Node.renderAll nodes state = .ok s state := by
  obtain ⟨segments, hwrites⟩ := exists_writes s.toList
  obtain ⟨nodes, hbody, hrender⟩ := hwrites.body hbase 63 1
  rw [String.ofList_toList] at hrender
  refine ⟨nodes, ?_, fun state => by rw [hrender]; rfl⟩
  rw [compile_eq_ok_iff henv, escaped, ← hwrites.source_eq, Lexer.tokens, String.toList_ofList,
    Lexer.scan_source hwrites.canonical 1]
  exact ⟨rfl, base, hbody⟩

/-- A text of tags, marks that are never closed and closing marks without an opening one. -/
def entangledText : String :=
  "\x7b\x7b%\x7d\x7b% if x %\x7d\x7b\x7b x \x7d\x7d\x7b# y\n#\x7d%\x7d\x7b% endverbatim\x7b\x7b"

theorem compile_escaped_entangled : (Environment.standard .latest).StandardTagsOnly ∧
    (Environment.standard .latest).HasStandardTags [0, 1] ∧
      ∃ nodes, (Environment.standard .latest).compile [0, 1] (escaped entangledText) = .ok nodes ∧
        ∀ state, Node.renderAll nodes state = .ok entangledText state := by
  have henv := Environment.standard_standardTagsOnly .latest
  have hbase := Environment.standard_hasStandardTags .latest
  exact ⟨henv, hbase, compile_escaped henv hbase _⟩

end TextTemplate
