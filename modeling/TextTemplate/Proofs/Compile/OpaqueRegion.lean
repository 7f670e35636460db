import TextTemplate.Proofs.Compile.Resolution
import TextTemplate.Proofs.Token.Relex

/-!
# Source that is kept from the compiler

What stands between the opening and the end tag of `comment` or `verbatim` is cut into tokens, and that is all:
`comment` drops it, and `verbatim` puts the tokens together again, which gives back the source as one text. No
library is asked for anything in it, and compiling goes on with the token after the end tag. The inside may be
any source that can be cut into tokens, so long as none of them is the end tag and its last character does not
run into the mark of the end tag.
-/

namespace TextTemplate

open CompileM
open JournalM (journal_bind entries_bind quietly_bind_ok)

namespace Directive

def endTag (d : Directive) : String := "end" ++ d.name

/-- Source between the opening tag and the end tag of a directive. -/
def enclose (d : Directive) (inside : String) : String :=
  "\x7b% " ++ d.name ++ " %\x7d" ++ inside ++ "\x7b% " ++ d.endTag ++ " %\x7d"

/-- What a directive that keeps its inside from the compiler makes of it. -/
def kept (d : Directive) (inside : String) : Option Node := if d = verbatim then some (.text inside) else none

theorem isTagName_of_isOpaque {d : Directive} (hd : d.isOpaque = true) : IsTagName d.name ∧ IsTagName d.endTag := by
  cases d with
  | comment | verbatim => decide
  | _ => cases hd

end Directive

/-! ## The tokens of the region -/

namespace Lexer

open Segment

/-- A block tag of a name alone is scanned to one token, whatever follows. -/
theorem scan_tag_append {name : String} (hmark : ¬ closer .block <:+: (tag name "").inner)
    (hlines : newlines (tag name "").raw = 0) (rest : List Char) (line : Nat) :
    scan ((tag name "").raw ++ rest) line = ((tag name "").token line :: (scan rest line).1, (scan rest line).2) := by
  have hblock : (tag name "").kind ≠ .text := TokenKind.noConfusion
  have hclean := isClean_of_blank hblock hmark (tag_isPadded name "" hblock)
  rw [scan_delimited_append hblock hclean, hlines, Nat.add_zero]

/-- The tokens of a region are those of the inside between those of the two tags, and then come those of the
rest. -/
theorem scan_enclose {d : Directive} (hd : d.isOpaque = true) {inside : String}
    (hinside : (tokens inside).2 = none) (hlast : inside.toList.getLast? ≠ some '\x7b') (after : List Char) :
    scan ((d.enclose inside).toList ++ after) 1 =
      ((tag d.name "").token 1 :: ((tokens inside).1 ++ (tag d.endTag "").token (1 + newlines inside.toList) ::
        (scan after (1 + newlines inside.toList)).1), (scan after (1 + newlines inside.toList)).2) := by
  have hraw : (d.enclose inside).toList ++ after =
      (tag d.name "").raw ++ (inside.toList ++ ((tag d.endTag "").raw ++ after)) := by
    simp [Directive.enclose, raw, tag, Segment.delimited, opener, closer]
  have hmarks : (¬ closer .block <:+: (tag d.name "").inner) ∧ newlines (tag d.name "").raw = 0 ∧
      (¬ closer .block <:+: (tag d.endTag "").inner) ∧ newlines (tag d.endTag "").raw = 0 := by
    cases d with
    | comment | verbatim => decide
    | _ => cases hd
  obtain ⟨hmark, hlines, hmark', hlines'⟩ := hmarks
  have hopening : (opening? ((tag d.endTag "").raw ++ after)).isSome := by
    rw [opening?_raw TokenKind.noConfusion]
    rfl
  rw [hraw, scan_tag_append hmark hlines, scan_append hinside hlast hopening, scan_tag_append hmark' hlines']
  rfl

/-- The source of the tokens is the source they were cut from, if that could be cut to its end. -/
theorem rawText_tokens {source : String} (h : (tokens source).2 = none) :
    String.ofList (rawText (tokens source).1) = source := by
  obtain ⟨rest, hrest⟩ := scan_partitions source.toList 1
  have hlossless := hrest.lossless
  rw [hrest.rest_eq_nil h, List.append_nil] at hlossless
  rw [tokens, hlossless, String.ofList_toList]

end Lexer

/-! ## Compiling the region -/

section Region

variable {env : Environment} {roles : TagRoles} {d : Directive} {s : Session} {inside rest : List Token}
  {t e : Token} {number : Nat}

/-- There is one way to split tokens at the first end tag. -/
theorem eq_of_first_isBlock {name : String} {inside' rest' : List Token} {e' : Token}
    (h : inside ++ e :: rest = inside' ++ e' :: rest') (hinside : ∀ u ∈ inside, u.isBlock name = false)
    (he : e.isBlock name) (hinside' : ∀ u ∈ inside', u.isBlock name = false) (he' : e'.isBlock name) :
    inside = inside' ∧ e = e' := by
  have htake {inside : List Token} {e : Token} (hinside : ∀ u ∈ inside, u.isBlock name = false)
      (he : e.isBlock name) (rest : List Token) : (inside ++ e :: rest).takeWhile (!·.isBlock name) = inside := by
    rw [List.takeWhile_append_of_pos (by simpa using hinside), List.takeWhile_cons_of_neg (by simpa using he),
      List.append_nil]
  obtain rfl : inside = inside' := by rw [← htake hinside he rest, h, htake hinside' he']
  exact ⟨rfl, (List.cons.inj (List.append_cancel_left h)).1⟩

/-- Up to the first end tag, all is kept from the compiler. -/
theorem factory_run_region (hd : d.isOpaque = true) {outer : List Token} (hopen : s.openTags = t :: outer)
    (hs : s.stream.unread = inside ++ e :: rest) (hinside : ∀ u ∈ inside, u.isBlock d.endTag = false)
    (he : e.isBlock d.endTag) : ∃ s', s.Took (inside ++ [e]) s' ∧ s'.active = s.active ∧
      ∀ content h, d.factory content h s = .ok (d.kept (String.ofList (Lexer.rawText inside))) s' := by
  have hrounds : s.stream.unread.length < s.stream.unread.length + 1 := Nat.lt_succ_self _
  have hfound {missing : CompileError} {e' : CompileError} : ¬ NeverEnds d.endTag missing s e' := by
    intro hnever
    have hmem : e ∈ s.stream.unread := by simp [hs]
    simp [hnever.1 e hmem] at he
  -- both directives stop at some end tag before which there is none, so it is the one that is given
  have hsplit {inside' : List Token} {e' : Token} {s' : Session} (htook : s.Took (inside' ++ [e']) s')
      (hinside' : ∀ u ∈ inside', u.isBlock d.endTag = false) (he' : e'.isBlock d.endTag) :
      inside = inside' ∧ e = e' := by
    have happend : inside ++ e :: rest = inside' ++ e' :: s'.stream.unread := by
      rw [← hs, htook.unread_eq, List.append_assoc]
      rfl
    exact eq_of_first_isBlock happend hinside he hinside' he'
  cases d with
  | comment =>
    have hends : Ends (skipWithin "endcomment" _) s _ _ :=
      ends_skipWithin (fun s' hs' => by rw [unclosed, hs', hopen]) hrounds
    obtain ⟨_, s', hrun, hactive, inside', e', htook, hinside', he'⟩ := hends.exists_ok fun _ _ h => hfound h.2
    obtain ⟨rfl, rfl⟩ := hsplit htook hinside' he'
    have hskip : skipPast "endcomment" s = .ok _ s' := (run_bind_ok (rounds_run s)).trans hrun
    exact ⟨s', htook, hactive, fun _ _ => run_bind_ok hskip⟩
  | verbatim =>
    have hends := ends_verbatimWithin hopen hrounds
    obtain ⟨found, s', hrun, hactive, inside', e', htook, hfound, hinside', he'⟩ :=
      hends.exists_ok fun _ _ h => hfound h.2
    obtain ⟨rfl, rfl⟩ := hsplit htook hinside' he'
    have hjoined : String.join found = String.ofList (Lexer.rawText inside) := by
      rw [← String.ofList_toList (s := String.join found), String.toList_join, hfound, List.flatMap_map]
      rfl
    refine ⟨s', htook, hactive, fun _ _ => ?_⟩
    rw [← hjoined]
    exact (run_bind_ok (rounds_run s)).trans (run_bind_ok hrun)
  | _ => cases hd

variable (hd : d.isOpaque = true) (howner : env.owner? s.active d.name = some (number, d.factory))
  (ht : t.Heads d.name "") (hs : s.stream.unread = t :: (inside ++ e :: rest))
  (hinside : ∀ u ∈ inside, u.isBlock d.endTag = false) (he : e.isBlock d.endTag)

include hd howner ht hs hinside he

/-- A region adds the node that its directive makes of it, and one entry to the journal; compiling goes on after
its end tag. -/
theorem parseWithin_region {stop : List String} (hstop : d.name ∉ stop) :
    ∃ s', s.Took (t :: (inside ++ [e])) s' ∧ s'.active = s.active ∧
      (∀ parse n, env.parseWithin (some parse) stop (n + 1) s = (do
        let nodes ← env.parseWithin (some parse) stop n
        return (d.kept (String.ofList (Lexer.rawText inside))).toList ++ nodes : CompileM (List Node)) s') ∧
      ∀ roles parse n, roles number d.name = .standard d →
        (env.journalWithin roles (some parse) stop (n + 1)).entries s =
          ⟨s.active, .tag t (some (number, d.factory))⟩ ::
            (env.journalWithin roles (some parse) stop n).entries s' := by
  obtain ⟨s₀, s₁, hhas, hnext, htook, hactive⟩ := read_run hs
  have hunread : s₁.stream.unread = inside ++ e :: rest := by simpa [hs] using htook.unread_eq.symm
  obtain ⟨s₂, htook₂, hactive₂, hrun⟩ := factory_run_region (s := { s₁ with openTags := t :: s₁.openTags }) hd rfl
    hunread hinside he
  have hdispatch (content : String) (h : Handle) : withOpenTag t (d.factory content h) s₁ =
      .ok (d.kept (String.ofList (Lexer.rawText inside))) { s₂ with openTags := s₁.openTags } := by
    rw [withOpenTag, hrun]
  have howner₁ : env.owner? s₁.active t.tagName = some (number, d.factory) := by rw [hactive, ht.tagName, howner]
  have hname : t.tagName.isEmpty = false := by
    rw [ht.tagName]
    cases d <;> rfl
  have hgoes : stop.contains t.tagName = false := by simpa [ht.tagName] using hstop
  refine ⟨{ s₂ with openTags := s₁.openTags }, ⟨htook.stream.trans htook₂.stream, htook.openTags_eq⟩,
    hactive₂.trans hactive, fun parse n => ?_, fun roles parse n hrole => ?_⟩
  · have hblock : env.compileBlock (some parse) t stop s₁ = _ := run_bind_get _ _
    rw [Environment.tag?_eq_owner?, howner₁] at hblock
    have hcompiled := hblock.trans (hdispatch _ _)
    rw [Environment.parseWithin, run_bind_ok hhas, if_pos rfl, run_bind_ok hnext]
    simp only [ht.kind, hname, hgoes, Bool.false_eq_true, if_false]
    rw [run_bind_ok hcompiled]
  · have hnoted : env.journalBlock roles (some parse) t stop s₁ = _ :=
      Environment.opaque_journal howner₁ (ht.tagName ▸ hrole) hd (env.handle 0) stop
    rw [Environment.handle, ← d.script_run, hdispatch, hactive] at hnoted
    rw [JournalM.entries, Environment.journalWithin, quietly_bind_ok hhas, if_pos rfl, quietly_bind_ok hnext]
    simp only [ht.kind, hname, hgoes, Bool.false_eq_true, if_false]
    rw [journal_bind, hnoted]
    dsimp only
    rw [← JournalM.entries, entries_bind]
    -- what is done with the nodes in the end leaves no entry
    split <;> exact congrArg (_ :: ·) (List.append_nil _)

end Region

/-! ## Source with a region -/

/-- A session in front of source that starts on a line, with no block tag open. -/
structure Session.InFrontOf (s : Session) (base : List Nat) (source : String) (line : Nat) : Prop where
  unread_eq : s.stream.unread = (Lexer.scan source.toList line).1
  fault_eq : s.stream.fault = (Lexer.scan source.toList line).2
  active_eq : s.active = base
  openTags_eq : s.openTags = []

namespace Environment

variable {env : Environment} {roles : TagRoles} {d : Directive} {base : List Nat} {inside : String} {number : Nat}

/-- At the end of source there is nothing left to compile, and nothing to ask. -/
theorem parseWithin_end (env : Environment) (roles : TagRoles) {s : Session} {line n : Nat}
    (h : s.InFrontOf base "" line) (parse : List String → CompileM (List Node)) (journal : List String → JournalM (List Node)) :
    env.parseWithin (some parse) [] (n + 1) s = .ok [] s ∧
      (env.journalWithin roles (some journal) [] (n + 1)).entries s = [] := by
  have hunread : s.stream.unread = [] := by
    rw [h.unread_eq, String.toList_empty, Lexer.scan_nil]
  have hfault : s.stream.fault = none := by
    rw [h.fault_eq, String.toList_empty, Lexer.scan_nil]
  have hhas : hasNext s = .ok false s := by
    rw [hasNext, onStream, TokenStream.hasNext_of_unread_nil hunread, hfault]
  constructor
  · rw [parseWithin, run_bind_ok hhas]
    rfl
  · rw [JournalM.entries, journalWithin, quietly_bind_ok hhas]
    rfl

/-- After a region in front of other source, compiling goes on in that source. -/
theorem parse_enclosed (hd : d.isOpaque = true) (howner : env.owner? base d.name = some (number, d.factory))
    (hinside : (Lexer.tokens inside).2 = none) (hlast : inside.toList.getLast? ≠ some '\x7b')
    (hends : ∀ t ∈ (Lexer.tokens inside).1, t.isBlock d.endTag = false) (after : String) :
    ∃ s rounds, s.InFrontOf base after (1 + Lexer.newlines inside.toList) ∧ s.stream.unread.length < rounds ∧
      env.parse [] (Session.ofSource (d.enclose inside ++ after) base) = (do
        let nodes ← env.parseWithin (some (env.parseAt (maxOpenTags - 1))) [] rounds
        return (d.kept inside).toList ++ nodes : CompileM (List Node)) s ∧
      ∀ roles : TagRoles, roles number d.name = .standard d →
        env.journal roles base (d.enclose inside ++ after) =
          ⟨base, .tag ((Segment.tag d.name "").token 1) (some (number, d.factory))⟩ ::
            (env.journalWithin roles (some (env.journalAt roles (maxOpenTags - 1))) [] rounds).entries s := by
  have hnames := Directive.isTagName_of_isOpaque hd
  have he := (Segment.heads_bare hnames.2 (1 + Lexer.newlines inside.toList)).isBlock
  have hscan := Lexer.scan_enclose hd hinside hlast after.toList
  rw [← String.toList_append] at hscan
  have hunread : (Session.ofSource (d.enclose inside ++ after) base).stream.unread = _ := congrArg Prod.fst hscan
  have hfault : (Session.ofSource (d.enclose inside ++ after) base).stream.fault = _ := congrArg Prod.snd hscan
  obtain ⟨s, htook, hactive, hparse, hjournal⟩ :=
    parseWithin_region hd howner (Segment.heads_bare hnames.1 1) hunread hends he List.not_mem_nil
  rw [Lexer.rawText_tokens hinside] at hparse
  have hrest : s.stream.unread = (Lexer.scan after.toList (1 + Lexer.newlines inside.toList)).1 := by
    have htaken := htook.unread_eq
    rw [hunread, List.cons_append, List.append_assoc] at htaken
    have hending := List.append_cancel_left (List.cons.inj htaken).2
    exact (List.cons.inj hending).2.symm
  have hlength : s.stream.unread.length <
      (Session.ofSource (d.enclose inside ++ after) base).stream.unread.length := by
    rw [htook.unread_eq, List.length_append, List.length_cons]
    omega
  refine ⟨s, _, ⟨hrest, htook.fault_eq.trans hfault, hactive, htook.openTags_eq⟩, hlength, ?_, fun roles hrole => ?_⟩
  · exact (run_bind_ok (rounds_run _)).trans (hparse _ _)
  · exact (congrArg Prod.fst (quietly_bind_ok (rounds_run _) _)).trans (hjournal roles _ _ hrole)

/-- Source in an opaque region compiles to what its directive makes of it, and all that is asked of the libraries
is the directive itself. Whatever follows is compiled from the token after the end tag on, with the libraries
that were active before the region. -/
theorem compile_enclosed (hd : d.isOpaque = true) (howner : env.owner? base d.name = some (number, d.factory))
    (hrole : roles number d.name = .standard d) (hinside : (Lexer.tokens inside).2 = none)
    (hlast : inside.toList.getLast? ≠ some '\x7b')
    (hends : ∀ t ∈ (Lexer.tokens inside).1, t.isBlock d.endTag = false) :
    env.compile base (d.enclose inside) = .ok (d.kept inside).toList ∧
      ∃ t : Token, t.Heads d.name "" ∧
        env.journal roles base (d.enclose inside) = [⟨base, .tag t (some (number, d.factory))⟩] ∧
        ∀ after, ∃ s rounds, s.InFrontOf base after (1 + Lexer.newlines inside.toList) ∧
          s.stream.unread.length < rounds ∧
          env.parse [] (Session.ofSource (d.enclose inside ++ after) base) = (do
            let nodes ← env.parseWithin (some (env.parseAt (maxOpenTags - 1))) [] rounds
            return (d.kept inside).toList ++ nodes : CompileM (List Node)) s ∧
          env.journal roles base (d.enclose inside ++ after) = ⟨base, .tag t (some (number, d.factory))⟩ ::
            (env.journalWithin roles (some (env.journalAt roles (maxOpenTags - 1))) [] rounds).entries s := by
  have hparse := parse_enclosed hd howner hinside hlast hends
  obtain ⟨s, rounds, hfront, hrounds, hrun, hjournal⟩ := hparse ""
  obtain ⟨n, rfl⟩ := Nat.exists_eq_add_one.mpr (Nat.zero_lt_of_lt hrounds)
  rw [String.append_empty] at hrun hjournal
  obtain ⟨hend, hnone⟩ := env.parseWithin_end roles (n := n) hfront (env.parseAt (maxOpenTags - 1))
    (env.journalAt roles (maxOpenTags - 1))
  rw [run_bind_ok hend, List.append_nil] at hrun
  have hname := (Directive.isTagName_of_isOpaque hd).1
  refine ⟨?_, _, Segment.heads_bare hname 1, ?_, fun after => ?_⟩
  · rw [compile, EStateM.run, hrun]
    rfl
  · rw [hjournal roles hrole, hnone]
  · obtain ⟨s, rounds, hfront, hrounds, hrun, hjournal⟩ := hparse after
    exact ⟨s, rounds, hfront, hrounds, hrun, hjournal roles hrole⟩

/-- Source that would not compile: a tag that is not closed, an unknown filter and an unknown library, and an end
tag of `verbatim` in a comment. -/
def brokenSource : String :=
  "a \x7b% if x %\x7d\x7b\x7b y|nope \x7d\x7d\x7b# \x7b% endverbatim %\x7d #\x7d\x7b% load gone %\x7d"

theorem compile_enclosed_broken : Directive.verbatim.isOpaque = true ∧
    (exclaiming .latest).owner? [0, 1] "verbatim" = some (0, Directive.verbatim.factory) ∧
    exclaimingRoles 0 "verbatim" = .standard .verbatim ∧ (Lexer.tokens brokenSource).2 = none ∧
    brokenSource.toList.getLast? ≠ some '\x7b' ∧
    (∀ t ∈ (Lexer.tokens brokenSource).1, t.isBlock "endverbatim" = false) ∧
    (exclaiming .latest).compile [0, 1] ("\x7b% verbatim %\x7d" ++ brokenSource ++ "\x7b% endverbatim %\x7d") =
      .ok [.text brokenSource] ∧
    ∃ t : Token, t.tagName = "verbatim" ∧
      (exclaiming .latest).journal exclaimingRoles [0, 1] (Directive.verbatim.enclose brokenSource) =
        [⟨[0, 1], .tag t (some (0, Directive.verbatim.factory))⟩] := by
  have howner : (exclaiming .latest).owner? [0, 1] "verbatim" = some (0, Directive.verbatim.factory) := rfl
  have hrole : exclaimingRoles 0 "verbatim" = .standard .verbatim := rfl
  have hinside : (Lexer.tokens brokenSource).2 = none := by decide +kernel
  have hlast : brokenSource.toList.getLast? ≠ some '\x7b' := by decide +kernel
  have hends : ∀ t ∈ (Lexer.tokens brokenSource).1, t.isBlock "endverbatim" = false := by decide +kernel
  obtain ⟨hcompile, t, ht, hjournal, -⟩ :=
    compile_enclosed (show Directive.verbatim.isOpaque = true from rfl) howner hrole hinside hlast hends
  exact ⟨rfl, howner, hrole, hinside, hlast, hends, hcompile, t, ht.tagName, hjournal⟩

end Environment

end TextTemplate
