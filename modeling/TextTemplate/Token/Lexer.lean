import TextTemplate.CompileError
import TextTemplate.Token

/-!
# Splitting source into tokens

Source is literal text, cut by three kinds of delimiters. Inside a delimiter the first closing mark wins.
The result is the list of tokens up to the end, or up to a delimiter that is never closed: the tokens before
it stand, and the failure is met by whoever reads past them.
-/

namespace TextTemplate

namespace Lexer

/-- The kind of token that an opening brace and this character start. -/
def kindAfterBrace? (c : Char) : Option TokenKind :=
  if c == '\x7b' then some .variable
  else if c == '%' then some .block
  else if c == '#' then some .comment
  else none

/-- The closing mark of a delimited token. -/
def closer : TokenKind → List Char
  | .text => []
  | .variable => ['\x7d', '\x7d']
  | .block => ['%', '\x7d']
  | .comment => ['#', '\x7d']

def opener : TokenKind → List Char
  | .text => []
  | .variable => ['\x7b', '\x7b']
  | .block => ['\x7b', '%']
  | .comment => ['\x7b', '#']

/-- The kind of the delimited token that the text starts with, and the text after its opening mark. -/
def opening? : List Char → Option (TokenKind × List Char)
  | b :: c :: inside =>
    if b == '\x7b' then (kindAfterBrace? c).map fun kind => (kind, inside) else none
  | _ => none

/-- Split off the text before the first opening mark. -/
def takeText : List Char → List Char × List Char
  | [] => ([], [])
  | c :: rest =>
    if (opening? (c :: rest)).isSome then ([], c :: rest)
    else (c :: (takeText rest).1, (takeText rest).2)

theorem takeText_append (s : List Char) : (takeText s).1 ++ (takeText s).2 = s := by
  induction s with
  | nil => rfl
  | cons c rest ih =>
    rw [takeText]
    split
    · rfl
    · simpa using ih

theorem takeText_length_le (s : List Char) : (takeText s).2.length ≤ s.length := by
  have := congrArg List.length (takeText_append s)
  simp only [List.length_append] at this
  omega

theorem opening?_length_lt {s inside : List Char} {kind : TokenKind}
    (h : opening? s = some (kind, inside)) : inside.length < s.length := by
  unfold opening? at h
  split at h
  · split at h
    · simp only [Option.map_eq_some_iff, Prod.mk.injEq] at h
      obtain ⟨_, _, _, rfl⟩ := h
      simp only [List.length_cons]
      omega
    · simp at h
  · simp at h

/-- How many lines end in a text. -/
def newlines (s : List Char) : Nat := s.count '\n'

def textToken (s : List Char) (line : Nat) : Token :=
  ⟨.text, String.ofList s, line, String.ofList s⟩

def delimitedToken (kind : TokenKind) (inner : List Char) (line : Nat) : Token :=
  ⟨kind, String.ofList (Text.trim inner), line, String.ofList (opener kind ++ inner ++ closer kind)⟩

def unclosed (kind : TokenKind) (line : Nat) : CompileError :=
  ⟨.unclosedDelimiter (String.ofList (opener kind)) (String.ofList (closer kind)), some line⟩

theorem breakAt_length_le {mark s before after : List Char} (h : Text.breakAt mark s = some (before, after)) :
    after.length ≤ s.length := by
  fun_induction Text.breakAt mark s generalizing before after with
  | case1 => simp_all
  | case2 => simp at h
  | case3 c rest _ =>
    obtain ⟨rfl, rfl⟩ : [] = before ∧ List.drop mark.length (c :: rest) = after := by simpa using h
    simp [List.length_drop]
  | case4 c rest _ ih =>
    simp only [Option.map_eq_some_iff, Prod.exists, Prod.mk.injEq] at h
    obtain ⟨a, b, hb, rfl, rfl⟩ := h
    have := ih hb
    simp only [List.length_cons]
    omega

/-- The tokens of source that starts on `line`. -/
def scan (s : List Char) (line : Nat) : List Token × Option CompileError :=
  match _h : opening? s with
  | some (kind, inside) =>
    match _h' : Text.breakAt (closer kind) inside with
    | none => ([], some (unclosed kind line))
    | some (inner, after) =>
      let (tokens, fault) := scan after (line + newlines inner)
      (delimitedToken kind inner line :: tokens, fault)
  | none =>
    match s with
    | [] => ([], none)
    | c :: rest =>
      let text := c :: (takeText rest).1
      let (tokens, fault) := scan (takeText rest).2 (line + newlines text)
      (textToken text line :: tokens, fault)
termination_by s.length
decreasing_by
  · have := opening?_length_lt _h
    have := breakAt_length_le _h'
    omega
  · have := takeText_length_le rest
    simp only [List.length_cons]
    omega

/-- The tokens of source, and the failure after them if a delimiter is never closed. -/
def tokens (source : String) : List Token × Option CompileError := scan source.toList 1

end Lexer

end TextTemplate
