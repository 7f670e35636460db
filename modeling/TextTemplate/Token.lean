import TextTemplate.Text.Blank
import TextTemplate.Text.Quoted

/-!
# Tokens

The parts that template source falls into: literal text, variable expressions, block tags and comments,
each with the line on which it starts. The content of a delimited token is what stands between its
delimiters, trimmed; its raw text is everything from delimiter to delimiter.
-/

namespace TextTemplate

inductive TokenKind where
  | text
  | variable
  | block
  | comment
  deriving DecidableEq, Repr

namespace TokenKind

/-- The name by which diagnostics call the kind. -/
def label : TokenKind → String
  | .text => "TEXT"
  | .variable => "VARIABLE"
  | .block => "BLOCK"
  | .comment => "COMMENT"

end TokenKind

structure Token where
  kind : TokenKind
  content : String
  line : Nat
  raw : String
  deriving DecidableEq, Repr

namespace Token

/-- The first word of the content. -/
def tagName (t : Token) : String := String.ofList (Text.firstWord t.content.toList).1

/-- The content after the first word, trimmed. -/
def tagContent (t : Token) : String := String.ofList (Text.trim (Text.firstWord t.content.toList).2)

/-- Whether the token is a block tag of the given name. -/
def isBlock (name : String) (t : Token) : Bool := t.kind == .block && t.tagName == name

theorem isBlock_iff {t : Token} {name : String} : t.isBlock name = true ↔ t.kind = .block ∧ t.tagName = name := by
  simp [isBlock]

/-- The token as diagnostics show it, with the start of its content. -/
def shown (t : Token) : String :=
  "Token(" ++ t.kind.label ++ ", " ++ Text.quoted (String.ofList (t.content.toList.take 20)) ++
    ", line " ++ toString t.line ++ ")"

end Token

end TextTemplate
