import TextTemplate.Token.Lexer

/-!
# Token stream with pushback

Tokens are read one at a time from a source that may end in a failure. Tokens that were put back come first,
the last one put back before the others. Looking ahead moves a token of the source into the pushback buffer.
The failure at the end of the source is reported once, when reading first gets there; after that the stream
has simply ended.
-/

namespace TextTemplate

structure TokenStream where
  /-- Tokens put back or looked at, the next one first. -/
  pending : List Token
  /-- Tokens not yet taken from the source. -/
  source : List Token
  /-- The failure after the last token of the source, until it is reported. -/
  fault : Option CompileError
  /-- The line of the last token handed out, 0 before the first. -/
  lastLine : Nat

/-- Computations that read tokens keep what they have read when they fail. -/
abbrev StreamM := EStateM CompileError TokenStream

namespace TokenStream

def ofTokens (tokens : List Token) (fault : Option CompileError) : TokenStream := ⟨[], tokens, fault, 0⟩

def ofSource (source : String) : TokenStream :=
  ofTokens (Lexer.tokens source).1 (Lexer.tokens source).2

/-- The tokens that are still to be read. -/
def unread (s : TokenStream) : List Token := s.pending ++ s.source

/-- The line for a failure at the end of the stream. -/
def endLine (s : TokenStream) : Option Int := if s.lastLine = 0 then none else some s.lastLine

/-- Have a token in the buffer if there is one; false at the end. -/
def fill : StreamM Bool := fun s =>
  match s.pending, s.source, s.fault with
  | _ :: _, _, _ => .ok true s
  | [], t :: rest, _ => .ok true { s with pending := [t], source := rest }
  | [], [], some e => .error e { s with fault := none }
  | [], [], none => .ok false s

def hasNext : StreamM Bool := fill

/-- The next token, which stays in the stream. -/
def peek : StreamM (Option Token) := do
  if ← fill then return (← get).pending.head? else return none

/-- Take the next token. -/
def next : StreamM Token := do
  if ← fill then
    let s ← get
    match s.pending with
    | t :: rest =>
      set { s with pending := rest, lastLine := t.line }
      return t
    | [] => throw ⟨.unexpectedEnd, s.endLine⟩
  else throw ⟨.unexpectedEnd, (← get).endLine⟩

/-- Put a token back at the front. -/
def prepend (t : Token) : StreamM Unit := modify fun s => { s with pending := t :: s.pending }

/-- Take the next token and drop it. -/
def deleteNext : StreamM Unit := do
  let _ ← next

/-- Take at most `n` tokens, up to the end. -/
def takeUpTo : Nat → StreamM (List Token)
  | 0 => return []
  | n + 1 => do
    if ← hasNext then
      let t ← next
      return t :: (← takeUpTo n)
    else return []

/-- Take all tokens that are left. -/
def drain : StreamM (List Token) := do
  takeUpTo ((← get).unread.length + 1)

end TokenStream

end TextTemplate
