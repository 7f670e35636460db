/-!
# Failures while compiling

Why a template could not be compiled, with the line of the offending token where it is known. The causes
are kept as data; `CompileError.message` is the one place that puts them into words.
-/

namespace TextTemplate

/-- What is wrong with a condition. -/
inductive ConditionFault where
  /-- A character that starts no condition token, at its own offset. -/
  | strayCharacter (c : Char) (offset : Nat)
  | empty
  | unexpectedToken (text : String)
  | unexpectedEnd
  | tooDeep
  | compoundLeftSide (operator : String)
  | operandExpected (operator : String)
  | unclosedGroup
  deriving DecidableEq, Repr

namespace ConditionFault

def message : ConditionFault → String
  | strayCharacter c offset =>
    "Unexpected character '" ++ String.singleton c ++ "' at position " ++ toString offset
  | empty => "Empty condition"
  | unexpectedToken text => "Unexpected token '" ++ text ++ "'"
  | unexpectedEnd => "Unexpected end of expression"
  | tooDeep => "Condition nesting too deep"
  | compoundLeftSide operator => "Left side of '" ++ operator ++ "' must be a single operand"
  | operandExpected operator => "Expected operand after '" ++ operator ++ "'"
  | unclosedGroup => "Expected ')' after grouped expression"

end ConditionFault

/-- What is wrong with an expression. -/
inductive ExpressionFault where
  | empty
  | emptyChain
  | badNumber (source : String)
  | badPath (source : String)
  | privateName (source : String)
  /-- Text between two parts of a pipeline that belongs to neither. -/
  | strayText (before stray after : String)
  | unreadRest (rest source : String)
  | noOperand (source : String)
  | filterArity (name : String) (required provided : Nat)
  deriving DecidableEq, Repr

namespace ExpressionFault

def message : ExpressionFault → String
  | empty => "Empty variable expression"
  | emptyChain => "Empty filter chain"
  | badNumber source => "Invalid number '" ++ source ++ "'"
  | badPath source => "Invalid variable '" ++ source ++ "'"
  | privateName source =>
    "Variables and attributes may not begin with underscores: '" ++ source ++ "'"
  | strayText before stray after =>
    "Could not parse some characters: " ++ before ++ "|" ++ stray ++ "|" ++ after
  | unreadRest rest source => "Could not parse the remainder: '" ++ rest ++ "' from '" ++ source ++ "'"
  | noOperand source => "Could not find variable at start of '" ++ source ++ "'"
  | filterArity name required provided =>
    "'" ++ name ++ "' filter requires " ++ toString required ++ " arguments, " ++ toString provided ++
      " provided"

end ExpressionFault

/-- What is wrong with the header of a tag. -/
inductive HeaderFault where
  | libraryNameExpected
  | conditionExpected (tag : String)
  | noArgumentsTaken (tag : String)
  | loopFormat (header : String)
  | loopVariable (name : String)
  | assignmentExpected
  | badAssignment (bit : String)
  | twoArgumentsExpected (tag : String)
  | argumentExpected
  | oneSymbolExpected
  | unknownSymbol (name : String) (known : List String)
  deriving DecidableEq, Repr

namespace HeaderFault

def message : HeaderFault → String
  | libraryNameExpected => "'load' requires at least one library name"
  | conditionExpected tag => "'" ++ tag ++ "' requires a condition"
  | noArgumentsTaken tag => "'" ++ tag ++ "' takes no arguments"
  | loopFormat header => "'for' statements should use the format 'for x in y': for " ++ header
  | loopVariable name => "'for' tag received an invalid loop variable: '" ++ name ++ "'"
  | assignmentExpected => "'with' expected at least one variable assignment"
  | badAssignment bit => "Invalid assignment '" ++ bit ++ "' in 'with' tag"
  | twoArgumentsExpected tag => "'" ++ tag ++ "' takes two arguments"
  | argumentExpected => "'firstof' statement requires at least one argument"
  | oneSymbolExpected => "'templatetag' statement takes one argument"
  | unknownSymbol name known =>
    "Invalid templatetag argument: '" ++ name ++ "'. Must be one of: " ++ ", ".intercalate known

end HeaderFault

/-- Why compiling stopped. -/
inductive CompileCause where
  | unclosedDelimiter (opener closer : String)
  | emptyVariableTag
  | emptyBlockTag
  | tooManyOpenTags (limit : Nat)
  | unknownTag (name : String) (expected : List String)
  | unknownFilter (name : String)
  | unexpectedEnd
  | unclosedTag (tag : Option String) (expected : List String)
  | unknownLibrary (name reason : String)
  | condition (fault : ConditionFault) (position : Nat)
  | expression (fault : ExpressionFault)
  | header (fault : HeaderFault)
  /-- The block tag being compiled was asked for, but none is. -/
  | noOpenTag
  /-- A tag gave back more tokens than it took, so that compiling would not end. -/
  | noProgress
  /-- A tag of the host failed with an error of the named kind. -/
  | hostFailure (kind : String)
  deriving DecidableEq, Repr

/-- Names between single quotes, the last one after "or". -/
def quotedChoice : List String → String
  | [] => ""
  | [name] => "'" ++ name ++ "'"
  | [first, last] => "'" ++ first ++ "' or '" ++ last ++ "'"
  | first :: rest => "'" ++ first ++ "', " ++ quotedChoice rest

namespace CompileCause

def message : CompileCause → String
  | unclosedDelimiter opener closer =>
    "Unclosed '" ++ opener ++ "' delimiter, expected '" ++ closer ++ "'"
  | emptyVariableTag => "Empty variable tag"
  | emptyBlockTag => "Empty block tag"
  | tooManyOpenTags limit =>
    "Template nesting too deep (more than " ++ toString limit ++ " open block tags)"
  | unknownTag name expected =>
    "Invalid block tag '" ++ name ++ "'" ++
      (if expected.isEmpty then "" else ", expected " ++ quotedChoice expected) ++
      ". Did you forget to register or load this tag?"
  | unknownFilter name => "Invalid filter '" ++ name ++ "'"
  | unexpectedEnd => "Unexpected end of template"
  | unclosedTag tag expected =>
    (match tag with
      | some name => if name.isEmpty then "Unclosed block" else "Unclosed tag '" ++ name ++ "'"
      | none => "Unclosed block") ++
      ". Looking for one of: " ++ ", ".intercalate expected
  | unknownLibrary name reason =>
    "Library '" ++ name ++ "' not found" ++ (if reason.isEmpty then "" else ": " ++ reason)
  | condition fault position =>
    "Condition error at position " ++ toString position ++ ": " ++ fault.message
  | expression fault => fault.message
  | header fault => fault.message
  | noOpenTag => "No block tag is being compiled"
  | noProgress => "Compiling made no progress"
  | hostFailure kind => kind

/-- Failures that the author of a template can mend; only these are given a line. -/
def isUserError : CompileCause → Bool
  | noOpenTag | noProgress | hostFailure _ => false
  | _ => true

end CompileCause

structure CompileError where
  cause : CompileCause
  line : Option Int
  deriving DecidableEq, Repr

namespace CompileError

/-- A failure whose line is not known yet. -/
def ofCause (cause : CompileCause) : CompileError := ⟨cause, none⟩

/-- Give a failure a line, unless it has one. -/
def atLine (line : Nat) (e : CompileError) : CompileError :=
  if e.cause.isUserError && e.line.isNone then { e with line := some line } else e

def message (e : CompileError) : String :=
  match e.line with
  | some n => e.cause.message ++ " (line " ++ toString n ++ ")"
  | none => e.cause.message

end CompileError

end TextTemplate
