import TextTemplate.Text.Case
import TextTemplate.Value.Sequence
import TextTemplate.Value.Sorting

/-!
# Operations that a value offers by name

The operations without arguments that a lookup path may name after a value: the case forms of a text, the
views of a mapping, the parts of a number, and the operations that change a list or a mapping in place.
Operations that need an argument cannot be reached by a path and are not listed.
-/

namespace TextTemplate.Value

/-- A new list with the given items. -/
def newList (items : List Value) : EvalM Value := do
  pure (list (← EvalM.freshIdent) items)

private def ofChars (s : List Char) : Value := text (String.ofList s)

def textMethod? (s : String) (name : String) : Option (EvalM Value) :=
  let cs := s.toList
  match name with
  | "upper" => some (pure (ofChars (Text.upper cs)))
  | "lower" => some (pure (ofChars (Text.lower cs)))
  | "title" => some (pure (ofChars (Text.title cs)))
  | "swapcase" => some (pure (ofChars (Text.swapCase cs)))
  | "capitalize" => some (pure (ofChars (Text.capitalize cs)))
  | "strip" => some (pure (ofChars (Text.trim cs)))
  | "split" => some (newList ((Text.words cs).map ofChars))
  | "splitlines" => some (newList ((Text.lines cs).map ofChars))
  | "isdigit" => some (pure (bool (Text.allOf Text.isDigitLike cs)))
  | "isalpha" => some (pure (bool (Text.allOf Text.isLetter cs)))
  | "isspace" => some (pure (bool (Text.allOf Text.isBlank cs)))
  | "isupper" => some (pure (bool (Text.isUpperText cs)))
  | "islower" => some (pure (bool (Text.isLowerText cs)))
  | _ => Option.none

def newView (kind : ViewKind) (source : Ident) (entries : List (Value × Value)) : EvalM Value := do
  pure (view kind (← EvalM.freshIdent) source entries)

def mappingMethod? (id : Ident) (entries : List (Value × Value)) (name : String) :
    Option (EvalM Value) :=
  match name with
  | "items" => some (newView .items id entries)
  | "keys" => some (newView .keys id entries)
  | "values" => some (newView .values id entries)
  | "copy" => some do
      let kept := (← get).pick id entries
      pure (mapping (← EvalM.freshIdent) kept)
  | "clear" => some do
      modify (·.setOrder id [])
      pure none
  | "popitem" => some do
      let st ← get
      match (st.pick id entries).getLast? with
      | Option.none => throw .emptyMapping
      | some (k, v) =>
        modify (·.setOrder id (st.order id entries.length).dropLast)
        pure (tuple [k, v])
  | _ => Option.none

/-- Sort a list in place. If two items have no order, the list stays partly sorted and sorting fails. -/
def sortList (id : Ident) (items : List Value) : EvalM Value := do
  let st ← get
  let present := (st.order id items.length).filterMap fun n => items[n]?.map fun v => (n, v.settle st)
  match Sorting.sort (fun a b => related .less a.2 b.2) present with
  | .ok sorted =>
    modify (·.setOrder id (sorted.map (·.1)))
    pure none
  | .error items =>
    modify (·.setOrder id (items.map (·.1)))
    throw .unsupportedKind

def listMethod? (id : Ident) (items : List Value) (name : String) : Option (EvalM Value) :=
  match name with
  | "copy" => some do newList ((← get).pick id items)
  | "pop" => some do
      let st ← get
      match (st.pick id items).getLast? with
      | Option.none => throw .emptyList
      | some v =>
        modify (·.setOrder id (st.order id items.length).dropLast)
        pure v
  | "reverse" => some do
      let st ← get
      modify (·.setOrder id (st.order id items.length).reverse)
      pure none
  | "sort" => some (sortList id items)
  | "clear" => some do
      modify (·.setOrder id [])
      pure none
  | _ => Option.none

def intMethod? (n : Int) (name : String) : Option (EvalM Value) :=
  match name with
  | "real" | "numerator" => some (pure (int n))
  | "imag" => some (pure (int 0))
  | "denominator" => some (pure (int 1))
  | "bit_length" => some (pure (int (Integer.bitLength n)))
  | _ => Option.none

/-- The parts of a floating-point number `v`, where `whole` and `hex` are its answers to two questions. -/
def floatMethod? (v : Value) (whole : Bool) (hex : String) (name : String) : Option (EvalM Value) :=
  match name with
  | "real" => some (pure v)
  | "imag" => some (pure (float (.zero false)))
  | "is_integer" => some (pure (bool whole))
  | "hex" => some (pure (text hex))
  | _ => Option.none

/-- The operation that a value offers under a name. -/
def method? (v : Value) (name : String) : Option (EvalM Value) :=
  match v with
  | text s => textMethod? s name
  | mapping id entries => mappingMethod? id entries name
  | list id items => listMethod? id items name
  | bool b => intMethod? (if b then 1 else 0) name
  | int n => intMethod? n name
  | float x => floatMethod? v x.isWhole x.hexText name
  | nan _ => floatMethod? v false "nan" name
  | _ => Option.none

/-- The attribute that a host value has under a name. -/
def attribute? (v : Value) (name : String) : Option Value :=
  match v with
  | hostObject _ attributes | hostType _ attributes => attributes.lookup name
  | _ => Option.none

/-- What a host function answers once it has been called. -/
def respond (id : Ident) (response : Response) (result : Value) : EvalM Value :=
  match response with
  | .answers => pure result
  | .counts => do
    let n := (← get).count id + 1
    modify (·.setCount id n)
    pure (int n)
  | .fails kind => throw (.hostFailure kind)

/-- Call a host function; `missing` is the failure if it cannot be called without arguments. -/
def callFunction (missing : RenderError) (id : Ident) (shape : FunctionShape) (result : Value) :
    EvalM Value :=
  if shape.argument == .required then throw (if shape.signatureKnown then missing else .unsupportedKind)
  else respond id shape.response result

/-- Call a value with one argument, which only host functions take. -/
def calledWithOne : Value → EvalM Value
  | hostFunction id shape result =>
    if shape.argument == .refused then throw .unsupportedKind else respond id shape.response result
  | _ => throw .unsupportedKind

/-- A looked-up value as it is used: a host function is called, everything else stands for itself. -/
def called (missing : RenderError) : Value → EvalM Value
  | hostFunction id shape result => callFunction missing id shape result
  | v => pure v

end TextTemplate.Value
