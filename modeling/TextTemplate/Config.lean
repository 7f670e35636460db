import TextTemplate.Compile.Parse
import TextTemplate.Config.Path
import TextTemplate.Library.Registry
import TextTemplate.Value.Shown
import TextTemplate.Value.Sequence

/-!
# Engine configuration

The settings of an engine, read from a mapping as a configuration file gives it. Settings that are not given
have defaults; an unknown setting or a value of the wrong kind is refused.
-/

namespace TextTemplate

/-- Why a configuration was refused. -/
inductive ConfigFault where
  | unknownKeys (keys : List String)
  | notTexts (key : String)
  | librariesNotMapping
  | libraryNotText (name : String)
  | notText (key : String)
  | badPrecedence (shown : String)
  | badTarget (target : String)
  | libraryTaken (name : String)
  | malformedFile
  | fileNotMapping (path : String)
  /-- A number in the file has no digits, or too many. -/
  | badNumber
  /-- The keys of the configuration are of a kind that cannot be listed or looked up. -/
  | unsupportedKind
  /-- The configuration is not a mapping. -/
  | notMapping
  /-- An integer in the configuration has too many digits to be written. -/
  | tooManyDigits
  /-- The file is not valid UTF-8. -/
  | undecodable
  /-- The path of the file has a name that is too long. -/
  | nameTooLong
  deriving DecidableEq, Repr

namespace ConfigFault

/-- The text of the faults that the author of a configuration can mend. -/
def message? : ConfigFault → Option String
  | unknownKeys keys => some ("Unknown configuration keys: " ++ ", ".intercalate keys)
  | notTexts key => some ("'" ++ key ++ "' must be a list of strings")
  | librariesNotMapping => some "'libraries' must be a mapping of name to module path"
  | libraryNotText name => some ("Library '" ++ name ++ "' must map to a module path string")
  | notText key => some ("'" ++ key ++ "' must be a string")
  | badPrecedence shown =>
    some ("Invalid precedence '" ++ shown ++ "', expected one of: latest, earliest")
  | badTarget target =>
    some ("Invalid library target '" ++ target ++ "', expected 'module' or 'module:attribute'")
  | libraryTaken name => (LibraryFault.nameTaken name).message?
  | malformedFile => some "Invalid YAML"
  | fileNotMapping path => some ("YAML must be a mapping: " ++ path)
  | badNumber | unsupportedKind | notMapping | tooManyDigits | undecodable | nameTooLong => none

end ConfigFault

def Precedence.label : Precedence → String
  | .latest => "latest"
  | .earliest => "earliest"

structure Config where
  /-- Names of the libraries that are active in every template. -/
  builtins : List String
  /-- Names of further libraries with the targets they are fetched from. -/
  libraries : List (String × String)
  /-- The directories that templates are looked for in, the first one first. -/
  dirs : List Path
  encoding : String
  ifInvalid : String
  precedence : Precedence
  deriving DecidableEq, Repr

namespace Config

def defaultBuiltins : List String := ["defaulttags", "defaultfilters"]

def default : Config := ⟨defaultBuiltins, [], [], "utf-8", "", .latest⟩

def knownKeys : List String :=
  ["builtins", "libraries", "dirs", "encoding", "string_if_invalid", "precedence"]

/-- The keys that would be settings, for any kind of value. -/
def keysOf? : Value → Option (List Value)
  | .onceOnly _ items => some items
  | v => v.sizedItems? (.empty 0)

/-- The unknown ones among keys; keys of other kinds than texts cannot be listed. -/
def unknownTexts : List Value → Except ConfigFault (List String)
  | [] => .ok []
  | .text key :: rest => do
    let more ← unknownTexts rest
    return if knownKeys.contains key then more else key :: more
  | _ :: _ => .error .unsupportedKind

def checkKeys (v : Value) : Except ConfigFault Unit := do
  match keysOf? v with
  | none => throw .unsupportedKind
  | some keys =>
    if keys.all Value.isHashable then
      let unknown ← unknownTexts keys
      if unknown.isEmpty then return () else throw (.unknownKeys (Text.sorted unknown))
    else throw .unsupportedKind

/-- The texts of a list of texts. -/
def texts? : List Value → Option (List String)
  | [] => some []
  | .text s :: rest => (texts? rest).map (s :: ·)
  | _ :: _ => none

/-- A setting that is a list of texts. -/
def textList (entries : List (Value × Value)) (key : String) (default : List String) :
    Except ConfigFault (List String) :=
  match Value.keyedByText? key entries with
  | none => .ok default
  | some (.list _ items) =>
    match texts? items with
    | some found => .ok found
    | none => .error (.notTexts key)
  | some _ => .error (.notTexts key)

/-- A setting that is a text. -/
def textSetting (entries : List (Value × Value)) (key default : String) : Except ConfigFault String :=
  match Value.keyedByText? key entries with
  | none => .ok default
  | some (.text s) => .ok s
  | some _ => .error (.notText key)

/-- The text of a value in a configuration. -/
def written (v : Value) : Except ConfigFault String :=
  if v.isWritable then .ok v.written else .error .tooManyDigits

/-- Read the entries of the libraries setting, each after those before it. -/
def readLibraries : List (String × String) → List (Value × Value) →
    Except ConfigFault (List (String × String))
  | found, [] => .ok found
  | found, (key, target) :: rest => do
    let name ← written key
    match target with
    | .text s =>
      if s.isEmpty then throw (.libraryNotText name)
      else readLibraries (Entries.put name s found) rest
    | _ => throw (.libraryNotText name)

/-- The libraries setting; every value that counts as false stands for none. -/
def librarySetting (entries : List (Value × Value)) : Except ConfigFault (List (String × String)) :=
  match Value.keyedByText? "libraries" entries with
  | none => .ok []
  | some v =>
    if v.isTrue (.empty 0) then
      match v with
      | .mapping _ libraries => readLibraries [] libraries
      | _ => .error .librariesNotMapping
    else .ok []

/-- A directory, seen from the base directory if there is one. -/
def directory (base : Option Path) (entry : String) : Path :=
  match base with
  | some b => b.join (.ofString entry)
  | none => .ofString entry

def precedenceSetting (entries : List (Value × Value)) : Except ConfigFault Precedence :=
  match Value.keyedByText? "precedence" entries with
  | none => .ok .latest
  | some v =>
    match v with
    | .text "latest" => .ok .latest
    | .text "earliest" => .ok .earliest
    | _ => do throw (.badPrecedence (← written v))

/-- Read a configuration; relative directories are seen from the base directory. -/
def ofValue (v : Value) (base : Option Path) : Except ConfigFault Config := do
  checkKeys v
  match v with
  | .mapping _ entries =>
    let builtins ← textList entries "builtins" defaultBuiltins
    let libraries ← librarySetting entries
    let dirs ← textList entries "dirs" []
    let encoding ← textSetting entries "encoding" "utf-8"
    let ifInvalid ← textSetting entries "string_if_invalid" ""
    let precedence ← precedenceSetting entries
    return ⟨builtins, libraries, dirs.map (directory base), encoding, ifInvalid, precedence⟩
  | _ => throw .notMapping

private def textValues (items : List String) : Value := .list 0 (items.map .text)

/-- The configuration as the mapping that it can be read from. -/
def toValue (c : Config) : Value :=
  .mapping 0 [
    (.text "builtins", textValues c.builtins),
    (.text "libraries", .mapping 0 (c.libraries.map fun e => (.text e.1, .text e.2))),
    (.text "dirs", textValues (c.dirs.map Path.toString)),
    (.text "encoding", .text c.encoding),
    (.text "string_if_invalid", .text c.ifInvalid),
    (.text "precedence", .text c.precedence.label)]

/-- Read a library target: a module, and after a colon the name of the library in it. -/
def target (s : String) : Except ConfigFault LibraryTarget :=
  match Text.breakAt [':'] s.toList with
  | none =>
    if s.isEmpty then .error (.badTarget s) else .ok ⟨s, Registry.defaultExport⟩
  | some (modulePath, exportName) =>
    if modulePath.isEmpty || exportName.isEmpty then .error (.badTarget s)
    else .ok ⟨String.ofList modulePath, String.ofList exportName⟩

end Config

end TextTemplate
