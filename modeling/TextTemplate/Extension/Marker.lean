import TextTemplate.Compile.Session

/-!
# Marker libraries

A host library that tells apart which of several libraries a name was found in: its tags write the marker,
and its filters put it after the value.
-/

namespace TextTemplate.Extension

/-- A tag that writes the marker. -/
def markerTag (marker : String) : TagFactory := fun _ _ => return some (.marker marker)

/-- A filter that puts the marker after the text of the value. -/
def markerFilter (marker : String) : Filter where
  signature? := some (.exactly 1)
  run
    | [v] => do return .text ((← v.write) ++ marker)
    | _ => throw .wrongArgumentCount

/-- A library of marker tags and filters. -/
def markerLibrary (name marker : String) (tags filters : List String) : TagLibrary :=
  .ofEntries name (Entries.putAll [] (tags.map fun t => (t, markerTag marker)))
    (Entries.putAll [] (filters.map fun f => (f, markerFilter marker)))

end TextTemplate.Extension
