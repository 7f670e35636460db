/-!
# Order of texts

Texts are ordered by the first character in which they differ, a text before its own extensions. Names are
listed in this order, each once.
-/

namespace TextTemplate.Text

def order (s t : String) : Ordering :=
  if s == t then .eq else if s.toList < t.toList then .lt else .gt

/-- Insert a text into a sorted list, unless it is there. -/
def insertSorted (s : String) : List String → List String
  | [] => [s]
  | t :: rest =>
    match order s t with
    | .lt => s :: t :: rest
    | .eq => t :: rest
    | .gt => t :: insertSorted s rest

/-- Texts in order, each once. -/
def sorted (texts : List String) : List String := texts.foldl (fun done s => insertSorted s done) []

end TextTemplate.Text
