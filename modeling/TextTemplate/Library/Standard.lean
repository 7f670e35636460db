import TextTemplate.Filter.Standard
import TextTemplate.Tag.Standard

/-!
# The standard libraries

The standard tags and the standard filters as libraries.
-/

namespace TextTemplate.StandardLibrary

def tags : TagLibrary := .ofEntries "defaulttags" StandardTag.all []

def filters : TagLibrary := .ofEntries "defaultfilters" [] StandardFilter.all

end TextTemplate.StandardLibrary
