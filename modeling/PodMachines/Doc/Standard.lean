import PodMachines.Doc.Json
import PodMachines.Doc.Yaml

/-!
# The parsers

The parsers with which the program runs.
-/

namespace PodMachines.Doc

instance standard : Parsers where
  json := Json.events
  yaml := Yaml.events

end PodMachines.Doc
