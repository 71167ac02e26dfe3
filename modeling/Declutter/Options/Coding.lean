import Declutter.Error
import Declutter.Json.Decoder
import Declutter.Options

/-!
# Options as JSON

Keys are written with hyphens. A key that is left out keeps its default, so a configuration needs
to name only what it changes; in writing, every key is named.
-/

namespace Declutter

open Json (Decoder Record Value)

def InjectedProperty.toJson (property : InjectedProperty) : Value :=
  .object [("interface", .string property.interface), ("name", .string property.name),
    ("value", .string property.value)]

def InjectedProperty.decoder : Decoder InjectedProperty :=
  Record.decoder
    (((Record.required "interface" .string).and
      ((Record.required "name" .string).and (.required "value" .string))).map
      fun (interface, name, value) => ⟨interface, name, value⟩)
    "struct InjectedProperty"

namespace Options

def toJson (options : Options) : Value :=
  .object [("root-name", .string options.rootName),
    ("root-alias", (options.rootAlias.map .string).getD .null),
    ("inject-property", (options.injectProperty.map (·.toJson)).getD .null),
    ("merge-root-unions", .bool options.mergeRootUnions)]

def decoder : Decoder Options :=
  let absent : Options := {}
  Record.decoder
    (((Record.optional "root-name" .string absent.rootName).and
      ((Record.optional "root-alias" (.nullable .string) absent.rootAlias).and
        ((Record.optional "inject-property" (.nullable InjectedProperty.decoder)
          absent.injectProperty).and
          (.optional "merge-root-unions" .bool absent.mergeRootUnions)))).map
      fun (rootName, rootAlias, injectProperty, mergeRootUnions) =>
        ⟨rootName, rootAlias, injectProperty, mergeRootUnions⟩)
    "struct PipelineOptions"

/-- Reads the text of a configuration. -/
def ofText (text : String) : Except Error Options :=
  (Json.decodeText decoder text).mapError .json

end Options

end Declutter
