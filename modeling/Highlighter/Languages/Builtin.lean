import Highlighter.Languages.Programs
import Highlighter.Languages.Web
import Highlighter.Registry

/-!
# Built-in languages

`defaultLanguages` are known to every registry, since sources in an unknown language fall back on
them. `otherLanguages` are added to them in `Registry.withBuiltins`.
-/

set_option autoImplicit false

namespace Highlighter

namespace Languages

/-- The languages that every registry knows. -/
def defaultLanguages : List (Named Grammar) :=
  [⟨[Registry.defaultCode], anyCode⟩,
   ⟨[Registry.defaultMarkup, "htm", "html", "mxml", "xhtml", "xml", "xsl"], markup⟩,
   ⟨["in.tag"], inTag⟩,
   ⟨["uq.val"], unquotedValue⟩]

/-- The other built-in languages. -/
def otherLanguages : List (Named Grammar) :=
  [⟨["c", "cc", "cpp", "cxx", "cyc", "m"], c⟩,
   ⟨["json"], json⟩,
   ⟨["cs"], csharp⟩,
   ⟨["java"], java⟩,
   ⟨["bash", "bsh", "csh", "sh"], shell⟩,
   ⟨["cv", "py", "python"], python⟩,
   ⟨["perl", "pl", "pm"], perl⟩,
   ⟨["rb", "ruby"], ruby⟩,
   ⟨["javascript", "js"], javascript⟩,
   ⟨["coffee"], coffee⟩,
   ⟨["rc", "rs", "rust"], rust⟩,
   ⟨["proto"], proto⟩,
   ⟨["regex"], regex⟩,
   ⟨["css"], css⟩,
   ⟨["go"], go⟩,
   ⟨["lua"], lua⟩]

/-- The built-in grammar that an identifier stands for. -/
def builtin? (id : String) : Option Grammar :=
  ((defaultLanguages ++ otherLanguages).find? fun named => named.ids.contains id).map
    Named.grammar

end Languages

namespace Registry

/-- The registry that knows the default languages. -/
def initial : Registry :=
  Languages.defaultLanguages.foldl
    (fun registry named => registry.add named.ids (.described named.grammar)) empty

/-- Register languages one after the other, up to the first one that is refused. -/
def registerAll (registry : Registry) : List (Named Grammar) → Except GrammarError Unit × Registry
  | [] => (.ok (), registry)
  | named :: rest =>
    match registry.register named.ids (.described named.grammar) with
    | (.error error, after) => (.error error, after)
    | (.ok (), after) => after.registerAll rest

/-- The registry that knows all built-in languages. -/
def withBuiltins : Except GrammarError Registry :=
  match initial.registerAll Languages.otherLanguages with
  | (.ok (), registry) => .ok registry
  | (.error error, _) => .error error

end Registry

end Highlighter
