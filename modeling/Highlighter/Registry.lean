import Highlighter.Lexer

/-!
# Registries

A registry knows languages by their identifiers. Identifiers that were registered together share a
slot, and a grammar is compiled when its slot is first asked for. Compiling a grammar also registers
the grammars that it brings along.

Slots are numbered in the order in which they came, and are never taken away. So the number of a
slot tells which lexer it is: two identifiers have one lexer exactly if they have one slot.

Operations that can fail answer with the registry after them too, since some of them leave a mark
where they fail: a registration under a taken identifier frees that identifier.
-/

set_option autoImplicit false

namespace Highlighter

/-- What a language is registered with. -/
inductive Language where
  /-- A lexer that is ready. -/
  | compiled (lexer : Lexer)
  /-- A grammar that is compiled when it is needed. -/
  | described (grammar : Grammar)

/-- What is known of a language. -/
structure Slot where
  /-- The identifier that the language was registered with first. -/
  name : String
  grammar : Option Grammar
  lexer : Option Lexer

/-- The slot of a language, as it is when the language is registered. -/
def Slot.ofLanguage (name : String) : Language → Slot
  | .compiled lexer => ⟨name, none, some lexer⟩
  | .described grammar => ⟨name, some grammar, none⟩

/-- The known languages. -/
structure Registry where
  slots : Array Slot
  /-- Each identifier with the number of its slot. -/
  ids : List (String × Nat)

namespace Registry

/-- The grammar for sources in an unknown language that start with an angle bracket. -/
def defaultMarkup : String := "default-markup"

/-- The grammar for all other sources in an unknown language. -/
def defaultCode : String := "default-code"

/-- The registry that knows nothing. -/
def empty : Registry := ⟨#[], []⟩

/-- The number of the slot of an identifier. -/
def slotOf? (registry : Registry) (id : String) : Option Nat := registry.ids.lookup id

/-- Whether an identifier is known. -/
def isRegistered (registry : Registry) (id : String) : Bool := (registry.slotOf? id).isSome

/-- The known identifiers, sorted. -/
def languages (registry : Registry) : List String :=
  (registry.ids.map Prod.fst).mergeSort fun a b => decide (a ≤ b)

/-! ## Registration -/

/-- The identifiers with one taken out. -/
def without (id : String) (ids : List (String × Nat)) : List (String × Nat) :=
  ids.filter fun (known, _) => known != id

/-- The registry with one identifier bound to a slot. -/
def bind (registry : Registry) (number : Nat) (id : String) : Registry :=
  { registry with ids := without id registry.ids ++ [(id, number)] }

/-- The registry with a new slot for some identifiers, free or not. -/
def add (registry : Registry) (ids : List String) (language : Language) : Registry :=
  match ids with
  | [] => registry
  | name :: _ =>
    let number := registry.slots.size
    let slots := registry.slots.push (Slot.ofLanguage name language)
    ids.foldl (fun registry id => registry.bind number id) { registry with slots }

/-- The first of some identifiers that is taken, or that comes after itself. -/
def duplicateAfter? (registry : Registry) (earlier : List String) :
    List String → Option String
  | [] => none
  | id :: rest =>
    if registry.isRegistered id || earlier.contains id then some id
    else registry.duplicateAfter? (id :: earlier) rest

/-- The first of some identifiers that is taken, or that comes twice. -/
def duplicate? (registry : Registry) (ids : List String) : Option String :=
  registry.duplicateAfter? [] ids

/-- Register a language under some identifiers. If one of them is taken, nothing is registered, and
that one is freed, except that the default grammars stay. -/
def register (registry : Registry) (ids : List String) (language : Language) :
    Except GrammarError Unit × Registry :=
  match registry.duplicate? ids with
  | none => (.ok (), registry.add ids language)
  | some id =>
    let registry :=
      if id = defaultCode || id = defaultMarkup then registry
      else { registry with ids := without id registry.ids }
    (.error (.duplicateLanguage id), registry)

/-! ## Compiling -/

/-- Register the grammars that another one brings along: all of them, or none if an identifier of
one is taken or comes twice in it. -/
def addAuxiliary (registry : Registry) (auxiliary : List (Named Grammar)) :
    Except GrammarError Registry :=
  match auxiliary.findSome? fun named => registry.duplicate? named.ids with
  | some id => .error (.duplicateLanguage id)
  | none =>
    .ok (auxiliary.foldl (fun registry named => registry.add named.ids (.described named.grammar))
      registry)

/-- The registry with the lexer of a slot. -/
def setLexer (registry : Registry) (number : Nat) (lexer : Lexer) : Registry :=
  { registry with slots := registry.slots.modify number fun slot => { slot with lexer } }

/-- The lexer of a slot, compiled if it is not yet. A grammar that cannot be compiled leaves the
registry as it is. -/
def lexerOf (registry : Registry) (number : Nat) : Except GrammarError (Lexer × Registry) := do
  match registry.slots[number]? with
  | none => throw (.unknownLanguage "")
  | some slot =>
    match slot.lexer, slot.grammar with
    | some lexer, _ => return (lexer, registry)
    | none, none => throw (.unknownLanguage slot.name)
    | none, some grammar =>
      let lexer ← Lexer.ofGrammar grammar
      let registry ← registry.addAuxiliary grammar.auxiliary
      return (lexer, registry.setLexer number lexer)

/-- The grammar for a source in an unknown language. -/
def guess (source : List Char) : String :=
  if (source.dropWhile isBlank).head? == some '<' then defaultMarkup else defaultCode

/-- The number of the slot for a language. Sources in an unknown language go to a default one. -/
def slotFor (registry : Registry) (id : Option String) (source : List Char) :
    Except GrammarError Nat :=
  match id.bind registry.slotOf? with
  | some number => .ok number
  | none =>
    match registry.slotOf? (guess source) with
    | some number => .ok number
    | none => .error (.unknownLanguage (guess source))

/-- A lexer that was asked for. The number tells lexers apart. -/
structure Resolved where
  number : Nat
  lexer : Lexer

/-- The lexer for a language, and the registry after it has been compiled. A failure leaves the
registry as it is. -/
def resolve (registry : Registry) (id : Option String) (source : List Char) :
    Except GrammarError Resolved × Registry :=
  match registry.slotFor id source with
  | .error error => (.error error, registry)
  | .ok number =>
    match registry.lexerOf number with
    | .error error => (.error error, registry)
    | .ok (lexer, after) => (.ok ⟨number, lexer⟩, after)

/-! ## Compiling everything -/

/-- The numbers of the slots that have an identifier and no lexer yet. -/
def pending (registry : Registry) : List Nat :=
  (registry.ids.map Prod.snd).eraseDups.filter fun number =>
    (registry.slots[number]?.any fun slot => slot.lexer.isNone)

/-- Compile some slots, one after the other, up to the first one that fails. -/
def compileAll (registry : Registry) : List Nat → Except GrammarError Unit × Registry
  | [] => (.ok (), registry)
  | number :: rest =>
    match registry.lexerOf number with
    | .error error => (.error error, registry)
    | .ok (_, after) => after.compileAll rest

/-- Compile all that is pending, in rounds, each in an order of its own. A round may register more
grammars, which are nested in those that it compiled. The count bounds the rounds. -/
def warmUpWithin (order : List Nat → List Nat) :
    Nat → Registry → Except GrammarError Unit × Registry
  | 0, registry => (.ok (), registry)
  | rounds + 1, registry =>
    match registry.pending with
    | [] => (.ok (), registry)
    | numbers =>
      match registry.compileAll (order numbers) with
      | (.error error, after) => (.error error, after)
      | (.ok (), after) => warmUpWithin order rounds after

end Registry

mutual

/-- How many grammars there are in a grammar, itself among them. -/
def Grammar.count : Grammar → Nat
  | ⟨_, _, auxiliary⟩ => Named.countAll auxiliary + 1

/-- How many grammars there are in some grammars. -/
def Named.countAll : List (Named Grammar) → Nat
  | [] => 0
  | ⟨_, grammar⟩ :: rest => grammar.count + Named.countAll rest

end

/-- How many grammars a slot stands for. -/
def Slot.count (slot : Slot) : Nat :=
  match slot.grammar with
  | some grammar => grammar.count
  | none => 1

namespace Registry

/-- How many grammars the registry knows, those included that others bring along. -/
def count (registry : Registry) : Nat :=
  registry.slots.foldl (fun total slot => total + slot.count) 0

/-- Compile everything, also what is registered on the way. -/
def warmUp (registry : Registry) : Except GrammarError Unit × Registry :=
  warmUpWithin id (registry.count + 1) registry

end Registry

end Highlighter
