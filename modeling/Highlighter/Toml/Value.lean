/-!
# TOML values

A value remembers how it was written, since that decides what may be added to it later: a table in
braces is complete, a table that a dotted key made can grow by dotted keys, and an array that
headers made grows with each header.

Numbers and dates are kept as they are written.
-/

set_option autoImplicit false

namespace Highlighter.Toml

/-- What an array was made by. -/
inductive ArrayForm where
  /-- Brackets around its items. -/
  | bracketed
  /-- A header in double brackets for each item. -/
  | headed
  deriving DecidableEq, Repr

/-- What a table was made by. -/
inductive TableForm where
  /-- Braces around its entries. -/
  | braced
  /-- A header of its own. -/
  | headed
  /-- The header of a table in it. -/
  | implied
  /-- A dotted key. -/
  | dotted
  deriving DecidableEq, Repr

/-- A value. -/
inductive Value where
  | string (text : String)
  | bool (value : Bool)
  /-- A number or a date. -/
  | scalar (written : String)
  | array (form : ArrayForm) (items : List Value)
  | table (form : TableForm) (entries : List (String × Value))
  deriving Repr

/-- The entries of a table, in the order in which they came. -/
abbrev Entries := List (String × Value)

namespace Entries

/-- The entries with a value for a key. -/
def set (key : String) (value : Value) : Entries → Entries
  | [] => [(key, value)]
  | (known, old) :: rest =>
    if known == key then (key, value) :: rest else (known, old) :: set key value rest

/-- The entries with one more, at a dotted key. No key may come twice. -/
def put? (value : Value) : List String → Entries → Option Entries
  | [], _ => none
  | [key], entries =>
    if (entries.lookup key).isSome then none else some (set key value entries)
  | key :: rest, entries =>
    match entries.lookup key with
    | none => do return set key (.table .dotted (← put? value rest [])) entries
    | some (.table .dotted inner) => do
      return set key (.table .dotted (← put? value rest inner)) entries
    | some _ => none

/-- The entries with the value at the path of a header changed. The path leads through the latest
item of each array that headers made. -/
def change? (new : Option Value → Option Value) : List String → Entries → Option Entries
  | [], _ => none
  | [key], entries => do return set key (← new (entries.lookup key)) entries
  | key :: rest, entries =>
    match entries.lookup key with
    | none => do return set key (.table .implied (← change? new rest [])) entries
    | some (.table form inner) =>
      if form = .braced then none
      else do return set key (.table form (← change? new rest inner)) entries
    | some (.array .headed items) =>
      match items.reverse with
      | .table form inner :: earlier => do
        let latest := Value.table form (← change? new rest inner)
        return set key (.array .headed (latest :: earlier).reverse) entries
      | _ => none
    | some _ => none

/-- One set of entries after another. No key may come in both. -/
def append? (first : Entries) : Entries → Option Entries
  | [] => some first
  | (key, value) :: rest => do append? (← put? value [key] first) rest

/-- What the header of a table makes of what was there before. -/
def headTable? (body : Entries) : Option Value → Option Value
  | none => some (.table .headed body)
  | some (.table .implied inner) => (append? inner body).map (.table .headed)
  | some _ => none

/-- What the header of an item of an array makes of what was there before. -/
def headItem? (body : Entries) : Option Value → Option Value
  | none => some (.array .headed [.table .headed body])
  | some (.array .headed items) => some (.array .headed (items ++ [.table .headed body]))
  | some _ => none

end Entries

end Highlighter.Toml
