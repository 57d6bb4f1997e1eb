/-!
# General categories

Every code point has one of thirty general categories. `Category.group` names the seven wider
groups, whose letter is the first of the category's two-letter name.
-/

set_option autoImplicit false

namespace Highlighter.Unicode

/-- The general category of a code point, by its two-letter name. -/
inductive Category where
  | lu | ll | lt | lm | lo
  | mn | mc | me
  | nd | nl | no
  | pc | pd | ps | pe | pi | pf | po
  | sm | sc | sk | so
  | zs | zl | zp
  | cc | cf | cs | co | cn
  deriving DecidableEq, Repr, Inhabited

/-- The wider group of a category. -/
inductive CategoryGroup where
  | letter | mark | number | punctuation | symbol | separator | other
  deriving DecidableEq, Repr, Inhabited

namespace Category

/-- The group that a category belongs to. -/
def group : Category → CategoryGroup
  | lu | ll | lt | lm | lo => .letter
  | mn | mc | me => .mark
  | nd | nl | no => .number
  | pc | pd | ps | pe | pi | pf | po => .punctuation
  | sm | sc | sk | so => .symbol
  | zs | zl | zp => .separator
  | cc | cf | cs | co | cn => .other

end Category

end Highlighter.Unicode
