import Tipping.Decimal.Numeral

/-!
The tokens of JSON text.

A text that breaks ends in a broken token, which says how: the text is cut off where it could
still go on, or a character stands where none like it may. What a break means can depend on
whether the value is kept or only skipped, so a broken token holds both answers. A string with
half of a surrogate pair in it is a token like any other; only it has no content to keep.
-/

namespace Tipping.Json

/-- Why a text is not JSON: it ends too early, or holds something wrong. -/
inductive Break where
  | truncated | malformed
  deriving DecidableEq, Repr

/-- What a break is for a reader that keeps the value, and for one that skips it. -/
structure Cut where
  kept : Break
  skipped : Break
  deriving DecidableEq, Repr

def Cut.both (b : Break) : Cut := ⟨b, b⟩

inductive Token where
  | openArray | closeArray | openObject | closeObject | comma | colon
  | null
  | bool (b : Bool)
  | number (n : Numeral)
  | string (content : Option String)
  | brokenString (cut : Cut)
  | broken (cut : Cut)
  deriving DecidableEq, Repr

end Tipping.Json
