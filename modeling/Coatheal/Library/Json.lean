import Coatheal.Library.PyText

/-!
# JSON values as Python sees them

The values that `json.loads` gives and `json.dumps` takes, and what `int`, an
index and a loop make of a value that may be of any kind.
-/

namespace Coatheal.Library

open PyText

/-- A JSON value. The names of a dict are in its order. -/
inductive Json where
  | null
  | bool (value : Bool)
  | int (value : ℤ)
  | float (value : Double)
  | str (text : List Char)
  | list (items : List Json)
  | dict (entries : List (List Char × Json))

/-- The exceptions that a look at a value may raise. -/
inductive PyError where
  | typeError
  | valueError
  | indexError
  | keyError
  | overflowError
deriving DecidableEq

namespace Json

/-- `int` of a value. -/
def toInt : Json → Except PyError ℤ
  | null => .error .typeError
  | bool value => .ok (if value then 1 else 0)
  | int value => .ok value
  | float value =>
    match value.magnitude with
    | .finite size => .ok (if value.negative then -⌊(size : ℚ)⌋ else ⌊(size : ℚ)⌋)
    | .infinite => .error .overflowError
    | .nan => .error .valueError
  | str text =>
    match PyText.int text with
    | some value => .ok value
    | none => .error .valueError
  | list _ => .error .typeError
  | dict _ => .error .typeError

/-- The element of a value at a place. -/
def element (place : ℕ) : Json → Except PyError Json
  | str text =>
    match text[place]? with
    | some c => .ok (str [c])
    | none => .error .indexError
  | list items =>
    match items[place]? with
    | some item => .ok item
    | none => .error .indexError
  | dict _ => .error .keyError
  | _ => .error .typeError

/-- What a loop over a value runs through; nothing for a value that is false. -/
def elements : Json → Except PyError (List Json)
  | null => .ok []
  | str text => .ok (text.map fun c => str [c])
  | list items => .ok items
  | dict entries => .ok (entries.map fun entry => str entry.1)
  | _ => .error .typeError

/-- A value counts as true. -/
def isTrue : Json → Bool
  | null => false
  | bool value => value
  | int value => decide (value ≠ 0)
  | float value => decide (value.magnitude ≠ .finite 0)
  | str text => decide (text ≠ [])
  | list items => !items.isEmpty
  | dict entries => !entries.isEmpty

/-- `float` of a value. -/
def toFloat : Json → Except PyError Double
  | null => .error .typeError
  | bool value => .ok ⟨false, .finite (if value then 1 else 0)⟩
  | int value =>
    match doubleOf |(value : ℚ)| with
    | .finite size => .ok ⟨decide (value < 0), .finite size⟩
    | _ => .error .overflowError
  | float value => .ok value
  | str text =>
    match PyText.float text with
    | some value => .ok value
    | none => .error .valueError
  | list _ => .error .typeError
  | dict _ => .error .typeError

/-- `list` of a value. -/
def toList : Json → Except PyError (List Json)
  | str text => .ok (text.map fun c => str [c])
  | list items => .ok items
  | dict entries => .ok (entries.map fun entry => str entry.1)
  | _ => .error .typeError

end Json

end Coatheal.Library
