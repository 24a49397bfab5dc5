import Tipping.Json.Basic
import Tipping.Text.Quoted

/-!
Why a text or a value is not of an expected type: its form breaks, or its content does not fit.
-/

namespace Tipping.Json

/-- What was found where something else was expected. -/
inductive Found where
  | null
  | bool (b : Bool)
  | integer (n : Int)
  | double (x : Binary64)
  | string (s : String)
  | array
  | object
  deriving DecidableEq, Repr

inductive Mismatch where
  | wrongType (found : Found) (expected : String)
  | outOfRange (n : Int) (expected : String)
  | tooShort (count : Nat) (record : String) (fields : Nat)
  | tooLong (count : Nat)
  | missing (field : String)
  | repeated (field : String)
  deriving DecidableEq, Repr

inductive Fault where
  | form (b : Break)
  | content (m : Mismatch)
  deriving DecidableEq, Repr

def Number.found : Number → Found
  | integer n _ => .integer n
  | double x => .double x

def found : Json → Found
  | .null => .null
  | .bool b => .bool b
  | .number n => n.found
  | .string s => .string s
  | .array _ => .array
  | .object _ => .object

def ticked (s : String) : String :=
  let tick := String.singleton (Char.ofNat 0x60)
  tick ++ s ++ tick

def Found.text : Found → String
  | null => "null"
  | bool b => "boolean " ++ ticked (if b then "true" else "false")
  | integer n => "integer " ++ ticked (toString n)
  | double x => "floating point " ++ ticked (String.ofList (x.numeral layout).text)
  | string s => "string " ++ quoted s
  | array => "sequence"
  | object => "map"

def Mismatch.message : Mismatch → String
  | wrongType found expected => "invalid type: " ++ found.text ++ ", expected " ++ expected
  | outOfRange n expected =>
    "invalid value: integer " ++ ticked (toString n) ++ ", expected " ++ expected
  | tooShort count record fields =>
    "invalid length " ++ toString count ++ ", expected struct " ++ record ++ " with " ++
      toString fields ++ (if fields = 1 then " element" else " elements")
  | tooLong count =>
    "invalid length " ++ toString count ++ ", expected fewer elements in array"
  | missing field => "missing field " ++ ticked field
  | repeated field => "duplicate field " ++ ticked field

def Break.message : Break → String
  | truncated => "<eof>"
  | malformed => "<syntax>"

def Fault.message : Fault → String
  | form b => b.message
  | content m => m.message

end Tipping.Json
