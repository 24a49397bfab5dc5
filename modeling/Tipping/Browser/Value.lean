import Tipping.IntIn
import Tipping.Json.Basic

/-!
JavaScript values, as far as they pass between the program and its browser.

An object that refers to itself is opaque: it has no properties to read and no JSON text.
Objects list their members by name, but in text the names that are array indices come first.
-/

namespace Tipping.Browser

inductive JsNumber where
  | finite (x : Binary64)
  | nan
  | infinity (negative : Bool)
  deriving DecidableEq, Repr

inductive JsValue where
  | undefined
  | null
  | bool (b : Bool)
  | number (n : JsNumber)
  | string (s : String)
  | array (items : List JsValue)
  | object (members : List (String × JsValue))
  | cyclic
  deriving Repr, Inhabited

/-- What the browser throws when a value is misused. -/
inductive TypeFault where
  | circular
  | noObject
  deriving DecidableEq, Repr

def TypeFault.text : TypeFault → String
  | circular => "TypeError: Converting circular structure to JSON"
  | noObject => "TypeError: Reflect.get called on non-object"

/-- Numbers are written without a power of ten from `1e-6` to below `1e21`. -/
def layout : Layout := ⟨-6, 20, false⟩

namespace JsNumber

def ofJson (n : Json.Number) : JsNumber := .finite n.toBinary64

/-- Zero has no sign in text. -/
def text : JsNumber → List Char
  | finite x => (layout.numeral (x.negative && !x.isZero) x.shortest).text
  | nan => "NaN".toList
  | infinity false => "Infinity".toList
  | infinity true => "-Infinity".toList

/-- The whole part if it is in range, else the end of the range it is beyond; zero if it is not
a number. -/
def toSigned32 : JsNumber → Signed32
  | finite x => IntIn.clamp _ _ (by decide) x.truncate
  | nan => .zero
  | infinity false => ⟨2147483647, by decide⟩
  | infinity true => ⟨-2147483648, by decide⟩

end JsNumber

/-- The array index that a property name spells, if it does. -/
def index? (name : String) : Option Nat :=
  let ds := name.toList.filterMap Digit.ofChar?
  let n := ofDigits ds
  if ds.length = name.length ∧ digitsOf n = ds ∧ n < 4294967295 then some n else none

namespace JsValue

mutual

def hasCycle : JsValue → Bool
  | array items => anyCycle items
  | object members => anyMemberCycle members
  | cyclic => true
  | _ => false

def anyCycle : List JsValue → Bool
  | [] => false
  | v :: vs => v.hasCycle || anyCycle vs

def anyMemberCycle : List (String × JsValue) → Bool
  | [] => false
  | (_, v) :: ms => v.hasCycle || anyMemberCycle ms

end

/-- A member's index, if its name is one, and its text. -/
structure MemberText where
  index : Option Nat
  text : List Char

/-- The order of members in text: indices by size, then the names as they come. -/
def MemberText.ordered (ms : List MemberText) : List (List Char) :=
  let indexed := ms.filter (·.index.isSome)
  let named := ms.filter (·.index.isNone)
  (indexed.mergeSort (fun a b => a.index.getD 0 ≤ b.index.getD 0) ++ named).map MemberText.text

mutual

/-- The JSON text of a value without cycles; there is none for `undefined`. -/
def jsonText? : JsValue → Option (List Char)
  | undefined => none
  | null => some Json.ParseTree.null.text
  | bool b => some (Json.ParseTree.bool b).text
  | number (.finite x) => some (JsNumber.finite x).text
  | number _ => some Json.ParseTree.null.text
  | string s => some (Json.stringText s)
  | array items => some ('[' :: Json.commaSeparated (itemTexts items) ++ [']'])
  | object members =>
    some (Char.ofNat 0x7B :: Json.commaSeparated (MemberText.ordered (memberTexts members)) ++
      [Char.ofNat 0x7D])
  | cyclic => none

def itemTexts : List JsValue → List (List Char)
  | [] => []
  | v :: vs => v.jsonText?.getD Json.ParseTree.null.text :: itemTexts vs

def memberTexts : List (String × JsValue) → List MemberText
  | [] => []
  | (name, v) :: ms =>
    match v.jsonText? with
    | some text => ⟨index? name, Json.stringText name ++ ':' :: text⟩ :: memberTexts ms
    | none => memberTexts ms

end

/-- The JSON text of a value, if it has one. -/
def stringify (v : JsValue) : Except TypeFault (Option String) :=
  if v.hasCycle then .error .circular else .ok (v.jsonText?.map String.ofList)

mutual

/-- The form in which a value is shown to people. -/
def shown : JsValue → List Char
  | undefined => "undefined".toList
  | null => "null".toList
  | bool b => (Json.ParseTree.bool b).text
  | number n => n.text
  | string s => '"' :: s.toList ++ ['"']
  | array items => '[' :: shownItems items ++ [']']
  | object members =>
    match (object members).stringify with
    | .ok text => "Object(".toList ++ (text.getD "").toList ++ [')']
    | .error _ => "Object".toList
  | cyclic => "Object".toList

def shownItems : List JsValue → List Char
  | [] => []
  | [v] => v.shown
  | v :: vs => v.shown ++ [',', ' '] ++ shownItems vs

end

def wrapped (text : List Char) : String := String.ofList ("JsValue(".toList ++ text ++ [')'])

def debug (v : JsValue) : String := wrapped v.shown

/-- Reads a property. One that is not there is undefined; primitives have none to read. -/
def property (v : JsValue) (name : String) : Except TypeFault JsValue :=
  match v with
  | object members => .ok ((members.lookup name).getD undefined)
  | array items => .ok (((index? name).bind (items[·]?)).getD undefined)
  | cyclic => .ok undefined
  | _ => .error .noObject

def string? : JsValue → Option String
  | string s => some s
  | _ => none

def bool? : JsValue → Option Bool
  | bool b => some b
  | _ => none

def number? : JsValue → Option JsNumber
  | number n => some n
  | _ => none

def isNullish : JsValue → Bool
  | undefined => true
  | null => true
  | _ => false

/-- Arrays are objects too. -/
def isObject : JsValue → Bool
  | object _ => true
  | array _ => true
  | cyclic => true
  | _ => false

end JsValue

def TypeFault.debug (f : TypeFault) : String := JsValue.wrapped f.text.toList

end Tipping.Browser
