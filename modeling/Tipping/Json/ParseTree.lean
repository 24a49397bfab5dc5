import Tipping.Json.Lexer

/-!
The form of a JSON text, as a tree.

A tree holds what a text says up to its first break, and nothing about what the text is for. The
break shows in two places: the value it falls in is `broken`, and every array or object open at
that point keeps it as its ending. So a value is skipped by a look at its ending, while a reader
that keeps the values goes through them from left to right and meets the break where it is.

Containers part way through are held in a list of frames, so nesting has no limit here.
-/

namespace Tipping.Json

/-- An array or object without an ending is closed. A member whose name cannot be kept has
none. -/
inductive ParseTree where
  | null
  | bool (b : Bool)
  | number (n : Numeral)
  | string (content : Option String)
  | array (items : List ParseTree) (ending : Option Cut)
  | object (members : List (Option String × ParseTree)) (ending : Option Cut)
  | broken (cut : Cut)
  deriving Repr, Inhabited

namespace ParseTree

/-- What a reader that skips the value meets. -/
def skip : ParseTree → Option Break
  | array _ ending => ending.map Cut.skipped
  | object _ ending => ending.map Cut.skipped
  | broken cut => some cut.skipped
  | _ => none

/-! ### Growing a tree from tokens -/

/-- An open container: what came before the value that is due, the latest first. -/
inductive Frame where
  | array (before : List ParseTree)
  | object (before : List (Option String × ParseTree)) (name : Option String)

/-- What may come next. -/
inductive Place where
  | value
  | name (before : List (Option String × ParseTree))
  | colon (before : List (Option String × ParseTree)) (name : Option String)
  | after (t : ParseTree)

def Frame.plug (t : ParseTree) (ending : Option Cut) : Frame → ParseTree
  | .array before => .array (t :: before).reverse ending
  | .object before name => .object ((name, t) :: before).reverse ending

/-- The text breaks after `t`, and with it every open container. -/
def breakOff (cut : Cut) (t : ParseTree) (frames : List Frame) : ParseTree :=
  frames.foldl (fun t f => f.plug t (some cut)) t

def cutOff (cut : Cut) (frames : List Frame) : ParseTree := breakOff cut (.broken cut) frames

/-- The tokens that are a value by themselves. -/
def ofToken? : Token → Option ParseTree
  | .null => some .null
  | .bool b => some (.bool b)
  | .number n => some (.number n)
  | .string s => some (.string s)
  | _ => none

/-- What breaks where a value is due. -/
def valueCut : List Token → Cut
  | [] => .both .truncated
  | .broken cut :: _ => cut
  | .brokenString cut :: _ => cut
  | _ :: _ => .both .malformed

/-- What breaks where a member's name is due. -/
def nameCut : List Token → Cut
  | [] => .both .truncated
  | .brokenString cut :: _ => cut
  | _ :: _ => .both .malformed

/-- What breaks where a comma, a colon or a bracket is due. -/
def markCut : List Token → Cut
  | [] => .both .truncated
  | _ :: _ => .both .malformed

/-- The tree of the value at the front, and whether tokens follow it. -/
def grow : Place → List Frame → List Token → ParseTree × Bool
  | .value, fs, .openArray :: .closeArray :: ts => grow (.after (.array [] none)) fs ts
  | .value, fs, .openArray :: ts => grow .value (.array [] :: fs) ts
  | .value, fs, .openObject :: .closeObject :: ts => grow (.after (.object [] none)) fs ts
  | .value, fs, .openObject :: ts => grow (.name []) fs ts
  | .value, fs, [] => (cutOff (valueCut []) fs, false)
  | .value, fs, t :: ts =>
    match ofToken? t with
    | some leaf => grow (.after leaf) fs ts
    | none => (cutOff (valueCut (t :: ts)) fs, false)
  | .name before, fs, .string name :: ts => grow (.colon before name) fs ts
  | .name before, fs, ts =>
    (breakOff (nameCut ts) (.object before.reverse (some (nameCut ts))) fs, false)
  | .colon before name, fs, .colon :: ts => grow .value (.object before name :: fs) ts
  | .colon before name, fs, ts => (cutOff (markCut ts) (.object before name :: fs), false)
  | .after t, [], ts => (t, !ts.isEmpty)
  | .after t, .array before :: fs, .comma :: ts => grow .value (.array (t :: before) :: fs) ts
  | .after t, .array before :: fs, .closeArray :: ts =>
    grow (.after (.array (t :: before).reverse none)) fs ts
  | .after t, .object before name :: fs, .comma :: ts => grow (.name ((name, t) :: before)) fs ts
  | .after t, .object before name :: fs, .closeObject :: ts =>
    grow (.after (.object ((name, t) :: before).reverse none)) fs ts
  | .after t, f :: fs, ts => (breakOff (markCut ts) t (f :: fs), false)
termination_by structural _ _ ts => ts

/-- The tree of a text, and whether anything but blanks follows the value. -/
def ofText (s : List Char) : ParseTree × Bool := grow .value [] (lex s)

end ParseTree

/-! ### Writing -/

def hexChar (n : Nat) : Char := if n < 10 then Char.ofNat (48 + n) else Char.ofNat (87 + n)

/-- Quotes, backslashes and controls are escaped, the usual controls by their letter. -/
def escapeChar (c : Char) : List Char :=
  if c = '"' then ['\\', '"']
  else if c = '\\' then ['\\', '\\']
  else if c.toNat = 8 then ['\\', 'b']
  else if c = '\t' then ['\\', 't']
  else if c = '\n' then ['\\', 'n']
  else if c.toNat = 12 then ['\\', 'f']
  else if c = '\r' then ['\\', 'r']
  else if isControl c then ['\\', 'u', '0', '0', hexChar (c.toNat / 16), hexChar (c.toNat % 16)]
  else [c]

def stringText (s : String) : List Char := '"' :: s.toList.flatMap escapeChar ++ ['"']

def commaSeparated : List (List Char) → List Char
  | [] => []
  | [s] => s
  | s :: ss => s ++ ',' :: commaSeparated ss

namespace ParseTree

mutual

/-- The text of a tree, without blanks. What a broken tree lacks is left out. -/
def text : ParseTree → List Char
  | null => ['n', 'u', 'l', 'l']
  | bool true => ['t', 'r', 'u', 'e']
  | bool false => ['f', 'a', 'l', 's', 'e']
  | number n => n.text
  | string s => stringText (s.getD "")
  | array items _ => '[' :: commaSeparated (itemTexts items) ++ [']']
  | object members _ =>
    Char.ofNat 0x7B :: commaSeparated (memberTexts members) ++ [Char.ofNat 0x7D]
  | broken _ => []

def itemTexts : List ParseTree → List (List Char)
  | [] => []
  | t :: ts => t.text :: itemTexts ts

def memberTexts : List (Option String × ParseTree) → List (List Char)
  | [] => []
  | (name, t) :: ms => (stringText (name.getD "") ++ ':' :: t.text) :: memberTexts ms

end

end ParseTree

end Tipping.Json
