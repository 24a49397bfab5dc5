import Mathlib.Tactic.Lemma
import Tipping.Json.ParseTree
import Tipping.Proofs.Decimal.Numeral

/-!
The grammar of JSON.

A text of JSON is a row of tokens, with blanks anywhere between them, and the tokens are those that
its value is made of. None of this depends on how a text is read, or what for: arrays and objects
nest as deep as they like, numbers are as long as they like, and a string may hold half of a
surrogate pair, although it has no content then.
-/

namespace Tipping.Json

def Blanks (s : List Char) : Prop := ∀ c ∈ s, isSpace c = true

/-- The power of ten at the end of a numeral, where there is one. -/
inductive PowerText : List Char → Option Int → Prop where
  | none : PowerText [] none
  | unsigned {e : Char} {ds : List Digit} (he : e = 'e' ∨ e = 'E') (hds : ds ≠ []) :
      PowerText (e :: textOfDigits ds) (some (ofDigits ds))
  | plus {e : Char} {ds : List Digit} (he : e = 'e' ∨ e = 'E') (hds : ds ≠ []) :
      PowerText (e :: '+' :: textOfDigits ds) (some (ofDigits ds))
  | minus {e : Char} {ds : List Digit} (he : e = 'e' ∨ e = 'E') (hds : ds ≠ []) :
      PowerText (e :: '-' :: textOfDigits ds) (some (-(ofDigits ds : Int)))

/-- The point and the digits after it, if there are any. -/
def fractionText (ds : List Digit) : List Char :=
  if ds.isEmpty then [] else '.' :: textOfDigits ds

inductive PieceText : List Char → Piece → Prop where
  | plain {c : Char} (hquote : c ≠ '"') (hback : c ≠ '\\') (h : isControl c = false) :
      PieceText [c] (.plain c)
  | escape {c p : Char} (h : shortEscape? c = some p) : PieceText ['\\', c] (.plain p)
  | unit {a b c d : Char} {u : Nat} (h : hexUnit? a b c d = some u) :
      PieceText ['\\', 'u', a, b, c, d] (.unit u)

inductive PiecesText : List Char → List Piece → Prop where
  | nil : PiecesText [] []
  | cons {s s' : List Char} {p : Piece} {ps : List Piece} (h : PieceText s p)
      (hs : PiecesText s' ps) : PiecesText (s ++ s') (p :: ps)

/-- What the pieces of a string say, unless a surrogate is without the other half. -/
def contentOf (ps : List Piece) : Option String :=
  (joinPieces .malformed ps).toOption.map String.ofList

/-- How a token is written. -/
inductive Token.Text : Token → List Char → Prop where
  | openArray : Text .openArray ['[']
  | closeArray : Text .closeArray [']']
  | openObject : Text .openObject [Char.ofNat 0x7B]
  | closeObject : Text .closeObject [Char.ofNat 0x7D]
  | comma : Text .comma [',']
  | colon : Text .colon [':']
  | nullWord : Text .null ['n', 'u', 'l', 'l']
  | trueWord : Text (.bool true) ['t', 'r', 'u', 'e']
  | falseWord : Text (.bool false) ['f', 'a', 'l', 's', 'e']
  | number {n : Numeral} {power : List Char} (hn : n.Plain) (hp : PowerText power n.power) :
      Text (.number n) ((if n.negative then ['-'] else []) ++
        (textOfDigits n.whole ++ (fractionText n.fraction ++ power)))
  | string {s : List Char} {ps : List Piece} (h : PiecesText s ps) :
      Text (.string (contentOf ps)) ('"' :: (s ++ ['"']))

/-- The text is these tokens, with blanks between them and around them. -/
inductive Spelled : List Char → List Token → Prop where
  | blanks {s : List Char} (h : Blanks s) : Spelled s []
  | token {b x s : List Char} {t : Token} {ts : List Token} (hb : Blanks b) (hx : t.Text x)
      (hs : Spelled s ts) : Spelled (b ++ (x ++ s)) (t :: ts)

/-- Tokens with commas between them. -/
def commaTokens : List (List Token) → List Token
  | [] => []
  | ts :: tss => ts ++ tss.flatMap (.comma :: ·)

namespace ParseTree

mutual

/-- The tokens that a value is made of. -/
def tokens : ParseTree → List Token
  | null => [.null]
  | bool b => [.bool b]
  | number n => [.number n]
  | string content => [.string content]
  | array items _ => .openArray :: commaTokens (itemTokens items) ++ [.closeArray]
  | object members _ => .openObject :: commaTokens (memberTokens members) ++ [.closeObject]
  | broken _ => []

def itemTokens : List ParseTree → List (List Token)
  | [] => []
  | t :: ts => t.tokens :: itemTokens ts

def memberTokens : List (Option String × ParseTree) → List (List Token)
  | [] => []
  | (name, t) :: ms => (.string name :: .colon :: t.tokens) :: memberTokens ms

end

mutual

/-- Nothing in the tree is broken or left open. -/
def Unbroken : ParseTree → Prop
  | array items ending => UnbrokenItems items ∧ ending = none
  | object members ending => UnbrokenMembers members ∧ ending = none
  | broken _ => False
  | _ => True

def UnbrokenItems : List ParseTree → Prop
  | [] => True
  | t :: ts => t.Unbroken ∧ UnbrokenItems ts

def UnbrokenMembers : List (Option String × ParseTree) → Prop
  | [] => True
  | (_, t) :: ms => t.Unbroken ∧ UnbrokenMembers ms

end

lemma Unbroken.skip {t : ParseTree} (h : t.Unbroken) : t.skip = none := by
  cases t with
  | array _ ending => simp [ParseTree.skip, h.2]
  | object _ ending => simp [ParseTree.skip, h.2]
  | broken _ => exact h.elim
  | _ => rfl

lemma unbroken_of_mem {ms : List (Option String × ParseTree)} (h : UnbrokenMembers ms) :
    ∀ m ∈ ms, m.2.Unbroken := by
  induction ms with
  | nil => nofun
  | cons m ms ih => exact List.forall_mem_cons.mpr ⟨h.1, ih h.2⟩

/-- The text is JSON, and this is the tree of its value. -/
structure TextOf (t : ParseTree) (s : List Char) : Prop where
  unbroken : t.Unbroken
  spelled : Spelled s t.tokens

end ParseTree

end Tipping.Json
