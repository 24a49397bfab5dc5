import Tipping.Json.Token

/-!
Lexing JSON text, from left to right up to the first break.

Each token is read off the front of the text and leaves a rest that is no longer than the text
after its first character, so lexing ends.
-/

namespace Tipping.Json

/-- Blanks between tokens. -/
def isSpace (c : Char) : Bool := c = ' ' || c = '\t' || c = '\n' || c = '\r'

/-- A token and the text after it, or the last token of a text that breaks. -/
inductive Lexeme where
  | next (t : Token) (rest : List Char)
  | last (t : Token)

def Lexeme.stop (b : Break) : Lexeme := .last (.broken (.both b))

/-! ### Words -/

def lexWord (t : Token) : List Char → List Char → Lexeme
  | [], s => .next t s
  | _ :: _, [] => .stop .truncated
  | w :: ws, c :: s => if c = w then lexWord t ws s else .stop .malformed

/-! ### Numbers -/

/-- The digits at the front, and the rest. -/
def spanDigits : List Char → List Digit × List Char
  | [] => ([], [])
  | c :: s =>
    match Digit.ofChar? c with
    | some d => (d :: (spanDigits s).1, (spanDigits s).2)
    | none => ([], c :: s)

/-- Digits are due but none came. A skipped number cut off here is malformed. -/
def noDigits (s : List Char) : Lexeme :=
  if s.isEmpty then .last (.broken ⟨.truncated, .malformed⟩) else .stop .malformed

def lexPower (negative : Bool) (whole fraction : List Digit) (below : Bool) (s : List Char) :
    Lexeme :=
  match spanDigits s with
  | ([], s) => noDigits s
  | (ds, s) =>
    .next (.number ⟨negative, whole, fraction,
      some (if below then -(ofDigits ds : Int) else ofDigits ds)⟩) s

def lexExponent (negative : Bool) (whole fraction : List Digit) : List Char → Lexeme
  | [] => .next (.number ⟨negative, whole, fraction, none⟩) []
  | c :: s =>
    if c = 'e' ∨ c = 'E' then
      match s with
      | '+' :: s => lexPower negative whole fraction false s
      | '-' :: s => lexPower negative whole fraction true s
      | s => lexPower negative whole fraction false s
    else .next (.number ⟨negative, whole, fraction, none⟩) (c :: s)

def lexFraction (negative : Bool) (whole : List Digit) : List Char → Lexeme
  | '.' :: s =>
    match spanDigits s with
    | ([], s) => noDigits s
    | (ds, s) => lexExponent negative whole ds s
  | s => lexExponent negative whole [] s

/-- A number after its sign. A leading zero stands alone. -/
def lexNumber (negative : Bool) (s : List Char) : Lexeme :=
  match spanDigits s with
  | ([], s) => noDigits s
  | (0 :: _ :: _, _) => .stop .malformed
  | (ds, s) => lexFraction negative ds s

/-! ### Strings -/

/-- A string is written in characters and in 16-bit units given by their number. -/
inductive Piece where
  | plain (c : Char)
  | unit (u : Nat)
  deriving DecidableEq, Repr

def hexDigit? (c : Char) : Option Nat :=
  let n := c.toNat
  if 48 ≤ n ∧ n < 58 then some (n - 48)
  else if 97 ≤ n ∧ n < 103 then some (n - 87)
  else if 65 ≤ n ∧ n < 71 then some (n - 55)
  else none

def hexUnit? (a b c d : Char) : Option Nat := do
  some (((← hexDigit? a) * 16 + (← hexDigit? b)) * 256 + (← hexDigit? c) * 16 + (← hexDigit? d))

/-- The character that a one-letter escape stands for. -/
def shortEscape? (c : Char) : Option Char :=
  if c = '"' ∨ c = '\\' ∨ c = '/' then some c
  else if c = 'b' then some (Char.ofNat 8)
  else if c = 'f' then some (Char.ofNat 12)
  else if c = 'n' then some '\n'
  else if c = 'r' then some '\r'
  else if c = 't' then some '\t'
  else none

def isControl (c : Char) : Bool := c.toNat < 32

/-- The pieces of a string up to its closing quote and the rest, or up to the break. -/
structure StringScan where
  pieces : List Piece
  outcome : Except Break (List Char)

def StringScan.push (p : Piece) (s : StringScan) : StringScan := { s with pieces := p :: s.pieces }

/-- Four hexadecimal digits do not fit into fewer than four bytes of text. -/
def shortUnit (s : List Char) : Break :=
  if (String.ofList s).utf8ByteSize < 4 then .truncated else .malformed

def scanString : List Char → StringScan
  | [] => ⟨[], .error .truncated⟩
  | '"' :: s => ⟨[], .ok s⟩
  | '\\' :: 'u' :: a :: b :: c :: d :: s =>
    match hexUnit? a b c d with
    | some u => (scanString s).push (.unit u)
    | none => ⟨[], .error .malformed⟩
  | '\\' :: 'u' :: s => ⟨[], .error (shortUnit s)⟩
  | '\\' :: c :: s =>
    match shortEscape? c with
    | some p => (scanString s).push (.plain p)
    | none => ⟨[], .error .malformed⟩
  | '\\' :: [] => ⟨[], .error .truncated⟩
  | c :: s => if isControl c then ⟨[], .error .malformed⟩ else (scanString s).push (.plain c)

def isHighHalf (u : Nat) : Bool := 0xD800 ≤ u && u < 0xDC00
def isLowHalf (u : Nat) : Bool := 0xDC00 ≤ u && u < 0xE000

/-- The characters of the pieces. A high half needs the low half as its next piece; if the
pieces end first, the string's own end decides. -/
def joinPieces (atEnd : Break) : List Piece → Except Break (List Char)
  | [] => .ok []
  | .plain c :: ps => (c :: ·) <$> joinPieces atEnd ps
  | .unit u :: ps =>
    if isLowHalf u then .error .malformed
    else if isHighHalf u then
      match ps with
      | [] => .error atEnd
      | .plain _ :: _ => .error .malformed
      | .unit v :: ps =>
        if isLowHalf v then
          (Char.ofNat (0x10000 + (u - 0xD800) * 0x400 + (v - 0xDC00)) :: ·) <$> joinPieces atEnd ps
        else .error .malformed
    else (Char.ofNat u :: ·) <$> joinPieces atEnd ps

def lexString (s : List Char) : Lexeme :=
  let scan := scanString s
  match scan.outcome with
  | .ok rest =>
    .next (.string ((joinPieces .malformed scan.pieces).toOption.map String.ofList)) rest
  | .error b =>
    match joinPieces b scan.pieces with
    | .ok _ => .last (.brokenString (.both b))
    | .error kept => .last (.brokenString ⟨kept, b⟩)

/-! ### Tokens -/

def punctuation? (c : Char) : Option Token :=
  if c = '[' then some .openArray
  else if c = ']' then some .closeArray
  else if c.toNat = 0x7B then some .openObject
  else if c.toNat = 0x7D then some .closeObject
  else if c = ',' then some .comma
  else if c = ':' then some .colon
  else none

def lexToken (c : Char) (s : List Char) : Lexeme :=
  match punctuation? c with
  | some t => .next t s
  | none =>
    if c = '"' then lexString s
    else if c = 'n' then lexWord .null ['u', 'l', 'l'] s
    else if c = 't' then lexWord (.bool true) ['r', 'u', 'e'] s
    else if c = 'f' then lexWord (.bool false) ['a', 'l', 's', 'e'] s
    else if c = '-' then lexNumber true s
    else if (Digit.ofChar? c).isSome then lexNumber false (c :: s)
    else .stop .malformed

/-! ### Lexing ends -/

/-- What is left of the text is no longer than `n`. -/
def Lexeme.Within (n : Nat) : Lexeme → Prop
  | .next _ rest => rest.length ≤ n
  | .last _ => True

theorem Lexeme.Within.mono {l : Lexeme} {m n : Nat} (h : l.Within m) (hmn : m ≤ n) :
    l.Within n := by
  cases l with
  | next => exact Nat.le_trans h hmn
  | last => trivial

theorem lexWord_within (t : Token) (ws s : List Char) : (lexWord t ws s).Within s.length := by
  induction ws generalizing s with
  | nil => exact Nat.le_refl _
  | cons w ws ih =>
    cases s with
    | nil => trivial
    | cons c s =>
      simp only [lexWord]
      split
      · exact (ih s).mono (by simp)
      · trivial

theorem length_spanDigits (s : List Char) :
    (spanDigits s).1.length + (spanDigits s).2.length = s.length := by
  induction s with
  | nil => rfl
  | cons c s ih =>
    simp only [spanDigits]
    split
    · simp only [List.length_cons]
      omega
    · simp

theorem noDigits_within (s : List Char) (n : Nat) : (noDigits s).Within n := by
  unfold noDigits
  split <;> trivial

theorem lexPower_within (negative : Bool) (whole fraction : List Digit) (below : Bool)
    (s : List Char) : (lexPower negative whole fraction below s).Within s.length := by
  have := length_spanDigits s
  unfold lexPower
  split
  · exact noDigits_within _ _
  · simp_all [Lexeme.Within]; omega

theorem lexExponent_within (negative : Bool) (whole fraction : List Digit) (s : List Char) :
    (lexExponent negative whole fraction s).Within s.length := by
  cases s with
  | nil => exact Nat.le_refl _
  | cons c s =>
    simp only [lexExponent]
    split
    · split
      · exact (lexPower_within ..).mono (by simp only [List.length_cons]; omega)
      · exact (lexPower_within ..).mono (by simp only [List.length_cons]; omega)
      · exact (lexPower_within ..).mono (by simp only [List.length_cons]; omega)
    · exact Nat.le_refl _

theorem lexFraction_within (negative : Bool) (whole : List Digit) (s : List Char) :
    (lexFraction negative whole s).Within s.length := by
  unfold lexFraction
  split
  · rename_i s
    have := length_spanDigits s
    split
    · exact noDigits_within _ _
    · exact (lexExponent_within ..).mono (by simp_all; omega)
  · exact lexExponent_within ..

theorem lexNumber_within (negative : Bool) (s : List Char) :
    (lexNumber negative s).Within (s.length - (spanDigits s).1.length) := by
  have := length_spanDigits s
  unfold lexNumber
  split
  · exact noDigits_within _ _
  · trivial
  · exact (lexFraction_within ..).mono (by simp_all; omega)

theorem scanString_within (s : List Char) :
    ∀ rest, (scanString s).outcome = .ok rest → rest.length ≤ s.length := by
  fun_induction scanString s with
  | case1 => simp
  | case2 s => simp
  | case3 a b c d s u hu ih =>
    intro rest h
    have := ih rest h
    simp; omega
  | case4 => simp
  | case5 => simp
  | case6 c s _ _ p hp ih =>
    intro rest h
    have := ih rest h
    simp; omega
  | case7 => simp
  | case8 => simp
  | case9 => simp
  | case10 c s _ _ _ _ _ _ ih =>
    intro rest h
    have := ih rest h
    simp; omega

theorem lexString_within (s : List Char) : (lexString s).Within s.length := by
  simp only [lexString]
  split
  · rename_i rest h
    exact scanString_within s rest h
  · split <;> trivial

theorem lexToken_within (c : Char) (s : List Char) : (lexToken c s).Within s.length := by
  unfold lexToken
  split
  · exact Nat.le_refl _
  split
  · exact lexString_within s
  split
  · exact lexWord_within ..
  split
  · exact lexWord_within ..
  split
  · exact lexWord_within ..
  split
  · exact (lexNumber_within true s).mono (Nat.sub_le _ _)
  split
  · rename_i h
    refine (lexNumber_within false (c :: s)).mono ?_
    obtain ⟨d, hd⟩ := Option.isSome_iff_exists.mp h
    simp [spanDigits, hd]
  · trivial

/-- The tokens of a text, the last of them broken if the text breaks. -/
def lex : List Char → List Token
  | [] => []
  | c :: s =>
    if isSpace c then lex s
    else
      match _h : lexToken c s with
      | .last t => [t]
      | .next t rest => t :: lex rest
termination_by s => s.length
decreasing_by
  · simp
  · have := lexToken_within c s
    rw [_h] at this
    simp only [Lexeme.Within] at this
    simp only [List.length_cons]
    omega

end Tipping.Json
