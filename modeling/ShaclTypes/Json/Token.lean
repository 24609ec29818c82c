import ShaclTypes.Json.Number
set_option autoImplicit false

/-!
# The tokens of JSON text

Text is cut into brackets, separators, words, numbers and strings by one pass
over its characters.  A string whose escapes leave a surrogate without its
partner is a well-formed token that stands for no text; it is kept as a token
with `none`, because such a string may stand where its value is never used.
-/

namespace ShaclTypes.Json

/-- A token. -/
inductive Token where
  | openArray
  | closeArray
  | openObject
  | closeObject
  | comma
  | colon
  | null
  | bool (value : Bool)
  | number (value : Number)
  | string (value : Option String)
  deriving DecidableEq, Repr, Inhabited

/-- The brackets and separators. -/
def punctuation? : Char → Option Token
  | '[' => some .openArray
  | ']' => some .closeArray
  | '\x7b' => some .openObject
  | '\x7d' => some .closeObject
  | ',' => some .comma
  | ':' => some .colon
  | _ => none

/-- The characters allowed between tokens. -/
def isSpace (c : Char) : Bool := c == ' ' || c == '\t' || c == '\n' || c == '\r'

/-- The characters that can occur in a number. -/
def isNumberChar (c : Char) : Bool :=
  c.isDigit || c == '-' || c == '+' || c == '.' || c == 'e' || c == 'E'

/-! ## Strings -/

/-- The characters with an escape of one letter. -/
def letterEscape? : Char → Option Char
  | '"' => some '"'
  | '\\' => some '\\'
  | '/' => some '/'
  | 'b' => some '\x08'
  | 'f' => some '\x0c'
  | 'n' => some '\n'
  | 'r' => some '\r'
  | 't' => some '\t'
  | _ => none

/-- The value of a hexadecimal digit of either case. -/
def hexDigit? (c : Char) : Option Nat :=
  if c.isDigit then some (c.toNat - '0'.toNat)
  else if 'a' ≤ c ∧ c ≤ 'f' then some (c.toNat - 'a'.toNat + 10)
  else if 'A' ≤ c ∧ c ≤ 'F' then some (c.toNat - 'A'.toNat + 10)
  else none

/-- The sixteen-bit unit that four hexadecimal digits write. -/
def unit? (a b c d : Char) : Option Nat := do
  return ((← hexDigit? a) * 16 + (← hexDigit? b)) * 256 + (← hexDigit? c) * 16 + (← hexDigit? d)

/-- The units that open a surrogate pair. -/
def isLeading (unit : Nat) : Bool := 0xD800 ≤ unit && unit ≤ 0xDBFF

/-- The units that close a surrogate pair. -/
def isTrailing (unit : Nat) : Bool := 0xDC00 ≤ unit && unit ≤ 0xDFFF

/-- The text of a string's code points, in which a pair of surrogates stands
for one character and a surrogate on its own for none. -/
def joinUnits : List Nat → Option (List Char)
  | [] => some []
  | [unit] => if isLeading unit || isTrailing unit then none else some [Char.ofNat unit]
  | unit :: next :: rest =>
    if isLeading unit then
      if isTrailing next then
        (joinUnits rest).map (Char.ofNat (0x10000 + (unit - 0xD800) * 0x400 + (next - 0xDC00)) :: ·)
      else none
    else if isTrailing unit then none
    else (joinUnits (next :: rest)).map (Char.ofNat unit :: ·)

/-! ## Scanning -/

mutual

/-- Scan from between two tokens; `done` holds the tokens so far, last first. -/
def scan (done : List Token) : List Char → Option (List Token)
  | [] => some done.reverse
  | 'n' :: 'u' :: 'l' :: 'l' :: rest => scan (.null :: done) rest
  | 't' :: 'r' :: 'u' :: 'e' :: rest => scan (.bool true :: done) rest
  | 'f' :: 'a' :: 'l' :: 's' :: 'e' :: rest => scan (.bool false :: done) rest
  | '"' :: rest => scanString done [] rest
  | c :: rest =>
    if isSpace c then scan done rest
    else if c.isDigit || c == '-' then scanNumber done [c] rest
    else match punctuation? c with
      | some token => scan (token :: done) rest
      | none => none

/-- Scan inside a number; `read` holds its characters so far, last first.  Only
a space, a bracket or a separator can end it. -/
def scanNumber (done : List Token) (read : List Char) : List Char → Option (List Token)
  | [] => (Number.ofChars? read.reverse).map fun n => (Token.number n :: done).reverse
  | c :: rest =>
    if isNumberChar c then scanNumber done (c :: read) rest
    else match Number.ofChars? read.reverse with
      | none => none
      | some n =>
        if isSpace c then scan (.number n :: done) rest
        else match punctuation? c with
          | some token => scan (token :: .number n :: done) rest
          | none => none

/-- Scan inside a string; `units` holds its code points so far, last first.  A
control character cannot stand in a string unescaped. -/
def scanString (done : List Token) (units : List Nat) : List Char → Option (List Token)
  | [] => none
  | '"' :: rest => scan (.string ((joinUnits units.reverse).map String.ofList) :: done) rest
  | '\\' :: 'u' :: a :: b :: c :: d :: rest =>
    match unit? a b c d with
    | some unit => scanString done (unit :: units) rest
    | none => none
  | '\\' :: c :: rest =>
    match letterEscape? c with
    | some escaped => scanString done (escaped.toNat :: units) rest
    | none => none
  | c :: rest => if c.toNat < 0x20 then none else scanString done (c.toNat :: units) rest

end

/-- The tokens of a text, if it can be cut into tokens. -/
def Token.ofText? (text : String) : Option (List Token) := scan [] text.toList

end ShaclTypes.Json
