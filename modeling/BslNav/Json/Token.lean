import BslNav.Json.Number

/-!
# BslNav.Json.Token

The tokens of a JSON text.

A text is read one character at a time; `Scan` is what has been read of the
token in progress.  Where no token can be, reading ends with the token `bad`.
Two sorts of token may be well formed and yet have no value: a string with half
of a surrogate pair, and a number beyond the largest double.  Whether that
matters depends on who reads the token, so the token says it and reading goes
on.
-/

namespace BslNav

/-- A token of a JSON text. -/
inductive Token where
  | openObject | closeObject | openArray | closeArray | comma | colon
  | null
  | bool (value : Bool)
  /-- A number, without a value when it is out of range. -/
  | number (value : Option Number)
  /-- A string, without a value when half of a surrogate pair stands alone. -/
  | string (value : Option String)
  /-- The text goes wrong here. -/
  | bad
deriving DecidableEq, Repr

namespace Token

/-! ## strings -/

/-- A surrogate that opens a pair. -/
def isHighSurrogate (n : Nat) : Bool := 0xD800 ≤ n && n < 0xDC00

/-- A surrogate that closes a pair. -/
def isLowSurrogate (n : Nat) : Bool := 0xDC00 ≤ n && n < 0xE000

/-- The characters that code units denote, surrogate pairs joined.  Plain
characters are units of their own. -/
def decodeUnits : List Nat → Option (List Char)
  | [] => some []
  | [n] =>
      if isHighSurrogate n || isLowSurrogate n then none else some [Char.ofNat n]
  | m :: n :: rest =>
      if isHighSurrogate m then
        if isLowSurrogate n then
          (decodeUnits rest).map (Char.ofNat (0x10000 + (m - 0xD800) * 0x400 + (n - 0xDC00)) :: ·)
        else none
      else if isLowSurrogate m then none
      else (decodeUnits (n :: rest)).map (Char.ofNat m :: ·)

/-- The value of a hexadecimal digit. -/
def hexDigit? (c : Char) : Option Nat :=
  if c.isDigit then some (c.toNat - '0'.toNat)
  else if 'a' ≤ c && c ≤ 'f' then some (c.toNat - 'a'.toNat + 10)
  else if 'A' ≤ c && c ≤ 'F' then some (c.toNat - 'A'.toNat + 10)
  else none

/-- What a single character after a backslash stands for. -/
def escaped? : Char → Option Char
  | '"' => some '"'
  | '\\' => some '\\'
  | '/' => some '/'
  | 'b' => some '\x08'
  | 'f' => some '\x0c'
  | 'n' => some '\n'
  | 'r' => some '\r'
  | 't' => some '\t'
  | _ => none

/-- How far an escape sequence has come. -/
inductive Escape where
  | none
  | backslash
  /-- Some hexadecimal digits are still to come; `value` is that of the ones
  read. -/
  | hex (remaining value : Nat)
deriving DecidableEq, Repr

/-! ## the scan -/

/-- The token in progress: none, a word, a number or a string, with what was
read of it, last first. -/
inductive Scan where
  | between
  | word (read : List Char)
  | numeral (read : List Char)
  | text (units : List Nat) (escape : Escape)
deriving DecidableEq, Repr

/-- The token that a word is. -/
def ofWord (word : List Char) : Token :=
  if word = "null".toList then .null
  else if word = "true".toList then .bool true
  else if word = "false".toList then .bool false
  else .bad

/-- The token that a number is. -/
def ofNumeral (chars : List Char) : Token :=
  match Numeral.ofChars? chars with
  | some m => .number m.value?
  | none => .bad

/-- The token that the code units of a string make. -/
def ofUnits (units : List Nat) : Token := .string ((decodeUnits units).map String.ofList)

/-- Blanks between tokens. -/
def isBlank (c : Char) : Bool := c = ' ' || c = '\n' || c = '\t' || c = '\r'

/-- Characters that a number may consist of. -/
def isNumeric (c : Char) : Bool :=
  c.isDigit || c = '-' || c = '+' || c = '.' || c = 'e' || c = 'E'

/-- What a character does that stands between tokens: it is a token, or begins
one, or is a blank. -/
def start (c : Char) : List Token × Scan :=
  if isBlank c then ([], .between)
  else if c.isDigit || c = '-' then ([], .numeral [c])
  else if c.isAlpha then ([], .word [c])
  else
    match c with
    | '{' => ([.openObject], .between)
    | '}' => ([.closeObject], .between)
    | '[' => ([.openArray], .between)
    | ']' => ([.closeArray], .between)
    | ',' => ([.comma], .between)
    | ':' => ([.colon], .between)
    | '"' => ([], .text [] .none)
    | _ => ([.bad], .between)

/-- What one more character of a string does to it, unless it cannot stand
there.  The quote that ends the string is not among them. -/
def extend (units : List Nat) (escape : Escape) (c : Char) : Option Scan :=
  match escape with
  | .none =>
      if c = '\\' then some (.text units .backslash)
      else if c.toNat < 0x20 then none
      else some (.text (c.toNat :: units) .none)
  | .backslash =>
      if c = 'u' then some (.text units (.hex 4 0))
      else (escaped? c).map fun e => .text (e.toNat :: units) .none
  | .hex remaining value =>
      (hexDigit? c).map fun d =>
        if remaining ≤ 1 then .text ((16 * value + d) :: units) .none
        else .text units (.hex (remaining - 1) (16 * value + d))

/-- The tokens that one more character completes, and the new scan. -/
def step (scan : Scan) (c : Char) : List Token × Scan :=
  match scan with
  | .between => start c
  | .word read =>
      if c.isAlpha then ([], .word (c :: read))
      else
        let (tokens, scan) := start c
        (ofWord read.reverse :: tokens, scan)
  | .numeral read =>
      if isNumeric c then ([], .numeral (c :: read))
      else
        let (tokens, scan) := start c
        (ofNumeral read.reverse :: tokens, scan)
  | .text units escape =>
      if c = '"' && escape = .none then ([ofUnits units.reverse], .between)
      else
        match extend units escape c with
        | some scan => ([], scan)
        | none => ([.bad], .between)

/-- The tokens that the end of the text completes. -/
def finish : Scan → List Token
  | .between => []
  | .word read => [ofWord read.reverse]
  | .numeral read => [ofNumeral read.reverse]
  | .text .. => [.bad]

/-- The tokens of the rest of a text. -/
def scanFrom (scan : Scan) : List Char → List Token
  | [] => finish scan
  | c :: cs => (step scan c).1 ++ scanFrom (step scan c).2 cs

/-- The tokens of a text.  What follows a `bad` token has no meaning. -/
def ofText (text : String) : List Token := scanFrom .between text.toList

end Token

end BslNav
