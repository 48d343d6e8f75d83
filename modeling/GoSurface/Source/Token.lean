/-
# Blanks, words and literals

The tokens of Go source.  White space and comments stand between tokens; whether a line end is
white space or a token of its own depends on the place, so every token reader is told which gap may
stand in front of it.

* `Gap` and `blanks`: what may be skipped;
* `symbol`, `word`, `name`, `keyword`, `terminator`: tokens;
* `literal`: numbers, characters and strings.
-/
import GoSurface.Source.Reader
import GoSurface.Syntax.Ident
import GoSurface.Text.Word

namespace GoSurface.Source

open Reader

/-! ## Blanks -/

/-- What may stand in front of a token: blanks on one line, or line ends too. -/
inductive Gap where
  | line
  | any
deriving DecidableEq

/-- Where skipping blanks has got to; a block comment remembers the text from its start on. -/
inductive BlankState where
  | code
  | lineComment
  | blockComment (start : List Char)

/-- White space other than the line end. -/
def isInlineSpace (c : Char) : Bool :=
  c = ' ' || c = '\t' || c = '\r' || c = '\x0b' || c = '\x0c'

/-- The text after white space and comments; what never ends is no comment. -/
def skipBlanks (gap : Gap) : BlankState → List Char → List Char
  | .code, '/' :: '/' :: cs => skipBlanks gap .lineComment cs
  | .code, '/' :: '*' :: cs => skipBlanks gap (.blockComment ('/' :: '*' :: cs)) cs
  | .code, c :: cs =>
    if isInlineSpace c || (c = '\n' && gap = .any) then skipBlanks gap .code cs else c :: cs
  | .code, [] => []
  | .lineComment, c :: cs =>
    if c = '\n' then
      match gap with
      | .any => skipBlanks gap .code cs
      | .line => c :: cs
    else skipBlanks gap .lineComment cs
  | .lineComment, [] => []
  | .blockComment _, '*' :: '/' :: cs => skipBlanks gap .code cs
  | .blockComment start, _ :: cs => skipBlanks gap (.blockComment start) cs
  | .blockComment start, [] => start

/-- Skips what a gap may hold. -/
def blanks (gap : Gap) : Reader Unit := fun cs => some ((), skipBlanks gap .code cs)

/-- The next character after a gap, left in place. -/
def peek (gap : Gap) : Reader (Option Char) := lookahead do
  blanks gap
  return (← rest).head?

/-! ## Symbols and words -/

/-- An operator or bracket. -/
def symbol (gap : Gap) (s : String) : Reader Unit := do
  blanks gap
  exactly s.toList

/-- Whether a symbol comes next. -/
def symbolAhead (gap : Gap) (s : String) : Reader Bool := do
  return (← optionally (lookahead (symbol gap s))).isSome

/-- The end of a declaration, statement or field: a line end, a semicolon or a null character. -/
def terminator : Reader Unit := do
  blanks .line
  let _ ← charOf fun c => c = '\n' || c = ';' || c = '\x00'

/-- The longest word at the front of a text, with what follows it. -/
def wordOf : List Char → Option (String × List Char)
  | [] => none
  | c :: cs =>
    if Text.startsWord c then
      some (String.ofList (c :: cs.takeWhile Text.continuesWord), cs.dropWhile Text.continuesWord)
    else none

/-- A word: an identifier or a keyword. -/
def word (gap : Gap) : Reader String := do
  blanks gap
  fun cs => wordOf cs

/-- One particular word. -/
def keyword (gap : Gap) (k : String) : Reader Unit := do
  let w ← word gap
  require (w = k)

/-- An identifier.  A keyword is reserved only where the grammar has a use for it, so the place
says which words it reserves. -/
def name (gap : Gap) (reserved : List String) : Reader String := do
  let w ← word gap
  require (w ∉ reserved)
  return w

/-- The word that comes next, left in place. -/
def wordAhead (gap : Gap) : Reader (Option String) :=
  optionally (lookahead (word gap))

/-! ## Numbers -/

/-- Digits after a first one, with single underscores between them. -/
def dropDigits (digit : Char → Bool) : List Char → List Char
  | '_' :: c :: cs => if digit c then dropDigits digit cs else '_' :: c :: cs
  | c :: cs => if digit c then dropDigits digit cs else c :: cs
  | [] => []

/-- The text after one or more digits. -/
def digits (digit : Char → Bool) : List Char → Option (List Char)
  | c :: cs => if digit c then some (dropDigits digit cs) else none
  | [] => none

/-- The text after a character of a class. -/
def after (p : Char → Bool) : List Char → Option (List Char)
  | c :: cs => if p c then some cs else none
  | [] => none

/-- The text after a character of a class, or the text itself. -/
def afterOptional (p : Char → Bool) (cs : List Char) : List Char :=
  (after p cs).getD cs

def isUnderscore (c : Char) : Bool := c = '_'
def isPoint (c : Char) : Bool := c = '.'
def isZero (c : Char) : Bool := c = '0'
def isSign (c : Char) : Bool := c = '+' || c = '-'
def isBinaryDigit (c : Char) : Bool := c = '0' || c = '1'
def isOctalDigit (c : Char) : Bool := '0' ≤ c && c ≤ '7'
def isHexDigit (c : Char) : Bool :=
  c.isDigit || ('a' ≤ c && c ≤ 'f') || ('A' ≤ c && c ≤ 'F')

/-- The text after `0`, a base letter, an optional underscore and digits of the base. -/
def basedInt (letter : Char → Bool) (digit : Char → Bool) (cs : List Char) : Option (List Char) := do
  let cs ← after isZero cs
  let cs ← after letter cs
  digits digit (afterOptional isUnderscore cs)

/-- The texts after the integer literals at the front of a text. -/
def intEnds (cs : List Char) : List (List Char) :=
  let octal := do
    let cs ← after isZero cs
    digits isOctalDigit (afterOptional isUnderscore cs)
  let decimal := do
    let rest ← after (fun c => '1' ≤ c && c ≤ '9') cs
    return dropDigits Char.isDigit rest
  [after isZero cs, decimal, octal,
    basedInt (fun c => c = 'b' || c = 'B') isBinaryDigit cs,
    basedInt (fun c => c = 'o' || c = 'O') isOctalDigit cs,
    basedInt (fun c => c = 'x' || c = 'X') isHexDigit cs].filterMap id

/-- The text after an exponent. -/
def exponent (letter : Char → Bool) (cs : List Char) : Option (List Char) := do
  let cs ← after letter cs
  digits Char.isDigit (afterOptional isSign cs)

/-- A text with and without an exponent at its front. -/
def withExponent (cs : List Char) : List (List Char) :=
  cs :: (exponent (fun c => c = 'e' || c = 'E') cs).toList

/-- The texts after the decimal floating-point literals at the front of a text. -/
def decimalFloatEnds (cs : List Char) : List (List Char) :=
  let pointed := do
    let cs ← digits Char.isDigit cs
    let cs ← after isPoint cs
    return (digits Char.isDigit cs).getD cs
  let scaled := do
    let cs ← digits Char.isDigit cs
    exponent (fun c => c = 'e' || c = 'E') cs
  let fraction := do
    let cs ← after isPoint cs
    digits Char.isDigit cs
  (pointed.toList.flatMap withExponent) ++ scaled.toList ++ (fraction.toList.flatMap withExponent)

/-- The texts after the hexadecimal floating-point literals at the front of a text. -/
def hexFloatEnds (cs : List Char) : List (List Char) :=
  let body := do
    let cs ← after isZero cs
    after (fun c => c = 'x' || c = 'X') cs
  let whole := do
    let cs ← body
    digits isHexDigit (afterOptional isUnderscore cs)
  let pointed := do
    let cs ← whole
    let cs ← after isPoint cs
    return (digits isHexDigit cs).getD cs
  let fraction := do
    let cs ← body
    let cs ← after isPoint cs
    digits isHexDigit cs
  [whole, pointed, fraction].filterMap fun mantissa => do
    let cs ← mantissa
    exponent (fun c => c = 'p' || c = 'P') cs

/-- The texts after the floating-point literals at the front of a text. -/
def floatEnds (cs : List Char) : List (List Char) :=
  decimalFloatEnds cs ++ hexFloatEnds cs

/-- The texts after the imaginary literals at the front of a text. -/
def imaginaryEnds (cs : List Char) : List (List Char) :=
  ((digits Char.isDigit cs).toList ++ intEnds cs ++ floatEnds cs).filterMap
    (after fun c => c = 'i')

/-- The kinds of number at the front of a text, each with what follows it. -/
def numberEnds (cs : List Char) : List (LitKind × List Char) :=
  (intEnds cs).map (LitKind.int, ·) ++ (floatEnds cs).map (LitKind.float, ·) ++
    (imaginaryEnds cs).map (LitKind.imaginary, ·)

/-- The longer of two literals: the one that leaves less of the text. -/
def longer (best : Option (LitKind × List Char)) (next : LitKind × List Char) :
    Option (LitKind × List Char) :=
  match best with
  | none => some next
  | some b => if next.2.length < b.2.length then some next else some b

/-- The longest number at the front of a text. -/
def number : Reader Lit := fun cs =>
  match (numberEnds cs).foldl longer none with
  | some (kind, rest) => some (⟨kind, String.ofList (cs.take (cs.length - rest.length))⟩, rest)
  | none => none

/-! ## Characters and strings -/

/-- Exactly this many hexadecimal digits. -/
def hexDigits : Nat → Reader Unit
  | 0 => pure ()
  | n + 1 => do
    let _ ← charOf isHexDigit
    hexDigits n

/-- What may follow the backslash of a character literal. -/
def charEscape : Reader Unit := do
  let c ← charOf fun _ => true
  if c = 'x' then hexDigits 2
  else if c = 'u' then hexDigits 4
  else if c = 'U' then hexDigits 8
  else if isOctalDigit c then
    let _ ← charOf isOctalDigit
    let _ ← charOf isOctalDigit
  else require (c ∈ ['a', 'b', 'f', 'n', 'r', 't', 'v', '\\', '\'', '"'])

/-- A character between single quotes. -/
def charLit : Reader Unit := do
  exactly ['\'']
  let c ← charOf fun c => c ≠ '\''
  if c = '\\' then charEscape
  exactly ['\'']

/-- What may follow a backslash in a string: digits of a code point, or any other character. -/
def stringEscape : Reader Unit := do
  let c ← charOf fun _ => true
  if c = 'x' then hexDigits 2
  else if c = 'u' then hexDigits 4
  else if c = 'U' then hexDigits 8

/-- One character of a string on a single line. -/
def stringItem : Reader Unit := do
  let c ← charOf fun c => c ≠ '"' && c ≠ '\n'
  if c = '\\' then stringEscape

/-- A string between double quotes. -/
def interpretedString : Reader Unit := do
  exactly ['"']
  let _ ← many stringItem
  exactly ['"']

/-- A string between back quotes. -/
def rawString : Reader Unit := do
  exactly ['\x60']
  let _ ← many (charOf fun c => c ≠ '\x60')
  exactly ['\x60']

/-- A string literal of either form, with its quotes. -/
def stringLit (gap : Gap) : Reader Lit := do
  blanks gap
  let text ← captured (interpretedString <|> rawString)
  return ⟨.string, text⟩

/-- A basic literal. -/
def literal (gap : Gap) : Reader Lit := do
  blanks gap
  stringLit gap <|> (do return ⟨.char, ← captured charLit⟩) <|> number

end GoSurface.Source
