/-
# YAML scalars

The three ways to write a text in YAML: plain, quoted and as a block of lines.  The first two are
read into items, characters that count and gaps that fold, and folding makes a text of them.

* `fold`: line breaks between words become blanks, empty lines become line breaks;
* `plainItems`, `singleItems`, `doubleItems`: the items of a scalar and the text after it;
* `blockScalar`: a literal or folded block.
-/

namespace GoSurface.Yaml

/-! ## Characters -/

/-- A space or a tab. -/
def isBlank (c : Char) : Bool := c = ' ' || c = '\t'

/-- A line break; the first kind folds, the separators of lines and paragraphs stay. -/
def isBreak (c : Char) : Bool := c = '\n' || c = '\u2028' || c = '\u2029'

/-- Brackets and commas, which end a plain scalar inside a flow collection. -/
def isFlowMark (c : Char) : Bool := c ∈ [',', '[', ']', '\x7b', '\x7d']

/-- Whether a word ends in front of this text: at a blank, a line break or the end. -/
def endsWord : List Char → Bool
  | [] => true
  | c :: _ => isBlank c || isBreak c

/-- Whether a line that starts like this separates documents. -/
def marksDocument : List Char → Bool
  | '-' :: '-' :: '-' :: cs => endsWord cs
  | '.' :: '.' :: '.' :: cs => endsWord cs
  | _ => false

/-! ## Folding -/

/-- A part of a plain or quoted scalar. -/
inductive Item where
  /-- A character of the text. -/
  | char (c : Char)
  /-- A space or tab, which counts unless a line break stands next to it. -/
  | blank (c : Char)
  /-- A line break. -/
  | newline (c : Char)
  /-- A line break that a backslash takes away. -/
  | joint

/-- What stands between two words of a scalar. -/
inductive Between where
  /-- Blanks on a line. -/
  | blanks (cs : List Char)
  /-- Line breaks: the first one, if a backslash did not take it away, and the others. -/
  | breaks (first : Option Char) (others : List Char)

namespace Between

def none : Between := blanks []

/-- One more blank: next to a line break it does not count. -/
def addBlank (c : Char) : Between → Between
  | blanks cs => blanks (cs ++ [c])
  | b => b

/-- One more line break. -/
def addBreak (c : Char) : Between → Between
  | blanks _ => breaks (some c) []
  | breaks first others => breaks first (others ++ [c])

/-- What stands for a gap in the text: a single line break becomes a space, of several the first
one is dropped. -/
def text : Between → List Char
  | blanks cs => cs
  | breaks (some '\n') [] => [' ']
  | breaks (some '\n') others => others
  | breaks first others => first.toList ++ others

end Between

/-- The text of a scalar, with what the gap at its end stands for kept apart. -/
def foldFrom : Between → List Item → List Char × Between
  | gap, [] => ([], gap)
  | gap, .char c :: items =>
    let (cs, last) := foldFrom .none items
    (gap.text ++ c :: cs, last)
  | gap, .blank c :: items => foldFrom (gap.addBlank c) items
  | gap, .newline c :: items => foldFrom (gap.addBreak c) items
  | gap, .joint :: items =>
    let (cs, last) := foldFrom (.breaks Option.none []) items
    (gap.text ++ cs, last)

/-- The text of a quoted scalar: a gap at its end counts. -/
def fold (items : List Item) : String :=
  let (cs, last) := foldFrom .none items
  String.ofList (cs ++ last.text)

/-- The text of a plain scalar: a gap at its end does not count. -/
def foldTrimmed (items : List Item) : String :=
  String.ofList (foldFrom .none items).1

/-! ## Plain scalars -/

/-- Where reading a plain scalar has got to. -/
inductive PlainPlace where
  /-- After a character that counts. -/
  | inWord
  /-- After blanks. -/
  | afterBlank
  /-- In the blanks at the start of a further line, at this column. -/
  | indented (column : Nat)

/-- Whether a plain scalar ends in front of a character that is no blank. -/
def plainEnds (inFlow : Bool) (indent : Nat) (place : PlainPlace) (c : Char) (cs : List Char) : Bool :=
  let bySpot := match place with
    | .inWord => false
    | .afterBlank => c = '#'
    | .indented column =>
      c = '#' || (!inFlow && column < indent) || (column = 0 && marksDocument (c :: cs))
  bySpot || (c = ':' && endsWord cs) || (inFlow && isFlowMark c)

/-- The items of a plain scalar and the text after it.  Outside flow collections its lines are
indented by at least `indent`. -/
def plainItems (inFlow : Bool) (indent : Nat) :
    PlainPlace → List Char → Option (List Item × List Char)
  | _, [] => some ([], [])
  | place, c :: cs =>
    if isBlank c then
      match place with
      | .indented column =>
        if c = '\t' && column < indent then none
        else (plainItems inFlow indent (.indented (column + 1)) cs).map
          fun (items, rest) => (.blank c :: items, rest)
      | _ => (plainItems inFlow indent .afterBlank cs).map
          fun (items, rest) => (.blank c :: items, rest)
    else if isBreak c then
      (plainItems inFlow indent (.indented 0) cs).map
        fun (items, rest) => (.newline c :: items, rest)
    else if plainEnds inFlow indent place c cs then some ([], c :: cs)
    else if inFlow && c = ':' && (cs.head?.any fun d => d = '?' || isFlowMark d) then none
    else (plainItems inFlow indent .inWord cs).map
      fun (items, rest) => (.char c :: items, rest)

/-! ## Quoted scalars -/

/-- One more item in front. -/
def addItem (i : Item) : List Item × List Char → List Item × List Char
  | (items, rest) => (i :: items, rest)

/-- A blank, a line break or a character. -/
def itemOf (c : Char) : Item :=
  if isBlank c then .blank c else if isBreak c then .newline c else .char c

/-- The items of a scalar in single quotes after the opening one, and the text after the closing
one.  A quote in the text is written twice. -/
def singleItems : List Char → Option (List Item × List Char)
  | [] => none
  | '\'' :: '\'' :: cs => (singleItems cs).map (addItem (.char '\''))
  | '\'' :: cs => some ([], cs)
  | c :: cs =>
    if isBreak c && marksDocument cs then none
    else (singleItems cs).map (addItem (itemOf c))

/-- The character that a backslash and this character stand for. -/
def escaped : Char → Option Char
  | '0' => some '\x00'
  | 'a' => some '\x07'
  | 'b' => some '\x08'
  | 't' => some '\t'
  | '\t' => some '\t'
  | 'n' => some '\n'
  | 'v' => some '\x0b'
  | 'f' => some '\x0c'
  | 'r' => some '\r'
  | 'e' => some '\x1b'
  | ' ' => some ' '
  | '"' => some '"'
  | '/' => some '/'
  | '\\' => some '\\'
  | 'N' => some '\u0085'
  | '_' => some '\u00a0'
  | 'L' => some '\u2028'
  | 'P' => some '\u2029'
  | _ => none

/-- The number of hexadecimal digits that follow a backslash and this character. -/
def codeLength : Char → Option Nat
  | 'x' => some 2
  | 'u' => some 4
  | 'U' => some 8
  | _ => none

/-- The value of a hexadecimal digit. -/
def hexValue (c : Char) : Option Nat :=
  if '0' ≤ c ∧ c ≤ '9' then some (c.toNat - '0'.toNat)
  else if 'a' ≤ c ∧ c ≤ 'f' then some (c.toNat - 'a'.toNat + 10)
  else if 'A' ≤ c ∧ c ≤ 'F' then some (c.toNat - 'A'.toNat + 10)
  else none

/-- The character of a code point, if there is one. -/
def charOfCode (n : Nat) : Option Char :=
  if n.isValidChar then some (Char.ofNat n) else none

/-- Where reading a scalar in double quotes has got to. -/
inductive DoublePlace where
  | text
  | afterBackslash
  /-- In a code point, with this many digits to come after the next one. -/
  | inCode (more value : Nat)

/-- The items of a scalar in double quotes after the opening one, and the text after the closing
one. -/
def doubleItems : DoublePlace → List Char → Option (List Item × List Char)
  | _, [] => none
  | .text, '"' :: cs => some ([], cs)
  | .text, '\\' :: cs => doubleItems .afterBackslash cs
  | .text, c :: cs =>
    if isBreak c && marksDocument cs then none
    else (doubleItems .text cs).map (addItem (itemOf c))
  | .afterBackslash, c :: cs =>
    if isBreak c then
      if marksDocument cs then none else (doubleItems .text cs).map (addItem .joint)
    else
      match escaped c, codeLength c with
      | some d, _ => (doubleItems .text cs).map (addItem (.char d))
      | none, some n => doubleItems (.inCode (n - 1) 0) cs
      | none, none => none
  | .inCode more value, c :: cs =>
    match hexValue c with
    | none => none
    | some v =>
      match more with
      | 0 =>
        match charOfCode (value * 16 + v) with
        | some d => (doubleItems .text cs).map (addItem (.char d))
        | none => none
      | n + 1 => doubleItems (.inCode n (value * 16 + v)) cs

/-! ## Block scalars -/

/-- What becomes of the line breaks at the end of a block. -/
inductive Chomping where
  /-- They are dropped. -/
  | strip
  /-- One of them is kept. -/
  | clip
  /-- All are kept. -/
  | keep

/-- The header of a block: chomping, indentation if it is given, and the text after its line. -/
structure BlockHeader where
  chomping : Chomping
  indent : Option Nat
  rest : List Char

/-- A chomping indicator. -/
def chompingOf : Char → Option Chomping
  | '+' => some .keep
  | '-' => some .strip
  | _ => none

/-- An indentation indicator: a digit other than zero. -/
def indentOf (c : Char) : Option Nat :=
  if '1' ≤ c ∧ c ≤ '9' then some (c.toNat - '0'.toNat) else none

/-- The indicators of a block header in either order, and the text after them. -/
def blockIndicators : List Char → Chomping × Option Nat × List Char
  | [] => (.clip, none, [])
  | c :: cs =>
    match chompingOf c, indentOf c with
    | some chomping, _ =>
      match cs with
      | d :: ds => if (indentOf d).isSome then (chomping, indentOf d, ds) else (chomping, none, cs)
      | [] => (chomping, none, [])
    | none, some n =>
      match cs with
      | d :: ds =>
        match chompingOf d with
        | some chomping => (chomping, some n, ds)
        | none => (.clip, some n, cs)
      | [] => (.clip, some n, [])
    | none, none => (.clip, none, c :: cs)

/-- The text up to the next line break. -/
def lineText (cs : List Char) : List Char := cs.takeWhile (!isBreak ·)

/-- The text from the next line break on. -/
def lineRest (cs : List Char) : List Char := cs.dropWhile (!isBreak ·)

/-- The header of a block, after its first character. -/
def blockHeader (cs : List Char) : Option BlockHeader :=
  let (chomping, indent, rest) := blockIndicators cs
  let rest := rest.dropWhile isBlank
  let rest := if rest.head? = some '#' then lineRest rest else rest
  match rest with
  | [] => some ⟨chomping, indent, []⟩
  | c :: after => if isBreak c then some ⟨chomping, indent, after⟩ else none

/-- A line of a block: empty, or with a text and the line break at its end. -/
inductive BlockLine where
  | empty (newline : Char)
  | content (text : List Char) (newline : Option Char)

/-- The number of spaces at the start of a text. -/
def leadingSpaces (cs : List Char) : Nat := (cs.takeWhile (· = ' ')).length

/-- The indentation of a block by its first line that is not empty, which is the widest of the
lines up to there; a tab may not stand in it. -/
def detectIndent : Nat → List Char → Nat → Option Nat
  | 0, _, widest => some widest
  | n + 1, cs, widest =>
    let spaces := leadingSpaces cs
    let widest := max widest spaces
    match cs.drop spaces with
    | '\t' :: _ => none
    | c :: rest => if isBreak c then detectIndent n rest widest else some widest
    | [] => some widest

/-- The lines of a block that are indented by `indent`, and the text after them. -/
def blockLines (indent : Nat) : Nat → List Char → Option (List BlockLine × List Char)
  | 0, cs => some ([], cs)
  | n + 1, cs =>
    let spaces := min indent (leadingSpaces cs)
    match cs.drop spaces with
    | [] => some ([], cs)
    | c :: after =>
      if isBreak c then
        (blockLines indent n after).map fun (ls, rest) => (.empty c :: ls, rest)
      else if spaces < indent then
        if c = '\t' then none else some ([], cs)
      else
        let text := lineText (c :: after)
        match lineRest (c :: after) with
        | [] => some ([.content text none], [])
        | b :: rest =>
          (blockLines indent n rest).map fun (ls, rest) => (.content text (some b) :: ls, rest)

/-- What has been read of a block: its text, the break after its last line and the empty lines
after that, and whether the last line started with a blank. -/
structure BlockText where
  text : List Char := []
  newline : Option Char := none
  empties : List Char := []
  blankStart : Bool := false

/-- One more line.  In a folded block a line break between two lines that start with no blank
becomes a space, unless empty lines follow it. -/
def BlockText.add (folded : Bool) (b : BlockText) : BlockLine → BlockText
  | .empty c => { b with empties := b.empties ++ [c] }
  | .content text newline =>
    let blank := text.head?.any isBlank
    let joint :=
      if folded && b.newline = some '\n' && !b.blankStart && !blank then
        if b.empties.isEmpty then [' '] else []
      else b.newline.toList
    { text := b.text ++ joint ++ b.empties ++ text
      newline, empties := [], blankStart := blank }

/-- The text of a block with its end chomped. -/
def BlockText.finish (b : BlockText) : Chomping → List Char
  | .strip => b.text
  | .clip => b.text ++ b.newline.toList
  | .keep => b.text ++ b.newline.toList ++ b.empties

/-- The text of a block scalar inside a collection indented by `outer`, and the text after it. -/
def blockScalar (folded : Bool) (outer : Option Nat) (cs : List Char) :
    Option (String × List Char) := do
  let header ← blockHeader cs
  let size := header.rest.length + 1
  let indent ← match header.indent with
    | some n => some (outer.getD 0 + n)
    | none => do
      let widest ← detectIndent size header.rest 0
      some (max widest (max 1 ((outer.map (· + 1)).getD 0)))
  let (lines, rest) ← blockLines indent size header.rest
  let text := (lines.foldl (BlockText.add folded) {}).finish header.chomping
  return (String.ofList text, rest)

end GoSurface.Yaml
