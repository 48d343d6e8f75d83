/-
# YAML tokens

A YAML text as a list of tokens in which indentation has become explicit: a block collection is a
start token, its entries and an end token.  Whether a word is a key shows only at the colon after
it, so the place of a possible key is kept, and its tokens are put there when the colon comes.
Tags and directives are not read: a text with one of them has no tokens.

* `Token`: what a text consists of;
* `Layout`: the tokens so far and the collections that are open;
* `tokens`: the tokens of a text.
-/
import GoSurface.Yaml.Scalar

namespace GoSurface.Yaml

/-! ## Places -/

/-- A place in a text: what is left of it, and where that starts. -/
structure Cursor where
  rest : List Char
  line : Nat
  column : Nat

namespace Cursor

/-- The place after some text. -/
def past (k : Cursor) : List Char → Cursor
  | [] => k
  | c :: cs =>
    if isBreak c then past ⟨k.rest, k.line + 1, 0⟩ cs else past ⟨k.rest, k.line, k.column + 1⟩ cs

/-- Goes on to a suffix of the text. -/
def goTo (k : Cursor) (rest : List Char) : Cursor :=
  { k.past (k.rest.take (k.rest.length - rest.length)) with rest }

def skip (k : Cursor) (n : Nat) : Cursor := k.goTo (k.rest.drop n)

end Cursor

/-! ## Tokens -/

/-- A token. -/
inductive Token where
  /-- A document starts. -/
  | documentStart
  /-- A document ends. -/
  | documentEnd
  /-- A sequence by indentation starts. -/
  | blockSequence
  /-- A mapping by indentation starts. -/
  | blockMapping
  /-- The innermost collection by indentation ends. -/
  | blockEnd
  /-- An opening square bracket. -/
  | openSequence
  /-- A closing square bracket. -/
  | closeSequence
  /-- An opening brace. -/
  | openMapping
  /-- A closing brace. -/
  | closeMapping
  /-- A dash in front of an entry. -/
  | entry
  /-- A comma. -/
  | comma
  /-- A key follows. -/
  | key
  /-- A value follows. -/
  | value
  /-- A name for the node that follows. -/
  | anchor (name : String)
  /-- The node of that name. -/
  | reference (name : String)
  /-- A text, and whether it is written without quotes and not as a block. -/
  | scalar (plain : Bool) (text : String)
deriving DecidableEq

/-! ## Layout -/

/-- A place where a key may have started. -/
structure KeyPlace where
  /-- The number of tokens in front of it. -/
  index : Nat
  line : Nat
  column : Nat
  /-- In a mapping by indentation, nothing else can start at this column. -/
  required : Bool

/-- The state of reading tokens. -/
structure Layout where
  cursor : Cursor
  /-- The tokens so far. -/
  tokens : List Token
  /-- The columns of the open collections by indentation, innermost first. -/
  indents : List Nat
  /-- The possible key of each open flow collection, innermost first. -/
  inner : List (Option KeyPlace)
  /-- The possible key outside of flow collections. -/
  outer : Option KeyPlace
  /-- Whether a key may start here. -/
  keyAllowed : Bool

namespace Layout

/-- The start of a text. -/
def start (text : List Char) : Layout :=
  ⟨⟨text, 0, 0⟩, [], [], [], none, true⟩

def inFlow (l : Layout) : Bool := !l.inner.isEmpty

/-- The possible key of the innermost collection. -/
def possibleKey (l : Layout) : Option KeyPlace :=
  match l.inner with
  | [] => l.outer
  | k :: _ => k

/-- Replaces the possible key of the innermost collection. -/
def setKey (l : Layout) (k : Option KeyPlace) : Layout :=
  match l.inner with
  | [] => { l with outer := k }
  | _ :: ks => { l with inner := k :: ks }

def push (l : Layout) (t : Token) : Layout :=
  { l with tokens := l.tokens ++ [t] }

/-- Puts a token at a place among the others. -/
def pushAt (l : Layout) (index : Nat) (t : Token) : Layout :=
  { l with tokens := l.tokens.take index ++ t :: l.tokens.drop index }

/-- Opens a collection by indentation at a place among the tokens, unless one is open at that
column. -/
def openBlock (l : Layout) (column index : Nat) (t : Token) : Layout :=
  if l.inFlow || (l.indents.head?.any (column ≤ ·)) then l
  else { l.pushAt index t with indents := column :: l.indents }

/-- The layout after closing the collections by indentation that are deeper than a column. -/
def closeDeeper (column : Nat) : List Nat → List Token → List Nat × List Token
  | [], tokens => ([], tokens)
  | i :: is, tokens =>
    if column < i then closeDeeper column is (tokens ++ [.blockEnd]) else (i :: is, tokens)

/-- Closes the collections by indentation that are deeper than the cursor. -/
def closeTo (l : Layout) (column : Nat) : Layout :=
  if l.inFlow then l
  else
    let (indents, tokens) := closeDeeper column l.indents l.tokens
    { l with indents, tokens }

/-- Closes all collections by indentation. -/
def closeAll (l : Layout) : Layout :=
  if l.inFlow then l
  else { l with indents := [], tokens := l.tokens ++ l.indents.map fun _ => Token.blockEnd }

/-- Gives up the possible key of the innermost collection; one that is required fails. -/
def dropKey (l : Layout) : Option Layout :=
  match l.possibleKey with
  | some k => if k.required then none else some (l.setKey none)
  | none => some l

/-- Remembers that a key may start here. -/
def saveKey (l : Layout) : Option Layout :=
  if l.keyAllowed then do
    let required := !l.inFlow && l.indents.head? = some l.cursor.column
    let l ← l.dropKey
    return l.setKey (some ⟨l.tokens.length, l.cursor.line, l.cursor.column, required⟩)
  else some l

/-- A key fits on a line, and in 1024 characters. -/
def isStale (k : Cursor) (key : KeyPlace) : Bool :=
  key.line < k.line || key.column + 1024 < k.column

/-- The possible key unless the text has gone on too far; fails if it was required. -/
def freshKey (k : Cursor) : Option KeyPlace → Option (Option KeyPlace)
  | none => some none
  | some key => if isStale k key then (if key.required then none else some none) else some (some key)

/-- Gives up all possible keys that are too far away. -/
def dropStale (l : Layout) : Option Layout := do
  let outer ← freshKey l.cursor l.outer
  let inner ← l.inner.mapM (freshKey l.cursor)
  return { l with outer, inner }

/-! ## Blanks -/

/-- Skips blanks, comments and line breaks; a line break allows a key outside of flow
collections.  A tab is no blank where a key may start. -/
def skipBlanks (l : Layout) : Layout :=
  let (rest, allowed) := go l.inFlow l.keyAllowed false l.cursor.rest
  { l with cursor := l.cursor.goTo rest, keyAllowed := allowed }
where
  /-- The text after blanks, and whether a key may start there; the second flag says whether a
  comment is being skipped. -/
  go (inFlow allowed comment : Bool) : List Char → List Char × Bool
    | [] => ([], allowed)
    | c :: cs =>
      if isBreak c then go inFlow (allowed || !inFlow) false cs
      else if comment then go inFlow allowed true cs
      else if c = ' ' || (c = '\t' && (inFlow || !allowed)) then go inFlow allowed false cs
      else if c = '#' then go inFlow allowed true cs
      else (c :: cs, allowed)

/-! ## One token -/

/-- Goes on by some characters with a new token. -/
def take (l : Layout) (n : Nat) (t : Token) : Layout :=
  { l.push t with cursor := l.cursor.skip n }

/-- A line that separates documents. -/
def documentMark (l : Layout) (t : Token) : Option Layout := do
  let l ← l.closeAll.dropKey
  return { l.take 3 t with keyAllowed := false }

/-- An opening bracket or brace. -/
def openFlow (l : Layout) (t : Token) : Option Layout := do
  let l ← l.saveKey
  let l := l.take 1 t
  return { l with inner := none :: l.inner, keyAllowed := true }

/-- A closing bracket or brace. -/
def closeFlow (l : Layout) (t : Token) : Option Layout := do
  let l ← l.dropKey
  let l := l.take 1 t
  return { l with inner := l.inner.tail, keyAllowed := false }

/-- A comma. -/
def comma (l : Layout) : Option Layout := do
  let l ← l.dropKey
  return { l.take 1 .comma with keyAllowed := true }

/-- A dash, which opens a sequence if none is open at its column. -/
def entry (l : Layout) : Option Layout := do
  if !l.inFlow && !l.keyAllowed then none
  else
    let l ← (l.openBlock l.cursor.column l.tokens.length .blockSequence).dropKey
    return { l.take 1 .entry with keyAllowed := true }

/-- A question mark in front of a key. -/
def explicitKey (l : Layout) : Option Layout := do
  if !l.inFlow && !l.keyAllowed then none
  else
    let l ← (l.openBlock l.cursor.column l.tokens.length .blockMapping).dropKey
    return { l.take 1 .key with keyAllowed := !l.inFlow }

/-- A colon: what stood in front of it was a key if one was possible. -/
def value (l : Layout) : Option Layout :=
  match l.possibleKey with
  | some k =>
    let l := (l.pushAt k.index .key).openBlock k.column k.index .blockMapping
    some { (l.setKey none).take 1 .value with keyAllowed := false }
  | none =>
    if !l.inFlow && !l.keyAllowed then none
    else
      let l := l.openBlock l.cursor.column l.tokens.length .blockMapping
      some { l.take 1 .value with keyAllowed := !l.inFlow }

/-- A character of the name of a node. -/
def isNameChar (c : Char) : Bool :=
  c.isAlphanum || c = '_' || c = '-'

/-- The name of a node after an ampersand or a star. -/
def reference (l : Layout) (token : String → Token) : Option Layout := do
  let l ← l.saveKey
  let cs := l.cursor.rest.drop 1
  let name := cs.takeWhile isNameChar
  let rest := cs.dropWhile isNameChar
  if name.isEmpty then none
  else if endsWord rest || (rest.head?.any (· ∈ ['?', ':', ',', ']', '\x7d', '%', '@', '\x60'])) then
    return { l.push (token (String.ofList name)) with
      cursor := l.cursor.goTo rest, keyAllowed := false }
  else none

/-- A scalar in quotes. -/
def quoted (l : Layout) (items : List Char → Option (List Item × List Char)) : Option Layout := do
  let l ← l.saveKey
  let (found, rest) ← items (l.cursor.rest.drop 1)
  return { l.push (.scalar false (fold found)) with
    cursor := l.cursor.goTo rest, keyAllowed := false }

/-- A block of lines. -/
def block (l : Layout) (folded : Bool) : Option Layout := do
  let l ← l.dropKey
  let (text, rest) ← blockScalar folded l.indents.head? (l.cursor.rest.drop 1)
  return { l.push (.scalar false text) with
    cursor := l.cursor.goTo rest, keyAllowed := true }

/-- A plain scalar; a key may start after it if line breaks were skipped. -/
def plain (l : Layout) : Option Layout := do
  let l ← l.saveKey
  let indent := (l.indents.head?.map (· + 1)).getD 0
  let (items, rest) ← plainItems l.inFlow indent .inWord l.cursor.rest
  let newLine := match (foldFrom .none items).2 with
    | .breaks _ _ => true
    | .blanks _ => false
  return { l.push (.scalar true (foldTrimmed items)) with
    cursor := l.cursor.goTo rest, keyAllowed := newLine }

/-- Characters with a meaning of their own at the start of a word. -/
def indicators : List Char :=
  ['-', '?', ':', ',', '[', ']', '\x7b', '\x7d', '#', '&', '*', '!', '|', '>', '\'', '"', '%', '@',
    '\x60']

/-- Whether a plain scalar can start with this text. -/
def startsPlain (inFlow : Bool) (c : Char) (cs : List Char) : Bool :=
  (c ∉ indicators && !isBlank c) || (c = '-' && !(cs.head?.any isBlank)) ||
    (!inFlow && (c = '?' || c = ':') && !endsWord cs)

/-- The token that starts here, in front of this text. -/
def next (l : Layout) (c : Char) (cs : List Char) : Option Layout :=
  if l.cursor.column = 0 && marksDocument (c :: cs) then
    l.documentMark (if c = '-' then .documentStart else .documentEnd)
  else if c = '[' then l.openFlow .openSequence
  else if c = '\x7b' then l.openFlow .openMapping
  else if c = ']' then l.closeFlow .closeSequence
  else if c = '\x7d' then l.closeFlow .closeMapping
  else if c = ',' then l.comma
  else if c = '-' && endsWord cs then l.entry
  else if c = '?' && (l.inFlow || endsWord cs) then l.explicitKey
  else if c = ':' && (l.inFlow || endsWord cs) then l.value
  else if c = '&' then l.reference .anchor
  else if c = '*' then l.reference .reference
  else if c = '|' && !l.inFlow then l.block false
  else if c = '>' && !l.inFlow then l.block true
  else if c = '\'' then l.quoted singleItems
  else if c = '"' then l.quoted (doubleItems .text)
  else if startsPlain l.inFlow c cs then l.plain
  else none

/-- The tokens of the rest of the text; every step takes a character, so its length bounds their
number. -/
def finish : Nat → Layout → Option (List Token)
  | 0, _ => none
  | n + 1, l => do
    let l ← l.skipBlanks.dropStale
    match l.cursor.rest with
    | [] => return (← l.closeAll.dropKey).tokens
    | c :: cs => finish n (← (l.closeTo l.cursor.column).next c cs)

end Layout

/-! ## Texts -/

/-- The text with one kind of line end. -/
def unifyBreaks : List Char → List Char
  | '\r' :: '\n' :: cs => '\n' :: unifyBreaks cs
  | '\r' :: cs => '\n' :: unifyBreaks cs
  | '\u0085' :: cs => '\n' :: unifyBreaks cs
  | c :: cs => c :: unifyBreaks cs
  | [] => []

/-- A character that may stand in a text. -/
def isAllowed (c : Char) : Bool :=
  c = '\t' || c = '\n' || c = '\r' || (' ' ≤ c && c ≤ '~') || c = '\u0085' ||
    ('\u00a0' ≤ c && c ≠ '\ufffe' && c ≠ '\uffff')

/-- The tokens of a text. -/
def tokens (text : String) : Option (List Token) :=
  let cs := text.toList
  if cs.all isAllowed then
    let cs := unifyBreaks (if cs.head? = some '\ufeff' then cs.drop 1 else cs)
    (Layout.start cs).finish (cs.length + 1)
  else none

end GoSurface.Yaml
