/-
# Reports

A comparison as text: for people, the changes that a configuration asks for and the verdict; for
programs, everything as JSON.

* `Diff.explanation`: the quoted changes;
* `Diff.json`: the whole comparison as JSON;
* `Report.render`: what is printed.
-/
import GoSurface.Config
import GoSurface.Text.Json

namespace GoSurface

/-! ## For people -/

/-- A snippet behind a mark, below its position. -/
def Snippet.quote (mark : String) (s : Snippet) : String :=
  s.position.text ++ "\n" ++ mark ++ " " ++ s.text ++ "\n"

/-- A change: its severity and reason, then what was and what is. -/
def Change.explanation (c : Change) : String :=
  c.severity.verdict ++ ": " ++ c.reason.text ++ "\n" ++
    ((c.previous.map (·.quote "-")).getD "") ++ ((c.latest.map (·.quote "+")).getD "") ++ "\n"

/-- The changes that pass a filter. -/
def Diff.explanation (d : Diff) (f : ChangeFilter) : String :=
  String.join ((d.filter f.accepts).map Change.explanation)

/-! ## For programs -/

def Position.json (p : Position) : Json :=
  .object [("file", .text p.file), ("line", .number p.line), ("column", .number p.column)]

def Snippet.json (s : Snippet) : Json :=
  .object [("name", .text s.name), ("position", s.position.json), ("text", .text s.text)]

def Change.json (c : Change) : Json :=
  .object [("severity", .text c.severity.name), ("reason", .text c.reason.text),
    ("previous", (c.previous.map Snippet.json).getD .null),
    ("latest", (c.latest.map Snippet.json).getD .null)]

def Diff.json (d : Diff) : Json :=
  .object [("severity", .text (Diff.severity d).name), ("changes", .list (d.map Change.json))]

/-! ## Output -/

/-- How a comparison is printed. -/
inductive Format where
  | text
  | json
deriving DecidableEq

/-- The format of that name. -/
def Format.ofName? : String → Option Format
  | "text" => some .text
  | "json" => some .json
  | _ => none

/-- What is printed of a comparison. -/
inductive Report where
  /-- Quoted changes, and the verdict. -/
  | text (changes : String) (verdict : Severity)
  /-- A JSON document. -/
  | json (document : Json)

/-- The report of a comparison: a configuration decides which changes the text quotes. -/
def Report.of (format : Format) (c : Config) (d : Diff) : Report :=
  match format with
  | .json => .json (Diff.json d)
  | .text => .text (if c.explain then Diff.explanation d c.changeFilter else "") (Diff.severity d)

/-- The printed text; a note, such as the time it took, may stand behind the verdict. -/
def Report.render (note : String) : Report → String
  | .text changes verdict => changes ++ verdict.verdict ++ note ++ "\n"
  | .json document => document.pretty ++ "\n"

/-! ## Time -/

/-- A fraction without the zeros at its end: `digits` digits that stand for `value`. -/
def fraction (digits value : Nat) : String :=
  let padded := String.ofList (List.replicate (digits - (toString value).length) '0') ++ toString value
  let trimmed := padded.toList.reverse.dropWhile (· = '0')
  if trimmed.isEmpty then "" else "." ++ String.ofList trimmed.reverse

/-- A stretch of time in the largest unit that it fills. -/
def durationText (nanoseconds : Nat) : String :=
  let inUnit := fun (size digits : Nat) (unit : String) =>
    toString (nanoseconds / size) ++ fraction digits (nanoseconds % size) ++ unit
  if 1000000000 ≤ nanoseconds then inUnit 1000000000 9 "s"
  else if 1000000 ≤ nanoseconds then inUnit 1000000 6 "ms"
  else if 1000 ≤ nanoseconds then inUnit 1000 3 "µs"
  else toString nanoseconds ++ "ns"

end GoSurface
