import DexFeed.Text.Base64

/-!
# Log lines

Two kinds of line matter among those that a transaction logs. A line that contains the marker
`Program data: ` carries a payload in base64 behind the first marker, with blanks around it. A line
that reports the beginning or the end of a program's invocation names the program. All other lines,
whatever a program prints, are neither. Lines are bytes, since programs may print what is not text.
-/

namespace DexFeed.LogLine

/-- What stands behind the first occurrence of a word. -/
def after? (word : Bytes) : Bytes → Option Bytes
  | [] => if word = [] then some [] else none
  | b :: rest =>
    if word.isPrefixOf (b :: rest) then some ((b :: rest).drop word.length)
    else after? word rest

/-- The words in front of a payload. -/
def marker : Bytes := ascii "Program data: "

/-- Whether a line contains the marker. -/
def isMarked (line : Bytes) : Bool :=
  (after? marker line).isSome

/-- A blank around a payload: space, tab, line feed or carriage return. -/
def isSpace (c : UInt8) : Bool :=
  c == 32 || c == 9 || c == 10 || c == 13

/-- A text without the blanks at either end. -/
def trim (text : Bytes) : Bytes :=
  ((text.dropWhile isSpace).reverse.dropWhile isSpace).reverse

/-- The text of the payload that a line carries. -/
def payloadText? (line : Bytes) : Option Bytes :=
  (after? marker line).map trim

/-- The payload that a line carries, if its text is base64 and not empty. -/
def payload? (line : Bytes) : Option Bytes := do
  let text ← payloadText? line
  if text = [] then none else Base64.decode text

/-- What a line reports about the invocation of programs. -/
inductive Invocation
  /-- A program was invoked, at top level or by another program. -/
  | enter (id : Bytes) (top : Bool)
  /-- The program invoked last has ended. -/
  | leave
deriving DecidableEq

/-- What a line reports about the invocation of programs: `Program`, an id up to the next space, and
`invoke` with a depth, `success`, or a text that begins with `failed`. -/
def invocation? (line : Bytes) : Option Invocation :=
  let opening := ascii "Program "
  if opening.isPrefixOf line then
    let words := line.drop opening.length
    let id := words.takeWhile (· ≠ 32)
    match words.dropWhile (· ≠ 32) with
    | [] => none
    | _ :: outcome =>
      if (ascii "invoke ").isPrefixOf outcome then some (.enter id (outcome == ascii "invoke [1]"))
      else if outcome == ascii "success" || (ascii "failed").isPrefixOf outcome then some .leave
      else none
  else none

end DexFeed.LogLine
