import Deduction.Document

/-!
# JSON text

Reading and writing documents as JSON.  The reader is strict: no trailing
commas, no leading zeros, no control characters and no unpaired surrogates in
strings.  There is no limit on nesting.  Minus zero counts as a decimal, since
no integer has that text.

The reader works on the list of characters that are left.  It descends with a
supply of steps that is twice the length of the text, and every second step at
least takes a character.
-/

namespace Deduction

namespace Json

/-- The characters that may stand between tokens. -/
def isBlank (c : Char) : Bool :=
  c = ' ' || c = '\t' || c = '\n' || c = '\r'

/-- The text after its leading blanks. -/
def skipBlanks (cs : List Char) : List Char :=
  cs.dropWhile isBlank

/-- The value of a hexadecimal digit. -/
def hexDigit? (c : Char) : Option Nat :=
  if '0' ≤ c && c ≤ '9' then some (c.toNat - '0'.toNat)
  else if 'a' ≤ c && c ≤ 'f' then some (c.toNat - 'a'.toNat + 10)
  else if 'A' ≤ c && c ≤ 'F' then some (c.toNat - 'A'.toNat + 10)
  else none

/-- The number that four hexadecimal digits stand for. -/
def hexCode? (a b c d : Char) : Option Nat := do
  let a ← hexDigit? a
  let b ← hexDigit? b
  let c ← hexDigit? c
  let d ← hexDigit? d
  return ((a * 16 + b) * 16 + c) * 16 + d

/-- The character that stands for itself after a backslash, or is named there
by a letter. -/
def shortEscape? : Char → Option Char
  | '"' => some '"'
  | '\\' => some '\\'
  | '/' => some '/'
  | 'b' => some '\x08'
  | 'f' => some '\x0c'
  | 'n' => some '\n'
  | 'r' => some '\r'
  | 't' => some '\t'
  | _ => none

/-- The rest of a string after its opening quote, and the text after it. -/
def stringRest : List Char → Option (List Char × List Char)
  | [] => none
  | '"' :: cs => some ([], cs)
  | '\\' :: 'u' :: a :: b :: c :: d :: cs =>
    match hexCode? a b c d with
    | none => none
    | some code =>
      if 0xD800 ≤ code ∧ code < 0xDC00 then
        match cs with
        | '\\' :: 'u' :: e :: f :: g :: h :: cs =>
          match hexCode? e f g h with
          | none => none
          | some low =>
            if 0xDC00 ≤ low ∧ low < 0xE000 then
              (stringRest cs).map fun (text, rest) =>
                (Char.ofNat (0x10000 + (code - 0xD800) * 0x400 + (low - 0xDC00)) :: text, rest)
            else none
        | _ => none
      else if 0xDC00 ≤ code ∧ code < 0xE000 then none
      else (stringRest cs).map fun (text, rest) => (Char.ofNat code :: text, rest)
  | '\\' :: c :: cs =>
    match shortEscape? c with
    | none => none
    | some c => (stringRest cs).map fun (text, rest) => (c :: text, rest)
  | c :: cs =>
    if c = '\\' ∨ c.toNat < 0x20 then none
    else (stringRest cs).map fun (text, rest) => (c :: text, rest)

/-- The value of a run of decimal digits. -/
def decimalValue (cs : List Char) : Nat :=
  cs.foldl (fun n c => 10 * n + (c.toNat - '0'.toNat)) 0

/-- A run of digits and the text after it. -/
def digits (cs : List Char) : List Char × List Char :=
  (cs.takeWhile Char.isDigit, cs.dropWhile Char.isDigit)

/-- The text after a fraction, if there is one. -/
def skipFraction : List Char → Option (List Char)
  | '.' :: cs => if (digits cs).1 = [] then none else some (digits cs).2
  | cs => some cs

/-- The text after the sign of an exponent, if there is one. -/
def skipSign : List Char → List Char
  | '+' :: cs => cs
  | '-' :: cs => cs
  | cs => cs

/-- The text after an exponent, if there is one. -/
def skipExponent : List Char → Option (List Char)
  | [] => some []
  | c :: cs =>
    if c = 'e' ∨ c = 'E' then
      let power := digits (skipSign cs)
      if power.1 = [] then none else some power.2
    else some (c :: cs)

/-- Reads a number after its sign. -/
def unsigned (negative : Bool) (cs : List Char) : Option (Document × List Char) :=
  let (whole, rest) := digits cs
  if whole = [] ∨ (whole.head? = some '0' ∧ whole ≠ ['0']) then none
  else
    match (skipFraction rest).bind skipExponent with
    | none => none
    | some rest' =>
      let value := decimalValue whole
      if rest'.length = rest.length ∧ ¬(negative ∧ value = 0) then
        some (.integer (if negative then -(value : Int) else value), rest')
      else
        let text := cs.take (cs.length - rest'.length)
        some (.decimal (String.ofList (if negative then '-' :: text else text)), rest')

/-- Reads a number. -/
def number : List Char → Option (Document × List Char)
  | '-' :: cs => unsigned true cs
  | cs => unsigned false cs

mutual

/-- Reads a value with a given supply of steps. -/
def value : Nat → List Char → Option (Document × List Char)
  | 0, _ => none
  | n + 1, cs =>
    match skipBlanks cs with
    | 'n' :: 'u' :: 'l' :: 'l' :: rest => some (.null, rest)
    | 't' :: 'r' :: 'u' :: 'e' :: rest => some (.bool true, rest)
    | 'f' :: 'a' :: 'l' :: 's' :: 'e' :: rest => some (.bool false, rest)
    | '"' :: rest => (stringRest rest).map fun (text, rest) => (.string (String.ofList text), rest)
    | '[' :: rest =>
      match skipBlanks rest with
      | ']' :: rest => some (.array [], rest)
      | rest => (items n rest).map fun (ds, rest) => (.array ds, rest)
    | '\x7b' :: rest =>
      match skipBlanks rest with
      | '\x7d' :: rest => some (.object [], rest)
      | rest => (fields n rest).map fun (fs, rest) => (.ofFields fs, rest)
    | rest => number rest

/-- Reads the items of an array up to its end. -/
def items : Nat → List Char → Option (List Document × List Char)
  | 0, _ => none
  | n + 1, cs =>
    match value n cs with
    | none => none
    | some (d, rest) =>
      match skipBlanks rest with
      | ']' :: rest => some ([d], rest)
      | ',' :: rest => (items n rest).map fun (ds, rest) => (d :: ds, rest)
      | _ => none

/-- Reads the fields of an object up to its end. -/
def fields : Nat → List Char → Option (List (String × Document) × List Char)
  | 0, _ => none
  | n + 1, cs =>
    match skipBlanks cs with
    | '"' :: rest =>
      match stringRest rest with
      | none => none
      | some (key, rest) =>
        match skipBlanks rest with
        | ':' :: rest =>
          match value n rest with
          | none => none
          | some (d, rest) =>
            match skipBlanks rest with
            | '\x7d' :: rest => some ([(String.ofList key, d)], rest)
            | ',' :: rest =>
              (fields n rest).map fun (fs, rest) => ((String.ofList key, d) :: fs, rest)
            | _ => none
        | _ => none
    | _ => none

end

/-- Reads a whole text. -/
def parse? (text : String) : Option Document :=
  let cs := text.toList
  match value (2 * cs.length + 2) cs with
  | some (d, rest) => if skipBlanks rest = [] then some d else none
  | none => none

/-! ## Writing -/

/-- The hexadecimal digits of a code below 256. -/
def hexPair (n : Nat) : List Char :=
  [Nat.digitChar (n / 16), Nat.digitChar (n % 16)]

/-- A character inside a string. -/
def escape (c : Char) : List Char :=
  if c = '"' then ['\\', '"']
  else if c = '\\' then ['\\', '\\']
  else if c.toNat < 0x20 then ['\\', 'u', '0', '0'] ++ hexPair c.toNat
  else [c]

/-- A string between quotes. -/
def quoted (text : String) : String :=
  "\"" ++ String.ofList (text.toList.flatMap escape) ++ "\""

mutual

/-- Writes a document on one line. -/
def render : Document → String
  | .null => "null"
  | .bool value => if value then "true" else "false"
  | .integer n => n.repr
  | .decimal text => text
  | .string text => quoted text
  | .array items => "[" ++ renderItems items ++ "]"
  | .object fields => "\x7b" ++ renderFields fields ++ "\x7d"

/-- Writes the items of an array, separated by commas. -/
def renderItems : List Document → String
  | [] => ""
  | [d] => render d
  | d :: ds => render d ++ "," ++ renderItems ds

/-- Writes the fields of an object, separated by commas. -/
def renderFields : List (String × Document) → String
  | [] => ""
  | [(key, d)] => quoted key ++ ":" ++ render d
  | (key, d) :: fs => quoted key ++ ":" ++ render d ++ "," ++ renderFields fs

end

end Json

end Deduction
