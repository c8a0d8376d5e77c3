import Deduction.Document

/-!
# YAML text

Reading documents from a small part of YAML, as much as settings are written in:
a block mapping of `key: value` lines or a flow mapping, whose values are plain
or quoted scalars, flow collections, or block sequences.  Comments and blank
lines are skipped, and a value may go on over lines that are indented further.

The text does not say what kind of value a scalar is.  It is read as a tree of
`Node`s, in which a scalar is a text with or without quotes, and
`Node.toDocument` settles the kind from the key that the scalar stands behind:
under a numeric key it is a natural number if it spells one, quoted or not,
and elsewhere a string.  Only a plain scalar can be null.  Keys are kept as they
come, a repeated one included.
-/

namespace Deduction

namespace Yaml

/-- A character that separates words. -/
def isBlank (c : Char) : Bool :=
  c = ' ' || c = '\t' || c = '\r'

/-- A text without the blanks around it. -/
def trim (cs : List Char) : List Char :=
  ((cs.dropWhile isBlank).reverse.dropWhile isBlank).reverse

/-! ## Scalars -/

/-- The value of a digit in a base. -/
def digit? (base : Nat) (c : Char) : Option Nat :=
  let value :=
    if '0' ≤ c && c ≤ '9' then c.toNat - '0'.toNat
    else if 'a' ≤ c && c ≤ 'f' then c.toNat - 'a'.toNat + 10
    else if 'A' ≤ c && c ≤ 'F' then c.toNat - 'A'.toNat + 10
    else base
  if value < base then some value else none

/-- The value of some digits in a base.  They may be set apart by low lines. -/
def digits? (base : Nat) (cs : List Char) : Option Nat :=
  let cs := cs.filter (· ≠ '_')
  if cs.isEmpty then none
  else cs.foldlM (fun n c => (digit? base c).map (base * n + ·)) 0

/-- The base that the front of a number names, and the digits after it. -/
def base : List Char → Nat × List Char
  | '0' :: 'x' :: cs => (16, cs)
  | '0' :: 'X' :: cs => (16, cs)
  | '0' :: 'o' :: cs => (8, cs)
  | '0' :: 'O' :: cs => (8, cs)
  | '0' :: 'b' :: cs => (2, cs)
  | '0' :: 'B' :: cs => (2, cs)
  | cs => (10, cs)

/-- A number without the plus sign that may stand before it. -/
def dropPlus : List Char → List Char
  | '+' :: cs => cs
  | cs => cs

/-- The natural number that a text spells. -/
def natural? (text : String) : Option Nat :=
  let (b, cs) := base (dropPlus (Text.strip text.toList))
  digits? b cs

/-- Whether a plain scalar of this text is null. -/
def isNull (text : String) : Bool :=
  text = "" || text = "~" || text.toLower = "null"

/-! ## Nodes -/

/-- A tree of scalars. -/
inductive Node where
  | scalar (quoted : Bool) (text : String)
  | sequence (items : List Node)
  | mapping (fields : List (String × Node))
  deriving Repr, Inhabited

/-- What a scalar stands for, where a number is asked for or not. -/
def scalarDocument (numeric quoted : Bool) (text : String) : Document :=
  if !quoted && isNull text then .null
  else
    match if numeric then natural? text else none with
    | some n => .integer n
    | none => .string text

namespace Node

mutual

/-- The document of a node, where `isNumeric` tells the keys with numbers behind
them, and `numeric` whether the node stands behind such a key. -/
def toDocument (isNumeric : String → Bool) (numeric : Bool) : Node → Document
  | .scalar quoted text => scalarDocument numeric quoted text
  | .sequence items => .array (toDocuments isNumeric numeric items)
  | .mapping fields => .object (toFields isNumeric fields)

/-- The documents of some nodes behind one key. -/
def toDocuments (isNumeric : String → Bool) (numeric : Bool) : List Node → List Document
  | [] => []
  | node :: nodes =>
    toDocument isNumeric numeric node :: toDocuments isNumeric numeric nodes

/-- The fields of an object. -/
def toFields (isNumeric : String → Bool) : List (String × Node) → List (String × Document)
  | [] => []
  | (key, node) :: fields =>
    (key, toDocument isNumeric (isNumeric key) node) :: toFields isNumeric fields

end

end Node

/-! ## Quotes -/

/-- The rest of a scalar in single quotes, where a quote is written twice, and
the text after it. -/
def singleQuoted : List Char → Option (List Char × List Char)
  | [] => none
  | '\'' :: '\'' :: cs => (singleQuoted cs).map fun (text, rest) => ('\'' :: text, rest)
  | '\'' :: cs => some ([], cs)
  | c :: cs => (singleQuoted cs).map fun (text, rest) => (c :: text, rest)

/-- The character that an escape in double quotes stands for. -/
def escaped? : Char → Option Char
  | '"' => some '"'
  | '\\' => some '\\'
  | '/' => some '/'
  | ' ' => some ' '
  | '0' => some '\x00'
  | 'a' => some '\x07'
  | 'b' => some '\x08'
  | 't' => some '\t'
  | '\t' => some '\t'
  | 'n' => some '\n'
  | 'v' => some '\x0b'
  | 'f' => some '\x0c'
  | 'r' => some '\r'
  | 'e' => some '\x1b'
  | 'N' => some '\x85'
  | '_' => some '\xa0'
  | 'L' => some '\u2028'
  | 'P' => some '\u2029'
  | _ => none

/-- How many digits follow an escape that gives a code point. -/
def codeLength? : Char → Option Nat
  | 'x' => some 2
  | 'u' => some 4
  | 'U' => some 8
  | _ => none

/-- The character of a code point. -/
def ofCode? (code : Nat) : Option Char :=
  if code.isValidChar then some (Char.ofNat code) else none

/-- Where a reader stands in double quotes: in the text, behind a backslash, or
before some further digits of a code point. -/
inductive Quote where
  | text
  | escape
  | code (left value : Nat)

/-- The rest of a scalar in double quotes, and the text after it. -/
def doubleQuoted : Quote → List Char → Option (List Char × List Char)
  | _, [] => none
  | .text, c :: cs =>
    if c = '"' then some ([], cs)
    else if c = '\\' then doubleQuoted .escape cs
    else (doubleQuoted .text cs).map fun (text, rest) => (c :: text, rest)
  | .escape, c :: cs =>
    match codeLength? c with
    | some n => doubleQuoted (.code n 0) cs
    | none =>
      match escaped? c with
      | none => none
      | some c => (doubleQuoted .text cs).map fun (text, rest) => (c :: text, rest)
  | .code left value, c :: cs =>
    match digit? 16 c with
    | none => none
    | some d =>
      if 1 < left then doubleQuoted (.code (left - 1) (16 * value + d)) cs
      else
        match ofCode? (16 * value + d) with
        | none => none
        | some c => (doubleQuoted .text cs).map fun (text, rest) => (c :: text, rest)

/-- The characters that begin or separate the parts of a flow collection. -/
def isFlowMark (c : Char) : Bool :=
  c = ',' || c = '[' || c = ']' || c = '\x7b' || c = '\x7d'

/-- Whether a colon before this text ends a key. -/
def endsKey : List Char → Bool
  | [] => true
  | c :: _ => isBlank c || isFlowMark c

/-- A plain scalar inside a flow collection, and the text after it. -/
def flowPlain : List Char → List Char × List Char
  | [] => ([], [])
  | c :: cs =>
    if isFlowMark c || (c = ':' && endsKey cs) then ([], c :: cs)
    else
      let (text, rest) := flowPlain cs
      (c :: text, rest)

/-! ## Flow collections -/

/-- A scalar that is a key of a flow mapping, and the text after it. -/
def flowKey (cs : List Char) : Option (String × List Char) :=
  match cs.dropWhile isBlank with
  | '"' :: rest => (doubleQuoted .text rest).map fun (text, rest) => (String.ofList text, rest)
  | '\'' :: rest => (singleQuoted rest).map fun (text, rest) => (String.ofList text, rest)
  | rest =>
    let (text, rest) := flowPlain rest
    if (trim text).isEmpty then none else some (String.ofList (trim text), rest)

mutual

/-- Reads a value with a given supply of steps. -/
def flowValue : Nat → List Char → Option (Node × List Char)
  | 0, _ => none
  | n + 1, cs =>
    match cs.dropWhile isBlank with
    | '[' :: rest => (flowItems n rest).map fun (items, rest) => (.sequence items, rest)
    | '\x7b' :: rest => (flowFields n rest).map fun (fields, rest) => (.mapping fields, rest)
    | '"' :: rest =>
      (doubleQuoted .text rest).map fun (text, rest) => (.scalar true (String.ofList text), rest)
    | '\'' :: rest =>
      (singleQuoted rest).map fun (text, rest) => (.scalar true (String.ofList text), rest)
    | rest =>
      let (text, rest) := flowPlain rest
      some (.scalar false (String.ofList (trim text)), rest)

/-- Reads the items of a flow sequence up to its end. -/
def flowItems : Nat → List Char → Option (List Node × List Char)
  | 0, _ => none
  | n + 1, cs =>
    match cs.dropWhile isBlank with
    | ']' :: rest => some ([], rest)
    | ',' :: _ => none
    | start =>
      match flowValue n start with
      | none => none
      | some (item, rest) =>
        match rest.dropWhile isBlank with
        | ',' :: rest => (flowItems n rest).map fun (items, rest) => (item :: items, rest)
        | ']' :: rest => some ([item], rest)
        | _ => none

/-- Reads the fields of a flow mapping up to its end. -/
def flowFields : Nat → List Char → Option (List (String × Node) × List Char)
  | 0, _ => none
  | n + 1, cs =>
    match cs.dropWhile isBlank with
    | '\x7d' :: rest => some ([], rest)
    | start =>
      match flowKey start with
      | none => none
      | some (key, rest) =>
        let field? :=
          match rest.dropWhile isBlank with
          | ':' :: rest => flowValue n rest
          | rest => some (.scalar false "", rest)
        match field? with
        | none => none
        | some (value, rest) =>
          match rest.dropWhile isBlank with
          | ',' :: rest =>
            (flowFields n rest).map fun (fields, rest) => ((key, value) :: fields, rest)
          | '\x7d' :: rest => some ([(key, value)], rest)
          | _ => none

end

/-- Reads a text that is a quoted scalar or a flow collection and nothing
else. -/
def flow? (cs : List Char) : Option Node :=
  match flowValue (2 * cs.length + 2) cs with
  | some (d, rest) => if (trim rest).isEmpty then some d else none
  | none => none

/-! ## Lines -/

/-- A line with content: how far it is indented, and the content. -/
structure Row where
  indent : Nat
  content : List Char

/-- A line without its comment.  A comment begins at a number sign after a
blank, and a quoted scalar after a blank or a mark of a flow collection.
`quote` is the quote that is open, `before` the character before. -/
def dropComment (quote : Option Char) (before : Char) : List Char → List Char
  | [] => []
  | c :: cs =>
    match quote with
    | some q =>
      if q = '"' && before = '\\' then c :: dropComment quote ' ' cs
      else c :: dropComment (if c = q then none else quote) c cs
    | none =>
      if c = '#' && isBlank before then []
      else if (c = '"' || c = '\'') && (isBlank before || isFlowMark before) then
        c :: dropComment (some c) c cs
      else c :: dropComment none c cs

/-- The lines of a text that have content. -/
def rows (text : String) : List Row :=
  (text.splitOn "\n").filterMap fun line =>
    let cs := dropComment none ' ' line.toList
    if (trim cs).isEmpty then none
    else some ⟨(cs.takeWhile isBlank).length, trim cs⟩

/-- The content of a line that is an item of a block sequence. -/
def item? : List Char → Option (List Char)
  | ['-'] => some []
  | '-' :: c :: cs => if isBlank c then some (trim cs) else none
  | _ => none

/-- Splits a text at the first colon that ends a key. -/
def splitKey : List Char → Option (List Char × List Char)
  | [] => none
  | c :: cs =>
    if c = ':' && (cs.isEmpty || cs.head?.any isBlank) then some ([], trim cs)
    else (splitKey cs).map fun (key, rest) => (c :: key, rest)

/-- Key and value of a line of a block mapping. -/
def keyValue? (cs : List Char) : Option (String × List Char) :=
  match cs with
  | '"' :: rest =>
    (doubleQuoted .text rest).bind fun (key, rest) =>
      (splitKey (trim rest)).bind fun (gap, value) =>
        if gap.isEmpty then some (String.ofList key, value) else none
  | '\'' :: rest =>
    (singleQuoted rest).bind fun (key, rest) =>
      (splitKey (trim rest)).bind fun (gap, value) =>
        if gap.isEmpty then some (String.ofList key, value) else none
  | _ =>
    (splitKey cs).bind fun (key, value) =>
      if (trim key).isEmpty then none else some (String.ofList (trim key), value)

/-- The value that stands behind a key or a dash. -/
def value? (cs : List Char) : Option Node :=
  match cs with
  | [] => some (.scalar false "")
  | c :: _ =>
    if c = '"' || c = '\'' || c = '[' || c = '\x7b' then flow? cs
    else if isFlowMark c || (splitKey cs).isSome then none
    else some (.scalar false (String.ofList cs))

/-- A mapping that has been read up to some line: the fields that are complete,
and the last key with the text and the items behind it so far. -/
structure Draft where
  fields : List (String × Node) := []
  last : Option (String × List Char × List Node) := none

namespace Draft

/-- The mapping with the last field completed. -/
def close (draft : Draft) : Option (List (String × Node)) :=
  match draft.last with
  | none => some draft.fields
  | some (key, text, items) =>
    if items.isEmpty then
      (value? text).map fun value => draft.fields ++ [(key, value)]
    else if text.isEmpty then some (draft.fields ++ [(key, .sequence items)])
    else none

/-- Takes in the next line of a mapping whose keys are indented by `indent`. -/
def push (indent : Nat) (draft : Draft) (row : Row) : Option Draft :=
  match item? row.content, draft.last with
  | some item, some (key, text, items) =>
    (value? item).map fun value => { draft with last := some (key, text, items ++ [value]) }
  | some _, none => none
  | none, last =>
    if row.indent = indent then
      draft.close.bind fun fields =>
        (keyValue? row.content).map fun (key, text) => ⟨fields, some (key, text, [])⟩
    else if indent < row.indent then
      last.bind fun (key, text, items) =>
        if items.isEmpty && !text.isEmpty then
          some { draft with last := some (key, text ++ ' ' :: row.content, []) }
        else none
    else none

end Draft

/-- Reads a block mapping. -/
def mapping? (indent : Nat) (rows : List Row) : Option Node :=
  (rows.foldlM (Draft.push indent) {}).bind fun draft => draft.close.map .mapping

/-- Reads a block sequence. -/
def sequence? (rows : List Row) : Option Node :=
  (rows.mapM fun row => (item? row.content).bind value?).map .sequence

/-- Reads a whole text.  A text without content is an empty scalar. -/
def parse? (text : String) : Option Node :=
  match rows text with
  | [] => some (.scalar false "")
  | row :: rest =>
    if row.content.head? = some '\x7b' then
      flow? ((row :: rest).flatMap fun r => ' ' :: r.content)
    else if (item? row.content).isSome then sequence? (row :: rest)
    else mapping? row.indent (row :: rest)

end Yaml

end Deduction
