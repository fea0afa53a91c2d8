import RecordQuery.Json.Shape
import RecordQuery.Text.Hex
import RecordQuery.Toml.Document
import RecordQuery.Toml.Numeral

/-!
# Reading TOML

A text is read line by line, and the lines build a `Document`. Values are texts (basic or
literal, on one line or on several), numbers, dates and times, truth values, arrays and inline
tables; brackets nest at most `nestingLimit` deep. The value of the document is a JSON object, in
which no name occurs twice.
-/

namespace RecordQuery.Toml

/-- How many brackets may be open at once, and how many names a key may have. -/
def nestingLimit : Nat := 79

/-! ## Blanks and comments -/

/-- Whether the character may stand between the parts of a line. -/
def isSpace (c : Char) : Bool := c = ' ' || c = '\t'

/-- Whether the character may stand in a text or a comment: no control character but the tab. -/
def isPlain (c : Char) : Bool := c = '\t' || (0x20 ≤ c.toNat && c.toNat ≠ 0x7F)

/-- The text without the spaces at its front. -/
def skipSpace (cs : List Char) : List Char := cs.dropWhile isSpace

/-- What follows a line break, if the text begins with one. -/
def newline? : List Char → Option (List Char)
  | '\n' :: r => some r
  | '\r' :: '\n' :: r => some r
  | _ => none

/-- The text without the comment at its front. -/
def skipComment : List Char → List Char
  | '#' :: r => r.dropWhile isPlain
  | cs => cs

/-- **The next line**: only spaces and a comment may stand before its beginning. -/
def endLine? (cs : List Char) : Option (List Char) :=
  match skipComment (skipSpace cs) with
  | [] => some []
  | c :: r => newline? (c :: r)

/-- The text without the spaces, comments and line breaks at its front; `fuel` bounds their
lines. -/
def skipLines : Nat → List Char → List Char
  | 0, cs => cs
  | fuel + 1, cs =>
    let rest := skipComment (skipSpace cs)
    match newline? rest with
    | none => rest
    | some next => skipLines fuel next

/-! ## Texts -/

/-- The character of a number that is one. -/
def charOf? (n : Nat) : Option Char := if h : n.isValidChar then some (Char.ofNatAux n h) else none

/-- The number of hexadecimal digits. -/
def hexDigits? (cs : List Char) : Option Nat :=
  cs.foldlM (fun n c => (Text.hexValue? c).map (16 * n + ·)) 0

/-- The character named by as many hexadecimal digits, and what follows them. -/
def readCode? (count : Nat) (cs : List Char) : Option (Char × List Char) :=
  if cs.length < count then none
  else
    match (hexDigits? (cs.take count)).bind charOf? with
    | none => none
    | some c => some (c, cs.drop count)

/-- The character named after a backslash, and what follows it. -/
def readEscape? : List Char → Option (Char × List Char)
  | 'b' :: r => some ('\x08', r)
  | 't' :: r => some ('\t', r)
  | 'n' :: r => some ('\n', r)
  | 'f' :: r => some ('\x0c', r)
  | 'r' :: r => some ('\r', r)
  | '"' :: r => some ('"', r)
  | '\\' :: r => some ('\\', r)
  | 'u' :: r => readCode? 4 r
  | 'U' :: r => readCode? 8 r
  | _ => none

/-- **The rest of a text on one line**, up to its closing quote; only a double quote admits escapes.
`fuel` bounds its characters. -/
def readText? (quote : Char) : Nat → List Char → List Char → Option (String × List Char)
  | 0, _, _ => none
  | fuel + 1, done, cs =>
    match cs with
    | [] => none
    | c :: r =>
      if c = quote then some (String.ofList done.reverse, r)
      else if c = '\\' ∧ quote = '"' then
        match readEscape? r with
        | none => none
        | some (e, r) => readText? quote fuel (e :: done) r
      else if isPlain c then readText? quote fuel (c :: done) r
      else none

/-- The text without the spaces and line breaks at its front. -/
def skipBlank : List Char → List Char
  | '\n' :: r => skipBlank r
  | '\r' :: '\n' :: r => skipBlank r
  | c :: r => if isSpace c then skipBlank r else c :: r
  | [] => []

/-- What follows a backslash at the end of a line: the text without the spaces and line breaks up to
its next character. -/
def joinLines? (cs : List Char) : Option (List Char) := (newline? (skipSpace cs)).map skipBlank

/-- **The rest of a text on several lines**, up to three closing quotes; up to two more quotes
before them belong to it. -/
def readLines? (quote : Char) : Nat → List Char → List Char → Option (String × List Char)
  | 0, _, _ => none
  | fuel + 1, done, cs =>
    match cs with
    | [] => none
    | c :: r =>
      if c = quote then
        let run := min 5 (cs.takeWhile (· = quote)).length
        if run < 3 then readLines? quote fuel (c :: done) r
        else some (String.ofList (List.replicate (run - 3) quote ++ done).reverse, cs.drop run)
      else if c = '\\' ∧ quote = '"' then
        match joinLines? r with
        | some r => readLines? quote fuel done r
        | none =>
          match readEscape? r with
          | none => none
          | some (e, r) => readLines? quote fuel (e :: done) r
      else
        match newline? cs with
        | some r => readLines? quote fuel ('\n' :: done) r
        | none => if isPlain c then readLines? quote fuel (c :: done) r else none

/-- The text after an opening quote; three quotes open one on several lines, and a line break right
after them is dropped. -/
def readQuoted? (quote : Char) (cs : List Char) : Option (String × List Char) :=
  match cs with
  | a :: b :: r =>
    if a = quote ∧ b = quote then
      readLines? quote (r.length + 1) [] ((newline? r).getD r)
    else readText? quote (cs.length + 1) [] cs
  | _ => readText? quote (cs.length + 1) [] cs

/-! ## Keys -/

/-- Whether the character may stand in a key without quotes. -/
def isBare (c : Char) : Bool := c.isAlphanum || c = '_' || c = '-'

/-- One name of a key. -/
def readName? : List Char → Option (String × List Char)
  | '"' :: r => readText? '"' (r.length + 1) [] r
  | '\'' :: r => readText? '\'' (r.length + 1) [] r
  | cs =>
    let name := cs.takeWhile isBare
    if name.isEmpty then none else some (String.ofList name, cs.dropWhile isBare)

/-- The names of a dotted key, latest first; `fuel` bounds their number. -/
def readNames? : Nat → List String → List Char → Option (List String × List Char)
  | 0, _, _ => none
  | fuel + 1, done, cs =>
    match readName? (skipSpace cs) with
    | none => none
    | some (name, rest) =>
      match skipSpace rest with
      | '.' :: more => readNames? fuel (name :: done) more
      | rest => some (name :: done, rest)

/-- **A dotted key**, and what follows it and its spaces. -/
def readKey? (cs : List Char) : Option (List String × List Char) :=
  (readNames? nestingLimit [] cs).map fun (names, rest) => (names.reverse, rest)

/-! ## Values -/

/-- A value without brackets. -/
def readScalar? : List Char → Option (Json × List Char)
  | '"' :: r => (readQuoted? '"' r).map fun (s, rest) => (.string s, rest)
  | '\'' :: r => (readQuoted? '\'' r).map fun (s, rest) => (.string s, rest)
  | 't' :: 'r' :: 'u' :: 'e' :: r => some (.bool true, r)
  | 'f' :: 'a' :: 'l' :: 's' :: 'e' :: r => some (.bool false, r)
  | cs => readNumeral? cs

/-- The items of an array up to its closing bracket, latest first; the last comma may be missing. -/
def readItems? (read : List Char → Option (Json × List Char)) :
    Nat → List Json → List Char → Option (List Json × List Char)
  | 0, _, _ => none
  | fuel + 1, done, cs =>
    match skipLines cs.length cs with
    | ']' :: rest => some (done, rest)
    | cs =>
      match read cs with
      | none => none
      | some (v, rest) =>
        match skipLines rest.length rest with
        | ',' :: rest => readItems? read fuel (v :: done) rest
        | ']' :: rest => some (v :: done, rest)
        | _ => none

/-- A key, an equals sign and a value. -/
def readAssignment? (read : List Char → Option (Json × List Char)) (cs : List Char) :
    Option ((List String × Json) × List Char) :=
  match readKey? cs with
  | some (key, '=' :: rest) => (read (skipSpace rest)).map fun (v, rest) => ((key, v), rest)
  | _ => none

/-- The assignments of an inline table up to its closing bracket; none may be missing after a
comma. -/
def readInline? (read : List Char → Option (Json × List Char)) :
    Nat → Entries → List Char → Option (Entries × List Char)
  | 0, _, _ => none
  | fuel + 1, done, cs =>
    match readAssignment? read cs with
    | none => none
    | some ((key, v), rest) =>
      match done.assign? v key with
      | none => none
      | some done =>
        match skipSpace rest with
        | ',' :: rest => readInline? read fuel done rest
        | '\x7d' :: rest => some (done, rest)
        | _ => none

/-- **A value** whose brackets nest at most as deep as given. -/
def readValue? : Nat → List Char → Option (Json × List Char)
  | 0, cs => readScalar? cs
  | depth + 1, cs =>
    match cs with
    | '[' :: r =>
      (readItems? (readValue? depth) (r.length + 1) [] r).map fun (items, rest) =>
        (.array items.reverse, rest)
    | '\x7b' :: r =>
      match skipSpace r with
      | '\x7d' :: rest => some (.object [], rest)
      | r =>
        (readInline? (readValue? depth) (r.length + 1) [] r).map fun (entries, rest) =>
          (.object (entriesJson entries), rest)
    | _ => readScalar? cs

/-! ## Lines -/

/-- A header after its opening brackets, up to its closing ones. -/
def readHeader? (closing : List Char) (cs : List Char) : Option (List String × List Char) :=
  match readKey? cs with
  | none => none
  | some (path, rest) =>
    if closing.isPrefixOf rest then some (path, rest.drop closing.length) else none

/-- A header or an assignment. -/
def readLine? : List Char → Option (Line × List Char)
  | '[' :: '[' :: r => (readHeader? [']', ']'] r).map fun (path, rest) => (.element path, rest)
  | '[' :: r => (readHeader? [']'] r).map fun (path, rest) => (.table path, rest)
  | cs =>
    (readAssignment? (readValue? nestingLimit) cs).map fun ((path, v), rest) =>
      (.assignment path v, rest)

/-- Adds the lines of a text to a document; `fuel` bounds their number. -/
def readDocument? : Nat → Document → List Char → Option Document
  | 0, _, _ => none
  | fuel + 1, d, cs =>
    match skipLines cs.length cs with
    | [] => some d
    | c :: r =>
      match readLine? (c :: r) with
      | none => none
      | some (line, rest) =>
        match d.add? line, endLine? rest with
        | some d, some rest => readDocument? fuel d rest
        | _, _ => none

/-- The text without a byte order mark. -/
def withoutMark : List Char → List Char
  | '\ufeff' :: cs => cs
  | cs => cs

/-- **The value of a text.** -/
def read? (text : String) : Option Json :=
  let cs := withoutMark text.toList
  (readDocument? (cs.length + 1) .empty cs).map Document.toJson

/-- **The value of a text for a reader that looks at a shape.** -/
def readAs? (s : Json.Shape) (text : String) : Option Json := (read? text).map s.settle

end RecordQuery.Toml
