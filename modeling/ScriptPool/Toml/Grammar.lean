import ScriptPool.Toml.Basic

/-!
# The syntax of TOML

A document is a sequence of statements: a key with a value, the header of a table, or the header of
an element of an array of tables.  This module reads the statements; what they add up to, and which
of them contradict each other, is decided in `ScriptPool.Toml.Document`.

Readers take the text that is left and give what they read together with the rest, or nothing if
the text is not of their form.  Values nest at most `nestingLimit` deep.  Inside an inline table the
entries are statements again, so a value is read as a `Term` and becomes an `Item` with the
document.
-/

set_option autoImplicit false

namespace ScriptPool
namespace Toml

/-- A dotted key. -/
abbrev Path := List String

/-- A value as written: inline tables still have dotted keys. -/
inductive Term where
  | string (s : String)
  | integer (n : Int)
  | float (x : Float)
  | boolean (b : Bool)
  | datetime
  | array (items : List Term)
  | inline (entries : List (Path × Term))

/-- A line of a document. -/
inductive Statement where
  /-- `key = value` -/
  | entry (path : Path) (value : Term)
  /-- A table header. -/
  | table (path : Path)
  /-- The header of an element of an array of tables. -/
  | element (path : Path)

/-- Arrays and inline tables nest at most this deep. -/
def nestingLimit : Nat := 79

/-- A reader: what was read and the rest of the text. -/
abbrev Reader (α : Type) := List Char → Option (α × List Char)

/-! ## Blanks, comments and line ends -/

/-- Blanks within a line. -/
def isSpace (c : Char) : Bool := c = ' ' || c = '\t'

/-- Skips blanks within a line. -/
def skipSpace (cs : List Char) : List Char := cs.dropWhile isSpace

/-- May a comment contain the character? -/
def isCommentChar (c : Char) : Bool := c = '\t' || (0x20 ≤ c.toNat && c.toNat ≠ 0x7f)

/-- Skips a comment, if there is one. -/
def skipComment : List Char → List Char
  | '#' :: rest => rest.dropWhile isCommentChar
  | cs => cs

/-- A line end. -/
def newline? : List Char → Option (List Char)
  | '\n' :: rest => some rest
  | '\r' :: '\n' :: rest => some rest
  | _ => none

/-- The end of a statement: blanks, a comment, and a line end or the end of the text. -/
def lineEnd? (cs : List Char) : Option (List Char) :=
  match skipComment (skipSpace cs) with
  | [] => some []
  | rest => newline? rest

/-- Skips blanks, comments and line ends; `fuel` bounds the number of lines. -/
def skipLines : Nat → List Char → List Char
  | 0, cs => cs
  | fuel + 1, cs =>
      let rest := skipComment (skipSpace cs)
      match newline? rest with
      | some rest => skipLines fuel rest
      | none => rest

/-! ## Strings

There are four kinds: with or without escapes, on one line or over several.  A quote ends a string
on one line, and three of them in a row end one over several lines. -/

/-- The value of a hexadecimal digit. -/
def hexDigit? (c : Char) : Option Nat :=
  if c.isDigit then some (c.toNat - '0'.toNat)
  else if 'a' ≤ c && c ≤ 'f' then some (c.toNat - 'a'.toNat + 10)
  else if 'A' ≤ c && c ≤ 'F' then some (c.toNat - 'A'.toNat + 10)
  else none

/-- A character given by `n` hexadecimal digits; surrogates and what lies beyond the last plane are
refused. -/
def codePoint (n : Nat) : Reader Char := fun cs => do
  let digits ← (cs.take n).mapM hexDigit?
  if digits.length ≠ n then none
  let code := digits.foldl (fun k d => 16 * k + d) 0
  if h : code.isValidChar then some (Char.ofNatAux code h, cs.drop n) else none

/-- What follows a backslash. -/
def escape : Reader Char
  | 'b' :: rest => some (Char.ofNat 8, rest)
  | 't' :: rest => some ('\t', rest)
  | 'n' :: rest => some ('\n', rest)
  | 'f' :: rest => some (Char.ofNat 12, rest)
  | 'r' :: rest => some ('\r', rest)
  | '"' :: rest => some ('"', rest)
  | '\\' :: rest => some ('\\', rest)
  | 'u' :: rest => codePoint 4 rest
  | 'U' :: rest => codePoint 8 rest
  | _ => none

/-- May a string contain the character as it is? -/
def isStringChar (c : Char) : Bool := c = '\t' || (0x20 ≤ c.toNat && c.toNat ≠ 0x7f)

/-- Prepends a character to what a reader gives. -/
def consChar (c : Char) : Option (List Char × List Char) → Option (List Char × List Char) :=
  Option.map fun (chars, rest) => (c :: chars, rest)

/-- The inside of a `"` string. -/
def basicTail : Nat → Reader (List Char)
  | 0, _ => none
  | fuel + 1, cs =>
      match cs with
      | '"' :: rest => some ([], rest)
      | '\\' :: rest => do
          let (c, rest) ← escape rest
          consChar c (basicTail fuel rest)
      | c :: rest => if isStringChar c then consChar c (basicTail fuel rest) else none
      | [] => none

/-- The inside of a `'` string. -/
def literalTail : Nat → Reader (List Char)
  | 0, _ => none
  | fuel + 1, cs =>
      match cs with
      | '\'' :: rest => some ([], rest)
      | c :: rest => if isStringChar c then consChar c (literalTail fuel rest) else none
      | [] => none

/-- The closing delimiter of a string over several lines: three quotes, in front of which up to two
more belong to the text. -/
def closing? (quote : Char) (cs : List Char) : Option (List Char × List Char) :=
  let run := (cs.takeWhile (· = quote)).length
  if 3 ≤ run then
    let extra := min 2 (run - 3)
    some (List.replicate extra quote, cs.drop (extra + 3))
  else none

/-- After a backslash at the end of a line: skips blanks up to the next visible character. -/
def skipFolded (cs : List Char) : List Char :=
  cs.dropWhile fun c => isSpace c || c = '\n' || c = '\r'

/-- Is there nothing but blanks up to the end of the line? -/
def foldsHere (cs : List Char) : Bool := (newline? (skipSpace cs)).isSome

/-- The inside of a string between three `"`. -/
def basicLines : Nat → Reader (List Char)
  | 0, _ => none
  | fuel + 1, cs =>
      match closing? '"' cs with
      | some result => some result
      | none =>
          match cs with
          | '\\' :: rest =>
              if foldsHere rest then basicLines fuel (skipFolded rest)
              else do
                let (c, rest) ← escape rest
                consChar c (basicLines fuel rest)
          | c :: rest =>
              match newline? (c :: rest) with
              | some rest => consChar '\n' (basicLines fuel rest)
              | none => if isStringChar c then consChar c (basicLines fuel rest) else none
          | [] => none

/-- The inside of a string between three `'`. -/
def literalLines : Nat → Reader (List Char)
  | 0, _ => none
  | fuel + 1, cs =>
      match closing? '\'' cs with
      | some result => some result
      | none =>
          match cs with
          | c :: rest =>
              match newline? (c :: rest) with
              | some rest => consChar '\n' (literalLines fuel rest)
              | none => if isStringChar c then consChar c (literalLines fuel rest) else none
          | [] => none

/-- A line end right after an opening delimiter does not belong to the string. -/
def dropFirstNewline (cs : List Char) : List Char := (newline? cs).getD cs

/-- A string of any of the four kinds. -/
def readString : Reader String := fun cs =>
  let fuel := cs.length + 1
  (match cs with
    | '"' :: '"' :: '"' :: rest => basicLines fuel (dropFirstNewline rest)
    | '\'' :: '\'' :: '\'' :: rest => literalLines fuel (dropFirstNewline rest)
    | '"' :: rest => basicTail fuel rest
    | '\'' :: rest => literalTail fuel rest
    | _ => none).map fun (chars, rest) => (String.ofList chars, rest)

/-! ## Keys -/

/-- Characters of a key without quotes. -/
def isBareKeyChar (c : Char) : Bool := c.isAlphanum || c = '_' || c = '-'

/-- One part of a key. -/
def simpleKey : Reader String := fun cs =>
  match cs with
  | '"' :: rest => (basicTail (cs.length + 1) rest).map fun (k, r) => (String.ofList k, r)
  | '\'' :: rest => (literalTail (cs.length + 1) rest).map fun (k, r) => (String.ofList k, r)
  | _ =>
      let key := cs.takeWhile isBareKeyChar
      if key.isEmpty then none else some (String.ofList key, cs.dropWhile isBareKeyChar)

/-- A dotted key, with blanks allowed around its parts. -/
def readPath : Nat → Reader Path
  | 0, _ => none
  | fuel + 1, cs => do
      let (key, rest) ← simpleKey (skipSpace cs)
      match skipSpace rest with
      | '.' :: rest =>
          let (path, rest) ← readPath fuel rest
          some (key :: path, rest)
      | rest => some ([key], rest)

/-! ## Numbers -/

/-- Digits with single underscores between them, the underscores dropped. -/
def digitRun (isDigit : Char → Bool) : Nat → Reader (List Char)
  | 0, _ => none
  | fuel + 1, cs =>
      match cs with
      | c :: rest =>
          if isDigit c then
            match rest with
            | '_' :: after =>
                (digitRun isDigit fuel after).map fun (digits, rest) => (c :: digits, rest)
            | d :: _ =>
                if isDigit d then
                  (digitRun isDigit fuel rest).map fun (digits, rest) => (c :: digits, rest)
                else some ([c], rest)
            | [] => some ([c], [])
          else none
      | [] => none

/-- The value of digits in a base. -/
def digitsValue (base : Nat) (digits : List Char) : Nat :=
  digits.foldl (fun n c => base * n + (hexDigit? c).getD 0) 0

/-- Does an integer fit into sixty-four bits? -/
def inRange (n : Int) : Bool := -(2 ^ 63) ≤ n && n < 2 ^ 63

/-- An integer in base sixteen, eight or two. -/
def basedInteger : Reader Term
  | '0' :: 'x' :: rest => read 16 (fun c => (hexDigit? c).isSome) rest
  | '0' :: 'o' :: rest => read 8 (fun c => '0' ≤ c && c ≤ '7') rest
  | '0' :: 'b' :: rest => read 2 (fun c => c = '0' || c = '1') rest
  | _ => none
where
  read (base : Nat) (isDigit : Char → Bool) : Reader Term := fun cs => do
    let (digits, rest) ← digitRun isDigit (cs.length + 1) cs
    let n : Int := digitsValue base digits
    if inRange n then some (.integer n, rest) else none

/-- A sign in front of a number. -/
def sign : List Char → Bool × List Char
  | '-' :: rest => (true, rest)
  | '+' :: rest => (false, rest)
  | cs => (false, cs)

/-- `digits · 10^exponent` as the nearest float. -/
def nearestFloat (digits : Nat) (exponent : Int) : Float :=
  if 0 ≤ exponent then
    if digits = 0 then 0.0 else Float.ofScientific digits false (min exponent.toNat 400)
  else Float.ofScientific digits true (-exponent).toNat

/-- A decimal number: an integer, or a float if a fraction or an exponent follows. -/
def decimalNumber : Reader Term := fun cs => do
  let fuel := cs.length + 1
  let (neg, unsigned) := sign cs
  let (whole, rest) ← digitRun Char.isDigit fuel unsigned
  if whole.head? = some '0' && whole.length ≠ 1 then none
  let (places, rest) ← match rest with
    | '.' :: after => digitRun Char.isDigit fuel after
    | _ => some ([], rest)
  let (shift, isFloat, rest) ← (match rest with
    | c :: after =>
        if c = 'e' || c = 'E' then
          let (down, digits) := sign after
          (digitRun Char.isDigit fuel digits).map fun (digits, rest) =>
            let n : Int := digitsValue 10 digits
            (if down then -n else n, true, rest)
        else some (0, !places.isEmpty, rest)
    | [] => some (0, !places.isEmpty, rest) : Option (Int × Bool × List Char))
  let digits := digitsValue 10 (whole ++ places)
  if isFloat then
    let magnitude := nearestFloat digits (max (shift - places.length) (-2000 - whole.length))
    if magnitude.isInf && !neg then none
    else some (.float (if neg then -magnitude else magnitude), rest)
  else
    let n : Int := if neg then -(digits : Int) else digits
    if inRange n then some (.integer n, rest) else none

/-- `inf` and `nan`, with an optional sign. -/
def specialFloat : Reader Term := fun cs =>
  let (neg, unsigned) := sign cs
  match unsigned with
  | 'i' :: 'n' :: 'f' :: rest => some (.float (if neg then -(1.0 / 0.0) else 1.0 / 0.0), rest)
  | 'n' :: 'a' :: 'n' :: rest => some (.float (0.0 / 0.0), rest)
  | _ => none

/-! ## Dates and times -/

/-- Exactly `n` digits whose value lies in a range. -/
def fixedDigits (n lo hi : Nat) : Reader Nat := fun cs =>
  let digits := cs.take n
  if digits.length = n && digits.all Char.isDigit then
    let value := digitsValue 10 digits
    if lo ≤ value && value ≤ hi then some (value, cs.drop n) else none
  else none

/-- The days of a month. -/
def daysIn (year month : Nat) : Nat :=
  if month = 2 then
    if (year % 4 = 0 && year % 100 ≠ 0) || year % 400 = 0 then 29 else 28
  else if month = 4 || month = 6 || month = 9 || month = 11 then 30
  else 31

/-- One given character. -/
def char (c : Char) : Reader Unit
  | d :: rest => if c = d then some ((), rest) else none
  | [] => none

/-- A calendar date. -/
def date : Reader Unit := fun cs => do
  let (year, rest) ← fixedDigits 4 0 9999 cs
  let (_, rest) ← char '-' rest
  let (month, rest) ← fixedDigits 2 1 12 rest
  let (_, rest) ← char '-' rest
  let (_, rest) ← fixedDigits 2 1 (daysIn year month) rest
  some ((), rest)

/-- A time of day. -/
def time : Reader Unit := fun cs => do
  let (_, rest) ← fixedDigits 2 0 23 cs
  let (_, rest) ← char ':' rest
  let (_, rest) ← fixedDigits 2 0 59 rest
  let (_, rest) ← char ':' rest
  let (_, rest) ← fixedDigits 2 0 60 rest
  match rest with
  | '.' :: c :: after =>
      if c.isDigit then some ((), after.dropWhile Char.isDigit) else some ((), rest)
  | _ => some ((), rest)

/-- An offset from universal time, if there is one. -/
def skipOffset (cs : List Char) : List Char :=
  match cs with
  | 'Z' :: rest => rest
  | 'z' :: rest => rest
  | c :: rest =>
      if c = '+' || c = '-' then
        match (do
            let (_, rest) ← fixedDigits 2 0 23 rest
            let (_, rest) ← char ':' rest
            let (_, rest) ← fixedDigits 2 0 59 rest
            some rest : Option (List Char)) with
        | some rest => rest
        | none => cs
      else cs
  | [] => []

/-- A date, a time, or both. -/
def datetime : Reader Term := fun cs =>
  match date cs with
  | some (_, rest) =>
      match rest with
      | c :: after =>
          if c = 'T' || c = 't' || c = ' ' then
            match time after with
            | some (_, rest) => some (.datetime, skipOffset rest)
            | none => some (.datetime, rest)
          else some (.datetime, rest)
      | [] => some (.datetime, [])
  | none => (time cs).map fun (_, rest) => (.datetime, rest)

/-! ## Values

Readers of values call each other for what is inside of arrays and inline tables, so they share one
supply of steps and one bound on the nesting. -/

/-- A word with a fixed meaning. -/
def keyword (word : String) (meaning : Term) : Reader Term := fun cs =>
  if word.toList.isPrefixOf cs then some (meaning, cs.drop word.length) else none

/-- Skips blanks, comments and line ends between the elements of an array. -/
def skipBetween (cs : List Char) : List Char := skipLines (cs.length + 1) cs

mutual

/-- A value nested at most `depth` deep; `fuel` bounds the steps. -/
def readTerm : Nat → Nat → Reader Term
  | 0, _, _ => none
  | fuel + 1, depth, cs =>
      match cs with
      | '"' :: _ => (readString cs).map fun (s, rest) => (.string s, rest)
      | '\'' :: _ => (readString cs).map fun (s, rest) => (.string s, rest)
      | '[' :: rest =>
          if depth = 0 then none
          else (readItems fuel (depth - 1) rest).map fun (items, rest) => (.array items, rest)
      | '\x7b' :: rest =>
          if depth = 0 then none
          else
            match skipSpace rest with
            | '\x7d' :: rest => some (.inline [], rest)
            | rest => (readEntries fuel (depth - 1) rest).map fun (es, rest) => (.inline es, rest)
      | 't' :: _ => keyword "true" (.boolean true) cs
      | 'f' :: _ => keyword "false" (.boolean false) cs
      | _ =>
          match datetime cs with
          | some result => some result
          | none =>
              match basedInteger cs with
              | some result => some result
              | none =>
                  match specialFloat cs with
                  | some result => some result
                  | none => decimalNumber cs

/-- The elements of an array and the closing bracket. -/
def readItems : Nat → Nat → Reader (List Term)
  | 0, _, _ => none
  | fuel + 1, depth, cs =>
      match skipBetween cs with
      | ']' :: rest => some ([], rest)
      | rest => do
          let (item, rest) ← readTerm fuel depth rest
          match skipBetween rest with
          | ',' :: rest =>
              let (items, rest) ← readItems fuel depth rest
              some (item :: items, rest)
          | ']' :: rest => some ([item], rest)
          | _ => none

/-- The entries of an inline table and the closing brace. -/
def readEntries : Nat → Nat → Reader (List (Path × Term))
  | 0, _, _ => none
  | fuel + 1, depth, cs => do
      let (path, rest) ← readPath (cs.length + 1) cs
      let (_, rest) ← char '=' rest
      let (value, rest) ← readTerm fuel depth (skipSpace rest)
      match skipSpace rest with
      | ',' :: rest =>
          let (entries, rest) ← readEntries fuel depth rest
          some ((path, value) :: entries, rest)
      | '\x7d' :: rest => some ([(path, value)], rest)
      | _ => none

end

/-! ## Statements -/

/-- The path of a header and its closing brackets. -/
def header (close : List Char) : Reader Path := fun cs => do
  let (path, rest) ← readPath (cs.length + 1) cs
  if close.isPrefixOf rest then some (path, rest.drop close.length) else none

/-- One statement, without its line end. -/
def readStatement : Reader Statement := fun cs =>
  match cs with
  | '[' :: '[' :: rest => (header [']', ']'] rest).map fun (path, rest) => (.element path, rest)
  | '[' :: rest => (header [']'] rest).map fun (path, rest) => (.table path, rest)
  | _ => do
      let (path, rest) ← readPath (cs.length + 1) cs
      let (_, rest) ← char '=' rest
      let (value, rest) ← readTerm (2 * cs.length + 2) nestingLimit (skipSpace rest)
      some (.entry path value, rest)

/-- The statements of a text; `fuel` bounds their number. -/
def readStatements : Nat → List Char → Option (List Statement)
  | 0, _ => none
  | fuel + 1, cs =>
      match skipSpace (skipBetween cs) with
      | [] => some []
      | rest => do
          let (statement, rest) ← readStatement rest
          let rest ← lineEnd? rest
          let statements ← readStatements fuel rest
          some (statement :: statements)

/-- A byte order mark in front of a text is skipped. -/
def dropMark : List Char → List Char
  | c :: rest => if c.toNat = 0xfeff then rest else c :: rest
  | [] => []

/-- The statements of a document. -/
def statements? (text : String) : Option (List Statement) :=
  let cs := dropMark text.toList
  readStatements (cs.length + 1) cs

end Toml
end ScriptPool
