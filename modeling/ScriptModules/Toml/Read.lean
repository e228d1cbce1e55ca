import ScriptModules.Decimal.Read
import ScriptModules.Text.Split
import ScriptModules.Toml.Tables

/-!
# Reading TOML documents

A reader takes characters off the front of a text, or refuses; where it refuses another one may be tried
from the same place.  Lists and tables between brackets may nest `nestingLimit` deep, and the loops read
at least one character a round, so the number of characters bounds them.
-/

namespace ScriptModules.Toml

abbrev Reader := StateT (List Char) Option

/-- How deep lists and tables between brackets may nest, and how many keys a path may have. -/
def nestingLimit : Nat := 79

namespace Reader

def refuse {α : Type} : Reader α := fun _ => none

def peek? : Reader (Option Char) := return (← get).head?

/-- The number of characters that are left. -/
def remaining : Reader Nat := return (← get).length

/-- Reads one character of a kind. -/
def one (kind : Char → Bool) : Reader Char := fun
  | [] => none
  | c :: cs => if kind c then some (c, cs) else none

/-- Reads characters as long as they are of a kind. -/
def many (kind : Char → Bool) : Reader (List Char) := fun cs =>
  some (cs.takeWhile kind, cs.dropWhile kind)

/-- Reads this text. -/
def word (text : List Char) : Reader Unit := fun cs =>
  if text.isPrefixOf cs then some ((), cs.drop text.length) else none

/-- Reads one character if it is this one, and tells whether it was. -/
def accepts (c : Char) : Reader Bool := fun
  | [] => some (false, [])
  | d :: cs => if d = c then some (true, cs) else some (false, d :: cs)

/-- Reads something, or nothing where that is refused. -/
def maybe {α : Type} (reader : Reader α) : Reader (Option α) := fun cs =>
  match reader cs with
  | some (a, rest) => some (some a, rest)
  | none => some (none, cs)

/-- Drops blanks. -/
def blanks : Reader Unit := do let _ ← many fun c => c = ' ' || c = '\t'

/-- A line feed, with a carriage return before it or without. -/
def lineFeed : Reader Unit := word ['\n'] <|> word ['\r', '\n']

/-- May the character stand in a comment or a text of one line? -/
def isPlain (c : Char) : Bool := (0x20 ≤ c.toNat || c = '\t') && c.toNat ≠ 0x7f

/-- Drops a comment, if there is one. -/
def comment : Reader Unit := do
  if ← accepts '#' then let _ ← many isPlain

/-- The end of a line: blanks, a comment, and a line feed or the end of the text. -/
def lineEnd : Reader Unit := do
  blanks
  comment
  if (← get).isEmpty then return ()
  lineFeed

/-- Drops blanks, comments and line feeds. -/
def gap : Nat → Reader Unit
  | 0 => return ()
  | fuel + 1 => do
    blanks
    comment
    match ← maybe lineFeed with
    | some _ => gap fuel
    | none => return ()

/-- Drops blanks and line feeds. -/
def skipLines : Nat → Reader Unit
  | 0 => return ()
  | fuel + 1 => do
    blanks
    match ← maybe lineFeed with
    | some _ => skipLines fuel
    | none => return ()

/-! ## Texts -/

def isHexDigit (c : Char) : Bool := c.isDigit || ('a' ≤ c.toLower && c.toLower ≤ 'f')

def hexValue (cs : List Char) : Nat :=
  cs.foldl (fun n c =>
    16 * n + if c.isDigit then c.toNat - '0'.toNat else c.toLower.toNat - 'a'.toNat + 10) 0

/-- Exactly `n` characters of a kind. -/
def exactly (kind : Char → Bool) : Nat → Reader (List Char)
  | 0 => return []
  | n + 1 => do
    let c ← one kind
    return c :: (← exactly kind n)

/-- The character with a code of `n` digits. -/
def codeEscape (n : Nat) : Reader Char := do
  let code := hexValue (← exactly isHexDigit n)
  if code.isValidChar then return Char.ofNat code else refuse

/-- What stands behind a backslash. -/
def escaped : Reader Char := do
  match ← one fun _ => true with
  | 'b' => return Char.ofNat 0x08
  | 't' => return '\t'
  | 'n' => return '\n'
  | 'f' => return Char.ofNat 0x0c
  | 'r' => return '\r'
  | '"' => return '"'
  | '\\' => return '\\'
  | 'u' => codeEscape 4
  | 'U' => codeEscape 8
  | _ => refuse

/-- A text of one line up to its double quote. -/
def basicTail : Nat → Reader (List Char)
  | 0 => refuse
  | fuel + 1 => do
    match ← one isPlain with
    | '"' => return []
    | '\\' =>
      let c ← escaped
      return c :: (← basicTail fuel)
    | c => return c :: (← basicTail fuel)

/-- A text of one line up to its single quote. -/
def literalTail : Reader (List Char) := do
  let cs ← many fun c => isPlain c && c ≠ '\''
  word ['\'']
  return cs

/-- The quotes at the end of a text of several lines: two of them may belong to the text. -/
def closingQuotes (quote : Char) : Reader (Option (List Char)) := do
  let run ← many (· = quote)
  if run.length < 3 then return none
  else if run.length ≤ 5 then return some (run.drop 3)
  else refuse

/-- A text of several lines up to its three quotes; between double quotes there are escapes. -/
def linesTail (quote : Char) : Nat → Reader (List Char)
  | 0 => refuse
  | fuel + 1 => do
    match ← peek? with
    | none => refuse
    | some c =>
      if c = quote then
        let before := (← get).takeWhile (· = quote)
        match ← closingQuotes quote with
        | some last => return last
        | none => return before ++ (← linesTail quote fuel)
      else if c = '\\' && quote = '"' then
        word ['\\']
        match ← maybe (do blanks; lineFeed) with
        | some _ =>
          skipLines ((← remaining) + 1)
          linesTail quote fuel
        | none =>
          let c ← escaped
          return c :: (← linesTail quote fuel)
      else
        match ← maybe lineFeed with
        | some _ => return '\n' :: (← linesTail quote fuel)
        | none =>
          let c ← one isPlain
          return c :: (← linesTail quote fuel)

/-- A text between three quotes; a line feed at its start does not count. -/
def lines (quote : Char) : Reader (List Char) := do
  word [quote, quote, quote]
  let _ ← maybe lineFeed
  linesTail quote ((← remaining) + 1)

/-- A text on one line. -/
def lineText : Reader (List Char) := do
  if ← accepts '"' then basicTail ((← remaining) + 1)
  else
    word ['\'']
    literalTail

/-- A text between quotes. -/
def text : Reader (List Char) := lines '"' <|> lines '\'' <|> lineText

/-! ## Keys -/

/-- A key without dots. -/
def key : Reader String := do
  let bare ← many isBare
  if bare.isEmpty then return String.ofList (← lineText)
  else return String.ofList bare

/-- Keys with dots between them, and blanks around them. -/
def path : Nat → Reader (List String)
  | 0 => refuse
  | fuel + 1 => do
    blanks
    let first ← key
    blanks
    if ← accepts '.' then return first :: (← path fuel)
    else return [first]

/-! ## Numbers -/

/-- Digits of a kind with single underscores between them. -/
def digits (kind : Char → Bool) : Reader (List Char) := do
  let cs ← many fun c => kind c || c = '_'
  let kept := cs.filter (· ≠ '_')
  let wellPlaced := (Text.split '_' cs).all fun piece => !piece.isEmpty
  if wellPlaced then return kept else refuse

def sign : Reader Bool := do
  if ← accepts '-' then return true
  let _ ← accepts '+'
  return false

/-- Decimal digits with no zero before others. -/
def whole : Reader (List Char) := do
  match ← digits Char.isDigit with
  | '0' :: _ :: _ => refuse
  | cs => return cs

/-- The number behind `0` and a letter for its base. -/
def based : Reader Nat := do
  word ['0']
  match ← one fun _ => true with
  | 'x' => return hexValue (← digits isHexDigit)
  | 'o' =>
    let cs ← digits fun c => '0' ≤ c && c ≤ '7'
    return cs.foldl (fun n c => 8 * n + Decimal.digitValue c) 0
  | 'b' =>
    let cs ← digits fun c => c = '0' || c = '1'
    return cs.foldl (fun n c => 2 * n + Decimal.digitValue c) 0
  | _ => refuse

/-- A number that fits into 64 bits with a sign. -/
def integer : Reader Toml := do
  let n : Int ← (do return (← based : Int)) <|> (do
    let negative ← sign
    let n : Int := Decimal.ofDigits (← whole)
    return if negative then -n else n)
  if -9223372036854775808 ≤ n && n ≤ 9223372036854775807 then return .integer n else refuse

/-- An exponent. -/
def exponent : Reader Int := do
  let _ ← one fun c => c = 'e' || c = 'E'
  let negative ← sign
  let n : Int := Decimal.ofDigits (← digits Char.isDigit)
  return if negative then -n else n

/-- A number with a fraction or an exponent, or one of the words for the numbers that have none. -/
def float : Reader Toml := do
  let negative ← sign
  let signed (x : Float) : Toml := .float (if negative then -x else x)
  let special : Reader Toml :=
    (do word "inf".toList; return signed (1.0 / 0.0))
      <|> (do word "nan".toList; return .notNumber)
  let decimal : Reader Toml := do
    let cs ← whole
    let fraction? ← maybe (do word ['.']; digits Char.isDigit)
    let exponent? ← maybe exponent
    if fraction?.isNone && exponent?.isNone then refuse
    let fraction := fraction?.getD []
    let x := Decimal.nearest (Decimal.ofDigits (cs ++ fraction))
      (exponent?.getD 0 - fraction.length)
    if x == 1.0 / 0.0 && !negative then refuse else return signed x
  special <|> decimal

/-! ## Dates and times -/

/-- A number of exactly `n` digits within bounds, as it is written. -/
def field (n first last : Nat) : Reader String := do
  let cs ← exactly Char.isDigit n
  let value := Decimal.ofDigits cs
  if first ≤ value && value ≤ last then return String.ofList cs else refuse

/-- The number of days of a month. -/
def daysOf (year month : Nat) : Nat :=
  if month = 2 then
    if year % 4 = 0 && (year % 100 ≠ 0 || year % 400 = 0) then 29 else 28
  else if month = 4 || month = 6 || month = 9 || month = 11 then 30
  else 31

def date : Reader String := do
  let year ← field 4 0 9999
  word ['-']
  let month ← field 2 1 12
  word ['-']
  let day ← field 2 1 (daysOf (Decimal.ofDigits year.toList) (Decimal.ofDigits month.toList))
  return year ++ "-" ++ month ++ "-" ++ day

/-- A fraction of a second; nine digits count, and no zeros at the end. -/
def secondFraction : Reader String := do
  word ['.']
  let cs ← many Char.isDigit
  if cs.isEmpty then refuse
  match ((cs.take 9).reverse.dropWhile (· = '0')).reverse with
  | [] => return ""
  | cs => return "." ++ String.ofList cs

def time : Reader String := do
  let hour ← field 2 0 23
  word [':']
  let minute ← field 2 0 59
  word [':']
  let second ← field 2 0 60
  let fraction := (← maybe secondFraction).getD ""
  return hour ++ ":" ++ minute ++ ":" ++ second ++ fraction

/-- The distance of a time from the standard one. -/
def offset : Reader String := do
  match ← one fun _ => true with
  | 'Z' | 'z' => return "Z"
  | '+' => shift "+"
  | '-' => shift "-"
  | _ => refuse
where
  shift (sign : String) : Reader String := do
    let hour ← field 2 0 23
    word [':']
    let minute ← field 2 0 59
    let sign := if hour = "00" && minute = "00" then "+" else sign
    return sign ++ hour ++ ":" ++ minute

/-- A date, a time, or both. -/
def moment : Reader Toml :=
  (do
    let date ← date
    let time? ← maybe (do
      let _ ← one fun c => c = 'T' || c = 't' || c = ' '
      let time ← time
      let offset := (← maybe offset).getD ""
      return time ++ offset)
    match time? with
    | some time => return .moment (date ++ "T" ++ time)
    | none => return .moment date)
  <|> (do return .moment (← time))

/-! ## Values -/

/-- The items of a list up to its bracket. -/
def items (item : Reader Toml) : Nat → Reader (List Toml)
  | 0 => refuse
  | fuel + 1 => do
    gap ((← remaining) + 1)
    if ← accepts ']' then return []
    let first ← item
    gap ((← remaining) + 1)
    if ← accepts ',' then return first :: (← items item fuel)
    else
      word [']']
      return [first]

/-- A key with its value. -/
def keyAndValue (item : Reader Toml) : Reader (List String × Toml) := do
  let path ← path nestingLimit
  word ['=']
  blanks
  let value ← item
  return (path, value)

/-- The entries of a table up to its brace. -/
def entries (item : Reader Toml) : Nat → Reader (List (List String × Toml))
  | 0 => refuse
  | fuel + 1 => do
    let first ← keyAndValue item
    blanks
    if ← accepts ',' then return first :: (← entries item fuel)
    else
      word ['\x7d']
      return [first]

/-- A table between braces. -/
def inlineTable (item : Reader Toml) : Reader Toml := do
  blanks
  if ← accepts '\x7d' then return .table []
  match ofEntries? (← entries item ((← remaining) + 1)) with
  | some made => return .table made
  | none => refuse

/-- A value that holds no others. -/
def scalar : Reader Toml := do
  match ← peek? with
  | some '"' | some '\'' => return .string (String.ofList (← text))
  | some 't' =>
    word "true".toList
    return .boolean true
  | some 'f' =>
    word "false".toList
    return .boolean false
  | _ => moment <|> float <|> integer

/-- A value whose lists and tables hold what `item` reads. -/
def valueOver (item : Reader Toml) : Reader Toml := do
  match ← peek? with
  | some '[' =>
    word ['[']
    return .array (← items item ((← remaining) + 1))
  | some '\x7b' =>
    word ['\x7b']
    inlineTable item
  | _ => scalar

/-- A value with at most `depth` lists and tables inside of each other. -/
def value : Nat → Reader Toml
  | 0 => scalar
  | depth + 1 => valueOver (value depth)

/-! ## Documents -/

/-- The rest of a header whose bracket has been read. -/
def header : Reader Line := do
  if ← accepts '[' then
    let path ← path nestingLimit
    word [']', ']']
    return .listHeader path
  else
    let path ← path nestingLimit
    word [']']
    return .header path

/-- A line with its end, if it holds anything. -/
def line : Reader (Option Line) := do
  blanks
  match ← peek? with
  | none | some '#' | some '\n' | some '\r' =>
    lineEnd
    return none
  | some '[' =>
    word ['[']
    let line ← header
    lineEnd
    return some line
  | some _ =>
    let (path, value) ← keyAndValue (value nestingLimit)
    lineEnd
    return some (.entry path value)

/-- All lines. -/
def allLines : Nat → Reader (List Line)
  | 0 => return []
  | fuel + 1 => do
    if (← get).isEmpty then return []
    match ← line with
    | some line => return line :: (← allLines fuel)
    | none => allLines fuel

end Reader

/-- The table that a text is, if it is a document.  A mark of the byte order may stand before it. -/
def parse? (text : String) : Option (List (String × Toml)) := do
  let cs := match text.toList with
    | '\uFEFF' :: cs => cs
    | cs => cs
  let (lines, _) ← (Reader.allLines (cs.length + 1)).run cs
  ofLines? lines

end ScriptModules.Toml
