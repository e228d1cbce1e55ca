import ScriptModules.Script.Token
import ScriptModules.Decimal.Read
import ScriptModules.Text.Alphabetic
import ScriptModules.Text.Numeric
import ScriptModules.Text.Blank

/-!
# From text to tokens

`scan` cuts a text into tokens; the last one is `eof`.  Between tokens stand blanks: white space,
comments, and a `#!` line at the very start.  A token never is empty (`next` takes its first character
before it asks what follows), so the text that is left grows shorter with each one.
-/

namespace ScriptModules.Script

/-- A place in a text: the byte reached, and what is left. -/
structure Cursor where
  offset : Nat
  rest : List Char
  deriving Repr

/-- The number of bytes of a text. -/
def byteCount (cs : List Char) : Nat := cs.foldl (fun n c => n + c.utf8Size) 0

/-- White space between tokens; a byte order mark counts as such. -/
def isBlank (c : Char) : Bool := Text.isWhiteSpace c || c.toNat == 0xfeff

/-- Where in the blanks between two tokens a character stands. -/
inductive BlankMode where
  | space
  | lineComment
  | blockComment (afterStar : Bool)
  | interpreterLine
  deriving DecidableEq, Repr

/-- Skips the blanks at `offset`.  A block comment that is not closed runs to the end of the text. -/
def skipBlanks : BlankMode → Nat → List Char → Cursor
  | _, offset, [] => ⟨offset, []⟩
  | .space, offset, c :: cs =>
    if isBlank c then skipBlanks .space (offset + c.utf8Size) cs
    else if c = '/' then
      match cs with
      | '/' :: rest => skipBlanks .lineComment (offset + 2) rest
      | '*' :: rest => skipBlanks (.blockComment false) (offset + 2) rest
      | _ => ⟨offset, c :: cs⟩
    else if c = '#' ∧ offset = 0 then
      match cs with
      | '!' :: rest => skipBlanks .interpreterLine (offset + 2) rest
      | _ => ⟨offset, c :: cs⟩
    else ⟨offset, c :: cs⟩
  | .lineComment, offset, c :: cs =>
    skipBlanks (if c = '\n' ∨ c = '\r' then .space else .lineComment) (offset + c.utf8Size) cs
  | .blockComment afterStar, offset, c :: cs =>
    skipBlanks (if afterStar && c == '/' then .space else .blockComment (c == '*'))
      (offset + c.utf8Size) cs
  | .interpreterLine, offset, c :: cs =>
    skipBlanks (if c = '\n' then .space else .interpreterLine) (offset + c.utf8Size) cs

/-- May a name start with this character? -/
def isNameStart (c : Char) : Bool := Text.isAlphabetic c || c == '_' || c == '$'

/-- May a name go on with this character? -/
def isNamePart (c : Char) : Bool := isNameStart c || Text.isNumeric c

/-- The value of a hexadecimal digit. -/
def hexDigit? (c : Char) : Option Nat :=
  if c.isDigit then some (c.toNat - '0'.toNat)
  else if 'a' ≤ c ∧ c ≤ 'f' then some (c.toNat - 'a'.toNat + 10)
  else if 'A' ≤ c ∧ c ≤ 'F' then some (c.toNat - 'A'.toNat + 10)
  else none

/-- The number that hexadecimal digits write; there has to be at least one. -/
def hexNumber? (digits : List Char) : Option Nat :=
  if digits.isEmpty then none
  else digits.foldlM (fun n c => (hexDigit? c).map (16 * n + ·)) 0

/-- The character with the code point that the digits write; a plus sign may stand before them. -/
def codePoint? (digits : List Char) : Option Char :=
  let value? := match digits with
    | '+' :: rest => hexNumber? rest
    | _ => hexNumber? digits
  value?.bind fun n => if n.isValidChar then some (Char.ofNat n) else none

/-- Reads what follows `\u`: four digits, or digits between braces, of which the closing one may be
missing at the end of the text.  Gives the character and the number of characters read. -/
def unicodeEscape (cs : List Char) : Option Char × Nat :=
  match cs with
  | '\x7b' :: inner =>
    let digits := inner.takeWhile (· ≠ '\x7d')
    (codePoint? digits, digits.length + 2)
  | _ => if cs.length < 4 then (none, cs.length) else (codePoint? (cs.take 4), 4)

/-- The character that a backslash makes of the one behind it. -/
def escaped (c : Char) : Char :=
  if c = 'n' then '\n' else if c = 'r' then '\r' else if c = 't' then '\t'
  else if c = '0' then Char.ofNat 0 else c

/-- Puts a character before a string that has been read, and counts `n` more characters read. -/
def consRead (front : List Char) (n : Nat) :
    Except LexicalFault (List Char) × Nat → Except LexicalFault (List Char) × Nat
  | (tail, k) => (tail.map (front ++ ·), k + n)

/-- Reads a string up to its closing quote.  Gives its text or what is wrong with it, and the number of
characters read. -/
def stringBody (quote : Char) (cs : List Char) : Except LexicalFault (List Char) × Nat :=
  match cs with
  | [] => (.error .unterminatedString, 0)
  | c :: cs =>
    if c = '\n' then (.error .unterminatedString, 1)
    else if c = quote then (.ok [], 1)
    else if c = '\\' then
      match cs with
      | [] => (.error .unterminatedString, 1)
      | e :: cs =>
        if e = 'u' then
          match unicodeEscape cs with
          | (none, k) => (.error .badEscape, k + 2)
          | (some ch, k) => consRead [ch] (k + 2) (stringBody quote (cs.drop k))
        else if e = '\n' then consRead [] 2 (stringBody quote cs)
        else consRead [escaped e] 2 (stringBody quote cs)
    else consRead [c] 1 (stringBody quote cs)
  termination_by cs.length
  decreasing_by all_goals (simp only [List.length_drop, List.length_cons]; omega)

/-- The characters of a number after its first one, without the underscores, and how many of the text
they take. -/
def numberBody : List Char → List Char × Nat
  | [] => ([], 0)
  | c :: cs =>
    if c.isDigit || c == '.' then let (text, n) := numberBody cs; (c :: text, n + 1)
    else if c = '_' then let (text, n) := numberBody cs; (text, n + 1)
    else if c = 'e' ∨ c = 'E' then
      match cs with
      | s :: rest =>
        if s = '+' ∨ s = '-' then let (text, n) := numberBody rest; (c :: s :: text, n + 2)
        else let (text, n) := numberBody (s :: rest); (c :: text, n + 1)
      | [] => ([c], 1)
    else ([], 0)

/-- The hexadecimal literal with these digits after `0x`. -/
def hexLiteral (digits : List Char) : Kind :=
  match hexNumber? digits with
  | some n => if n < Nat.pow 2 64 then .number (Float.ofNat n)
    else .invalid (.badHex (String.ofList digits))
  | none => .invalid (.badHex (String.ofList digits))

/-- Reads a number that starts with `first`. -/
def numberLexeme (first : Char) (cs : List Char) : Kind × Nat :=
  let decimal :=
    let (text, n) := numberBody cs
    match Decimal.read? (first :: text) with
    | some x => (Kind.number x, n)
    | none => (.invalid (.badNumber (String.ofList (first :: text))), n)
  match cs with
  | x :: rest =>
    if first = '0' ∧ (x = 'x' ∨ x = 'X') then
      let digits := rest.takeWhile fun c => (hexDigit? c).isSome
      (hexLiteral digits, digits.length + 1)
    else decimal
  | [] => decimal

/-- Reads a name or keyword that starts with `first`. -/
def wordLexeme (first : Char) (cs : List Char) : Kind × Nat :=
  let tail := cs.takeWhile isNamePart
  (Kind.ofWord (String.ofList (first :: tail)), tail.length)

/-- The longest of a row of marks that the text goes on with; each has one more `=` than the one
before. -/
def equalsLexeme (one two : Mark) (three : Option Mark) (cs : List Char) : Kind × Nat :=
  match cs, three with
  | '=' :: '=' :: _, some three => (.mark three, 2)
  | '=' :: _, _ => (.mark two, 1)
  | _, _ => (.mark one, 0)

/-- A mark that is written with the same character twice. -/
def doubledLexeme (c : Char) (mark : Mark) (cs : List Char) : Kind × Nat :=
  if cs.head? = some c then (.mark mark, 1) else (.invalid (.unsupportedOperator c), 0)

/-- The mark that a single character always is. -/
def singleMark? : Char → Option Mark
  | '\x7b' => some .leftBrace
  | '\x7d' => some .rightBrace
  | '(' => some .leftParen
  | ')' => some .rightParen
  | '[' => some .leftBracket
  | ']' => some .rightBracket
  | ';' => some .semicolon
  | ',' => some .comma
  | ':' => some .colon
  | '+' => some .plus
  | '-' => some .minus
  | '*' => some .star
  | '/' => some .slash
  | '%' => some .percent
  | _ => none

/-- The token that starts with `c`, and how many of the characters behind `c` belong to it. -/
def lexeme (c : Char) (cs : List Char) : Kind × Nat :=
  match singleMark? c with
  | some mark => (.mark mark, 0)
  | none =>
    if c = '.' then
      if (cs.head?.map Char.isDigit).getD false then numberLexeme c cs else (.mark .dot, 0)
    else if c = '=' then equalsLexeme .equal .equalEqual (some .strictEqual) cs
    else if c = '!' then equalsLexeme .bang .notEqual (some .strictNotEqual) cs
    else if c = '<' then equalsLexeme .lessThan .lessThanEqual none cs
    else if c = '>' then equalsLexeme .greaterThan .greaterThanEqual none cs
    else if c = '&' then doubledLexeme c .ampersandAmpersand cs
    else if c = '|' then doubledLexeme c .pipePipe cs
    else if c = '"' ∨ c = '\'' then
      match stringBody c cs with
      | (.ok text, n) => (.string (String.ofList text), n)
      | (.error fault, n) => (.invalid fault, n)
    else if c.isDigit then numberLexeme c cs
    else if isNameStart c then wordLexeme c cs
    else (.invalid (.unexpectedCharacter c), 0)

/-- The token at a place where no blank stands, and the place behind it. -/
def takeToken : Cursor → Token × Cursor
  | ⟨offset, []⟩ => (⟨.eof, offset⟩, ⟨offset, []⟩)
  | ⟨offset, c :: cs⟩ =>
    let (kind, n) := lexeme c cs
    (⟨kind, offset⟩, ⟨offset + c.utf8Size + byteCount (cs.take n), cs.drop n⟩)

/-- The next token and the place behind it; at the end of the text that is `eof`, again and again. -/
def next (cursor : Cursor) : Token × Cursor :=
  takeToken (skipBlanks .space cursor.offset cursor.rest)

/-- What is left behind blanks and comments is no longer than the text. -/
theorem length_skipBlanks_le (mode : BlankMode) (offset : Nat) (cs : List Char) :
    (skipBlanks mode offset cs).rest.length ≤ cs.length := by
  fun_induction skipBlanks mode offset cs <;> simp_all <;> omega

private theorem length_takeToken_lt {cursor : Cursor} (h : (takeToken cursor).1.kind ≠ .eof) :
    (takeToken cursor).2.rest.length < cursor.rest.length := by
  obtain ⟨offset, _ | ⟨c, cs⟩⟩ := cursor
  · simp [takeToken] at h
  · simp only [takeToken, List.length_drop, List.length_cons]
    omega

private theorem length_next_lt {cursor : Cursor} (h : (next cursor).1.kind ≠ .eof) :
    (next cursor).2.rest.length < cursor.rest.length :=
  Nat.lt_of_lt_of_le (length_takeToken_lt h)
    (length_skipBlanks_le .space cursor.offset cursor.rest)

/-- The tokens from a place on; the last one is `eof`. -/
def tokensFrom (cursor : Cursor) : List Token :=
  let step := next cursor
  if _h : step.1.kind = .eof then [step.1] else step.1 :: tokensFrom step.2
  termination_by cursor.rest.length
  decreasing_by exact length_next_lt _h

/-- The tokens of a text. -/
def scan (source : String) : List Token := tokensFrom ⟨0, source.toList⟩

end ScriptModules.Script
