import ScriptModules.Decimal.Layout
import ScriptModules.Text.Quoted

/-!
# Tokens

The words of a script: literals, names, keywords, reserved words without a meaning, and marks.  A token
knows the byte at which it starts.  A stretch of text that is no token is one of kind `invalid`, which
says what is wrong with it.
-/

namespace ScriptModules.Script

/-- The words with a meaning of their own. -/
inductive Keyword where
  | var_ | let_ | const_ | if_ | else_ | throw_ | function_ | return_
  | try_ | catch_ | finally_ | new_ | typeof_ | true_ | false_ | null_
  deriving DecidableEq, Repr, Inhabited

namespace Keyword

/-- How the keyword is spelled. -/
def text : Keyword → String
  | var_ => "var" | let_ => "let" | const_ => "const" | if_ => "if" | else_ => "else"
  | throw_ => "throw" | function_ => "function" | return_ => "return" | try_ => "try"
  | catch_ => "catch" | finally_ => "finally" | new_ => "new" | typeof_ => "typeof"
  | true_ => "true" | false_ => "false" | null_ => "null"

/-- The name of the keyword in messages: its spelling with a capital. -/
def name (k : Keyword) : String := k.text.capitalize

/-- All keywords. -/
def all : List Keyword :=
  [var_, let_, const_, if_, else_, throw_, function_, return_, try_, catch_, finally_, new_, typeof_,
   true_, false_, null_]

/-- The keyword with this spelling. -/
def ofText? (s : String) : Option Keyword := all.find? fun k => k.text == s

/-- A keyword is known by its text. -/
theorem ofText?_text (k : Keyword) : ofText? k.text = some k := by cases k <;> decide

end Keyword

/-- Words that no program may use as a name, although they mean nothing here. -/
def reservedWords : List String :=
  ["for", "while", "do", "switch", "case", "break", "continue", "class", "import", "export",
   "delete", "void", "in", "instanceof", "this", "yield", "await", "async"]

/-- Punctuation and operators. -/
inductive Mark where
  | leftBrace | rightBrace | leftParen | rightParen | leftBracket | rightBracket
  | semicolon | comma | colon | dot
  | plus | minus | star | slash | percent | bang
  | equal | equalEqual | strictEqual | notEqual | strictNotEqual
  | lessThan | lessThanEqual | greaterThan | greaterThanEqual
  | ampersandAmpersand | pipePipe
  deriving DecidableEq, Repr, Inhabited

namespace Mark

/-- How the mark is spelled. -/
def text : Mark → String
  | leftBrace => "\x7b" | rightBrace => "\x7d" | leftParen => "(" | rightParen => ")"
  | leftBracket => "[" | rightBracket => "]" | semicolon => ";" | comma => "," | colon => ":"
  | dot => "." | plus => "+" | minus => "-" | star => "*" | slash => "/" | percent => "%"
  | bang => "!" | equal => "=" | equalEqual => "==" | strictEqual => "===" | notEqual => "!="
  | strictNotEqual => "!==" | lessThan => "<" | lessThanEqual => "<=" | greaterThan => ">"
  | greaterThanEqual => ">=" | ampersandAmpersand => "&&" | pipePipe => "||"

/-- The name of the mark in messages. -/
def name : Mark → String
  | leftBrace => "LeftBrace" | rightBrace => "RightBrace" | leftParen => "LeftParen"
  | rightParen => "RightParen" | leftBracket => "LeftBracket" | rightBracket => "RightBracket"
  | semicolon => "Semicolon" | comma => "Comma" | colon => "Colon" | dot => "Dot"
  | plus => "Plus" | minus => "Minus" | star => "Star" | slash => "Slash" | percent => "Percent"
  | bang => "Bang" | equal => "Equal" | equalEqual => "EqualEqual" | strictEqual => "StrictEqual"
  | notEqual => "NotEqual" | strictNotEqual => "StrictNotEqual" | lessThan => "LessThan"
  | lessThanEqual => "LessThanEqual" | greaterThan => "GreaterThan"
  | greaterThanEqual => "GreaterThanEqual" | ampersandAmpersand => "AmpersandAmpersand"
  | pipePipe => "PipePipe"

end Mark

/-- Why a stretch of text is no token. -/
inductive LexicalFault where
  | unexpectedCharacter (c : Char)
  | unsupportedOperator (c : Char)
  | unterminatedString
  | badEscape
  | badHex (digits : String)
  | badNumber (text : String)
  deriving DecidableEq, Repr

/-- The fault in words. -/
def LexicalFault.message : LexicalFault → String
  | unexpectedCharacter c => "Unexpected character '" ++ c.toString ++ "'"
  | unsupportedOperator c => "Unsupported operator '" ++ c.toString ++ "'"
  | unterminatedString => "Unterminated string literal"
  | badEscape => "Invalid Unicode escape sequence"
  | badHex digits => "Invalid hex literal '0x" ++ digits ++ "'"
  | badNumber text => "Invalid number literal '" ++ text ++ "'"

/-- What a token is. -/
inductive Kind where
  | number (value : Float)
  | string (value : String)
  | identifier (name : String)
  | keyword (word : Keyword)
  | reserved (word : String)
  | mark (mark : Mark)
  | invalid (fault : LexicalFault)
  | eof
  deriving DecidableEq, Inhabited

namespace Kind

/-- The kind as messages name it, with what it carries. -/
def shown : Kind → String
  | number x => "Number(" ++ Decimal.quoted.write x ++ ")"
  | string s => "String(" ++ Text.quote s ++ ")"
  | identifier s => "Identifier(" ++ Text.quote s ++ ")"
  | keyword k => k.name
  | reserved w => "Unsupported(" ++ Text.quote w ++ ")"
  | mark m => m.name
  | invalid f => "Invalid(" ++ Text.quote f.message ++ ")"
  | eof => "Eof"

/-- The word that the token spells where any word may be a name. -/
def word? : Kind → Option String
  | keyword k => some k.text
  | reserved w => some w
  | _ => none

/-- The token that a word is: a keyword, a reserved word or a name. -/
def ofWord (word : String) : Kind :=
  match Keyword.ofText? word with
  | some k => keyword k
  | none => if reservedWords.contains word then reserved word else identifier word

end Kind

/-- A token and the byte at which it starts. -/
structure Token where
  kind : Kind
  start : Nat
  deriving DecidableEq, Inhabited

end ScriptModules.Script
