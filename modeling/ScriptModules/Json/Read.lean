import ScriptModules.Decimal.Read
import ScriptModules.Json.Document
import ScriptModules.Json.Fault

/-!
# Reading JSON documents

A reader takes characters off the front of a text and counts the bytes it has passed.  Lists and
objects may nest `nestingLimit` deep; the loops read at least one character a round, so the number of
characters bounds them.

A number keeps as many leading digits as fit in 64 bits and is scaled by powers of ten, each step being
rounded; digits beyond those only count for the exponent.
-/

namespace ScriptModules.Json

/-- What a reader has passed and what is left. -/
structure Place where
  offset : Nat
  rest : List Char

/-- A reader fails with a cause and the number of bytes up to where it was noticed. -/
abbrev Reader := StateT Place (Except (Cause × Nat))

/-- How deep lists and objects may nest. -/
def nestingLimit : Nat := 127

namespace Reader

/-- Fails behind the last character that was read. -/
def failBehind {α : Type} (cause : Cause) : Reader α := fun place =>
  .error (cause, place.offset)

/-- Fails at the next character. -/
def failAt {α : Type} (cause : Cause) : Reader α := fun place =>
  .error (cause, if place.rest.isEmpty then place.offset else place.offset + 1)

def peek? : Reader (Option Char) := return (← get).rest.head?

/-- Drops the next character. -/
def advance : Reader Unit := modify fun
  | ⟨offset, []⟩ => ⟨offset, []⟩
  | ⟨offset, c :: rest⟩ => ⟨offset + c.utf8Size, rest⟩

def isBlank (c : Char) : Bool := c == ' ' || c == '\n' || c == '\t' || c == '\r'

private def dropBlanks : Nat → List Char → Place
  | offset, [] => ⟨offset, []⟩
  | offset, c :: rest => if isBlank c then dropBlanks (offset + 1) rest else ⟨offset, c :: rest⟩

/-- Drops blanks and gives the character behind them. -/
def peekBehindBlanks? : Reader (Option Char) := do
  modify fun place => dropBlanks place.offset place.rest
  peek?

/-- The rest of a word whose first character has been read. -/
def wordTail : List Char → Reader Unit
  | [] => return ()
  | expected :: tail => do
    match ← peek? with
    | none => failBehind .endOfValue
    | some c =>
      if c = expected then
        advance
        wordTail tail
      else failAt .expectedWord

private def digitsOf (place : Place) : List Char := place.rest.takeWhile Char.isDigit

/-- Drops `n` characters of one byte each. -/
def advanceBy (n : Nat) : Reader Unit := modify fun place => ⟨place.offset + n, place.rest.drop n⟩

/-- Reads all digits that come next. -/
def digits : Reader (List Char) := do
  let ds := digitsOf (← get)
  advanceBy ds.length
  return ds

/-- Appends digits to a number while it fits in 64 bits; gives it and how many were used. -/
def appendDigits : Nat → List Char → Nat × Nat
  | n, [] => (n, 0)
  | n, d :: ds =>
    let longer := n * 10 + Decimal.digitValue d
    if longer < Nat.pow 2 64 then
      let (result, used) := appendDigits longer ds
      (result, used + 1)
    else (n, 0)

/-- The double nearest to a power of ten. -/
def powerOfTen (k : Nat) : Float := Decimal.nearest 1 k

/-- Scales a number down by powers of ten that a double can hold. -/
def scaleDown : Nat → Float → Nat → Float
  | 0, x, _ => x
  | fuel + 1, x, k =>
    if k ≤ 308 then x / powerOfTen k
    else if x == 0 then x
    else scaleDown fuel (x / powerOfTen 308) (k - 308)

/-- `± n * 10 ^ e`, each step being rounded. -/
def scaled (negative : Bool) (n : Nat) (e : Int) : Reader Float := do
  let x := Float.ofNat n
  let size ←
    if e < 0 then pure (scaleDown e.natAbs x e.natAbs)
    else if 308 < e then if x == 0 then pure x else failBehind .numberRange
    else
      let y := x * powerOfTen e.toNat
      if y.isInf then failBehind .numberRange else pure y
  return if negative then -size else size

/-- The exponent of a number from its letter on. -/
def exponentPart (negative : Bool) (n : Nat) (e : Int) : Reader Float := do
  advance
  let down ← match ← peek? with
    | some '+' => do advance; pure false
    | some '-' => do advance; pure true
    | _ => pure false
  let ds := digitsOf (← get)
  match ← peek? with
  | none => failBehind .endOfValue
  | some c =>
    if !c.isDigit then failAt .badNumber
    else
      -- the digits up to the one with which the exponent leaves 32 bits
      let fitting := (List.range (ds.length + 1)).filter fun k =>
        Decimal.ofDigits (ds.take k) < Nat.pow 2 31
      let used := (fitting.getLast?).getD 0
      if used = ds.length then
        advanceBy used
        let size : Int := Decimal.ofDigits ds
        scaled negative n (if down then e - size else e + size)
      else if n ≠ 0 && !down then
        advanceBy (used + 1)
        failBehind .numberRange
      else
        advanceBy ds.length
        return if negative then -0.0 else 0.0

/-- An exponent, or the end of a number. -/
def exponentOrEnd (negative : Bool) (n : Nat) (e : Int) : Reader Float := do
  match ← peek? with
  | some 'e' | some 'E' => exponentPart negative n e
  | _ => scaled negative n e

/-- The decimals of a number from the point on; `e` powers of ten have been dropped before it. -/
def decimalPart (negative : Bool) (n : Nat) (e : Int) : Reader Float := do
  advance
  let ds ← digits
  if ds.isEmpty then
    match ← peek? with
    | none => failAt .endOfValue
    | some _ => failAt .badNumber
  else
    let (longer, used) := appendDigits n ds
    exponentOrEnd negative longer (e - used)

/-- A number behind its sign. -/
def number (negative : Bool) : Reader Json := do
  match ← peek? with
  | none => failBehind .endOfValue
  | some c =>
    if !c.isDigit then failAt .badNumber
    else
      let ds := digitsOf (← get)
      if c = '0' ∧ 1 < ds.length then
        advance
        failAt .badNumber
      else
        advanceBy ds.length
        let (n, used) := appendDigits 0 ds
        let e : Int := ds.length - used
        match ← peek? with
        | some '.' => .float <$> decimalPart negative n e
        | some 'e' | some 'E' => .float <$> exponentPart negative n e
        | _ =>
          if e ≠ 0 then .float <$> scaled negative n e
          else if !negative then return .integer n
          else if n = 0 ∨ Nat.pow 2 63 < n then return .float (-Float.ofNat n)
          else return .integer (-n)

/-- The value of four hexadecimal digits. -/
def hexValue? (cs : List Char) : Option Nat :=
  cs.foldlM (fun n c =>
    if c.isDigit then some (16 * n + (c.toNat - '0'.toNat))
    else if 'a' ≤ c ∧ c ≤ 'f' then some (16 * n + (c.toNat - 'a'.toNat + 10))
    else if 'A' ≤ c ∧ c ≤ 'F' then some (16 * n + (c.toNat - 'A'.toNat + 10))
    else none) 0

/-- Four hexadecimal digits. -/
def hexUnit : Reader Nat := do
  let place ← get
  let cs := place.rest.take 4
  match if cs.length = 4 then hexValue? cs else none with
  | some n =>
    advanceBy 4
    return n
  | none =>
    let bytes := place.rest.foldl (fun n c => n + c.utf8Size) 0
    if bytes < 4 then throw (.endOfString, place.offset + bytes)
    else throw (.badEscape, place.offset + 4)

/-- Reads a character that has to come next in a string. -/
def expectInString (expected : Char) : Reader Unit := do
  match ← peek? with
  | none => failBehind .endOfString
  | some c => if c = expected then advance else failAt .brokenSurrogatePair

/-- The character behind `\u`; two units make a character beyond the first plane. -/
def unicodeEscape : Reader Char := do
  let high ← hexUnit
  if 0xdc00 ≤ high ∧ high ≤ 0xdfff then failBehind .loneSurrogate
  else if high < 0xd800 ∨ 0xdbff < high then return Char.ofNat high
  else
    expectInString '\\'
    expectInString 'u'
    let low ← hexUnit
    if low < 0xdc00 ∨ 0xdfff < low then failBehind .loneSurrogate
    else return Char.ofNat ((high - 0xd800) * 0x400 + (low - 0xdc00) + 0x10000)

/-- The character that a backslash and another character stand for, other than `\u`. -/
def simpleEscape? : Char → Option Char
  | '"' => some '"'
  | '\\' => some '\\'
  | '/' => some '/'
  | 'b' => some (Char.ofNat 0x08)
  | 'f' => some (Char.ofNat 0x0c)
  | 'n' => some '\n'
  | 'r' => some '\r'
  | 't' => some '\t'
  | _ => none

/-- A string up to its closing quote.  When it is `skipped`, an escaped unit is only checked for its
digits, and a control character is noticed before it is passed. -/
def stringTail (skipped : Bool) : Nat → Reader (List Char)
  | 0 => failBehind .endOfString
  | fuel + 1 => do
    match ← peek? with
    | none => failBehind .endOfString
    | some '"' =>
      advance
      return []
    | some '\\' =>
      advance
      match ← peek? with
      | none => failBehind .endOfString
      | some 'u' =>
        advance
        if skipped then
          let _ ← hexUnit
          stringTail skipped fuel
        else
          let c ← unicodeEscape
          return c :: (← stringTail skipped fuel)
      | some e =>
        match simpleEscape? e with
        | none => failAt .badEscape
        | some c =>
          advance
          return c :: (← stringTail skipped fuel)
    | some c =>
      if c.toNat < 0x20 then
        if skipped then failBehind .controlCharacter else failAt .controlCharacter
      else
        advance
        return c :: (← stringTail skipped fuel)

/-- A string whose opening quote has been read. -/
def string : Reader String := do
  return String.ofList (← stringTail false ((← get).rest.length + 1))

/-- The colon behind a key. -/
def colon : Reader Unit := do
  match ← peekBehindBlanks? with
  | some ':' => advance
  | some _ => failAt .expectedColon
  | none => failAt .endOfObject

/-- Is there another item in a list?  Reads the comma before it. -/
def anotherItem (first : Bool) : Reader Bool := do
  match ← peekBehindBlanks? with
  | none => failAt .endOfList
  | some ']' => return false
  | some c =>
    if first then return true
    else if c = ',' then
      advance
      match ← peekBehindBlanks? with
      | some ']' => failAt .trailingComma
      | some _ => return true
      | none => failAt .endOfValue
    else failAt .expectedListEnd

/-- Is there another key in an object?  Reads the comma before it. -/
def anotherKey (first : Bool) : Reader Bool := do
  match ← peekBehindBlanks? with
  | none => failAt .endOfObject
  | some '\x7d' => return false
  | some c =>
    if first then
      if c = '"' then return true else failAt .keyNotString
    else if c = ',' then
      advance
      match ← peekBehindBlanks? with
      | some '"' => return true
      | some '\x7d' => failAt .trailingComma
      | some _ => failAt .keyNotString
      | none => failAt .endOfValue
    else failAt .expectedObjectEnd

/-- The items of a list up to its end, which is left. -/
def listItems (item : Reader Json) : Nat → Bool → Reader (List Json)
  | 0, _ => failBehind .endOfList
  | fuel + 1, first => do
    if ← anotherItem first then
      let value ← item
      return value :: (← listItems item fuel false)
    else return []

/-- The entries of an object up to its end, which is left. -/
def objectEntries (item : Reader Json) : Nat → Bool → Reader (List (String × Json))
  | 0, _ => failBehind .endOfObject
  | fuel + 1, first => do
    if ← anotherKey first then
      advance
      let key ← string
      colon
      let value ← item
      return (key, value) :: (← objectEntries item fuel false)
    else return []

/-- A value whose lists and objects hold what `inner?` reads; without it there may be none. -/
def valueOver (inner? : Option (Reader Json)) : Reader Json := do
  match ← peekBehindBlanks? with
  | none => failAt .endOfValue
  | some 'n' =>
    advance
    wordTail ['u', 'l', 'l']
    return .null
  | some 't' =>
    advance
    wordTail ['r', 'u', 'e']
    return .boolean true
  | some 'f' =>
    advance
    wordTail ['a', 'l', 's', 'e']
    return .boolean false
  | some '-' =>
    advance
    number true
  | some '"' =>
    advance
    return .string (← string)
  | some '[' =>
    let some inner := inner? | failAt .tooDeep
    advance
    let items ← listItems inner ((← get).rest.length + 1) true
    advance
    return .array items
  | some '\x7b' =>
    let some inner := inner? | failAt .tooDeep
    advance
    let entries ← objectEntries inner ((← get).rest.length + 1) true
    advance
    return .object (Keyed.ofList entries)
  | some c => if c.isDigit then number false else failAt .expectedValue

/-- A value in which lists and objects nest at most `levels` deep. -/
def value : Nat → Reader Json
  | 0 => valueOver none
  | levels + 1 => valueOver (some (value levels))

/-- Only blanks may be left. -/
def finish : Reader Unit := do
  match ← peekBehindBlanks? with
  | some _ => failAt .trailingText
  | none => return ()

/-- Runs a reader on a whole text. -/
def runAll {α : Type} (reader : Reader α) (text : String) : Except Fault α :=
  let chars := text.toList
  match (do let result ← reader; finish; return result : Reader α).run ⟨0, chars⟩ with
  | .ok (result, _) => .ok result
  | .error (cause, bytes) => .error (Fault.locate chars cause bytes)

end Reader

/-- The document that a text is. -/
def parse (text : String) : Except Fault Json := (Reader.value nestingLimit).runAll text

end ScriptModules.Json
