import GuestBridge.Json.Number

/-!
# Reading a document

`Value.read` reads a whole text as one value with blanks around it. Values may be nested to a
depth of 127. Every fault is the first one met from the left.
-/

set_option autoImplicit false

namespace GuestBridge.Json

def isBlank (c : Char) : Bool := c = ' ' || c = '\n' || c = '\t' || c = '\r'

def skipBlanks (cs : List Char) : List Char := cs.dropWhile isBlank

/-- The rest of a word whose first letter was read. -/
def readWord {α : Type} (value : α) : List Char → List Char → Except Fault (α × List Char)
  | [], cs => .ok (value, cs)
  | _ :: _, [] => .error .truncated
  | w :: word, c :: cs => if w = c then readWord value word cs else .error .malformed

/-! ## Texts -/

def hexValue? (c : Char) : Option Nat :=
  if c.isDigit then some (c.toNat - '0'.toNat)
  else if 'a' ≤ c ∧ c ≤ 'f' then some (c.toNat - 'a'.toNat + 10)
  else if 'A' ≤ c ∧ c ≤ 'F' then some (c.toNat - 'A'.toNat + 10)
  else none

/-- The four digits of an escape; fewer than four bytes left are the end of the text. -/
def readUnit (cs : List Char) : Except Fault (Nat × List Char) :=
  match cs with
  | a :: b :: c :: d :: rest =>
    match hexValue? a, hexValue? b, hexValue? c, hexValue? d with
    | some a, some b, some c, some d => .ok (((a * 16 + b) * 16 + c) * 16 + d, rest)
    | _, _, _, _ => .error .malformed
  | short =>
    .error (if short.foldr (·.utf8Size + ·) 0 < 4 then .truncated else .malformed)

def isLeading (unit : Nat) : Bool := 0xd800 ≤ unit && unit < 0xdc00

def isTrailing (unit : Nat) : Bool := 0xdc00 ≤ unit && unit < 0xe000

/-- The character of an escape after `\u`; one past the first plane takes a second escape. -/
def readEscaped (cs : List Char) : Except Fault (Char × List Char) := do
  let (unit, rest) ← readUnit cs
  if isTrailing unit then throw .malformed
  else if isLeading unit then
    match rest with
    | [] => throw .truncated
    | '\\' :: [] => throw .truncated
    | '\\' :: 'u' :: rest =>
      let (second, rest) ← readUnit rest
      if isTrailing second then
        return (Char.ofNat (0x10000 + (unit - 0xd800) * 0x400 + (second - 0xdc00)), rest)
      else throw .malformed
    | _ => throw .malformed
  else return (Char.ofNat unit, rest)

/-- The character of an escape after its backslash. -/
def readEscape : List Char → Except Fault (Char × List Char)
  | [] => .error .truncated
  | '"' :: rest => .ok ('"', rest)
  | '\\' :: rest => .ok ('\\', rest)
  | '/' :: rest => .ok ('/', rest)
  | 'b' :: rest => .ok ('\x08', rest)
  | 'f' :: rest => .ok ('\x0c', rest)
  | 'n' :: rest => .ok ('\n', rest)
  | 'r' :: rest => .ok ('\r', rest)
  | 't' :: rest => .ok ('\t', rest)
  | 'u' :: rest => readEscaped rest
  | _ => .error .malformed

/-- A text after its opening quotation mark; `fuel` bounds its characters. -/
def readChars : Nat → List Char → Except Fault (List Char × List Char)
  | 0, _ => .error .malformed
  | _ + 1, [] => .error .truncated
  | _ + 1, '"' :: rest => .ok ([], rest)
  | fuel + 1, '\\' :: rest => do
    let (c, rest) ← readEscape rest
    let (cs, rest) ← readChars fuel rest
    return (c :: cs, rest)
  | fuel + 1, c :: rest => do
    if c.toNat < 0x20 then throw .malformed
    let (cs, rest) ← readChars fuel rest
    return (c :: cs, rest)

def readText (cs : List Char) : Except Fault (String × List Char) := do
  let (chars, rest) ← readChars (cs.length + 1) cs
  return (String.ofList chars, rest)

/-- The name of a field and the colon after it. -/
def readName (cs : List Char) : Except Fault (String × List Char) := do
  match cs with
  | '"' :: rest =>
    let (name, rest) ← readText rest
    match skipBlanks rest with
    | ':' :: rest => return (name, rest)
    | [] => throw .truncated
    | _ => throw .malformed
  | [] => throw .truncated
  | _ => throw .malformed

/-! ## Values -/

mutual

/-- A value; `fuel` bounds the steps and `depth` the values it may be nested in. -/
def readValue : Nat → Nat → List Char → Except Fault (Value × List Char)
  | 0, _, _ => .error .malformed
  | fuel + 1, depth, cs =>
    match skipBlanks cs with
    | [] => .error .truncated
    | 'n' :: rest => readWord .null ['u', 'l', 'l'] rest
    | 't' :: rest => readWord (.bool true) ['r', 'u', 'e'] rest
    | 'f' :: rest => readWord (.bool false) ['a', 'l', 's', 'e'] rest
    | '-' :: rest => do
      let (n, rest) ← readUnsigned true rest
      return (.number n, rest)
    | '"' :: rest => do
      let (text, rest) ← readText rest
      return (.text text, rest)
    | '[' :: rest =>
      if depth ≤ 1 then .error .malformed
      else do
        let (items, rest) ← readItems fuel (depth - 1) true rest
        return (.list items, rest)
    | '\x7b' :: rest =>
      if depth ≤ 1 then .error .malformed
      else do
        let (fields, rest) ← readFields fuel (depth - 1) true [] rest
        return (.record fields, rest)
    | c :: rest =>
      if c.isDigit then do
        let (n, rest) ← readUnsigned false (c :: rest)
        return (.number n, rest)
      else .error .malformed

/-- The items of a list up to its closing bracket, and whether none came before. -/
def readItems : Nat → Nat → Bool → List Char → Except Fault (List Value × List Char)
  | 0, _, _, _ => .error .malformed
  | fuel + 1, depth, first, cs =>
    match skipBlanks cs with
    | [] => .error .truncated
    | ']' :: rest => .ok ([], rest)
    | c :: rest => do
      let cs ← if first then pure (c :: rest) else if c = ',' then pure rest else throw .malformed
      if !first ∧ (skipBlanks cs).head? = some ']' then throw .malformed
      let (item, rest) ← readValue fuel depth cs
      let (items, rest) ← readItems fuel depth false rest
      return (item :: items, rest)

/-- The fields of a record up to its closing brace, onto those that came before. -/
def readFields : Nat → Nat → Bool → List (String × Value) → List Char →
    Except Fault (List (String × Value) × List Char)
  | 0, _, _, _, _ => .error .malformed
  | fuel + 1, depth, first, fields, cs =>
    match skipBlanks cs with
    | [] => .error .truncated
    | '\x7d' :: rest => .ok (fields, rest)
    | c :: rest => do
      let cs ← if first then pure (c :: rest) else if c = ',' then pure rest else throw .malformed
      let (name, rest) ← readName (skipBlanks cs)
      let (value, rest) ← readValue fuel depth rest
      readFields fuel depth false (Record.put name value fields) rest

end

/-- Reads a whole text as one value. -/
def Value.read (text : String) : Except Fault Value := do
  let cs := text.toList
  let (value, rest) ← readValue (2 * cs.length + 2) 128 cs
  if (skipBlanks rest).isEmpty then return value else throw .malformed

end GuestBridge.Json
