import GuestBridge.Ieee.Shortest
import GuestBridge.Text.Basic

/-!
# JSON values

The values a document can hold, their printed form, and why a text is no document. A record
keeps its fields sorted by name; `Record.put` keeps them so, and the last of two fields with one
name wins.
-/

set_option autoImplicit false

namespace GuestBridge.Json

/-- A number is kept as an integer where it was written as one of at most 64 bits. -/
inductive Number
  | integer (value : Int)
  | real (value : Ieee.Double)
  deriving DecidableEq, Repr

inductive Value
  | null
  | bool (value : Bool)
  | number (value : Number)
  | text (value : String)
  | list (items : List Value)
  | record (fields : List (String × Value))
  deriving Repr

/-- Why a text is no document. -/
inductive Fault
  /-- It ends in the middle of a value. -/
  | truncated
  /-- It goes on in a way no document does. -/
  | malformed
  deriving DecidableEq, Repr

/-- Puts a field in its place by name, over one of the same name. -/
def Record.put (name : String) (value : Value) : List (String × Value) → List (String × Value)
  | [] => [(name, value)]
  | (other, old) :: rest =>
    if name = other then (name, value) :: rest
    else if name < other then (name, value) :: (other, old) :: rest
    else (other, old) :: put name value rest

/-! ## Printing -/

def Number.print : Number → String
  | integer value => toString value
  | real value => value.text .document

/-- One character of a text: quotation marks, backslashes and control characters are escaped. -/
def printChar (c : Char) : String :=
  match c with
  | '"' => "\\\""
  | '\\' => "\\\\"
  | '\x08' => "\\b"
  | '\t' => "\\t"
  | '\n' => "\\n"
  | '\x0c' => "\\f"
  | '\r' => "\\r"
  | c =>
    if c.toNat < 0x10 then "\\u000" ++ Text.hexDigits c.toNat
    else if c.toNat < 0x20 then "\\u00" ++ Text.hexDigits c.toNat
    else String.singleton c

def printText (text : String) : String :=
  "\"" ++ String.join (text.toList.map printChar) ++ "\""

mutual

/-- The value without any blanks. -/
def Value.print : Value → String
  | .null => "null"
  | .bool value => if value then "true" else "false"
  | .number value => value.print
  | .text value => printText value
  | .list items => "[" ++ ",".intercalate (printItems items) ++ "]"
  | .record fields => "\x7b" ++ ",".intercalate (printFields fields) ++ "\x7d"

def printItems : List Value → List String
  | [] => []
  | item :: rest => item.print :: printItems rest

def printFields : List (String × Value) → List String
  | [] => []
  | (name, value) :: rest => (printText name ++ ":" ++ value.print) :: printFields rest

end

end GuestBridge.Json
