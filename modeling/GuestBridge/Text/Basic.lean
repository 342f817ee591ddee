/-!
# Text and bytes

* `Text.latin`: one character per byte, the character of the same value.
* `Text.utf8`: the encoding of a text, one to four bytes per character.
* `Text.hex`, `Text.quoted`: numbers in base sixteen, and texts in quotation marks.
-/

set_option autoImplicit false

namespace GuestBridge.Text

/-- Reads every byte as the character of the same value; longer encodings are not put together
again. -/
def latin (bytes : List UInt8) : String :=
  String.ofList (bytes.map fun b => Char.ofNat b.toNat)

/-- The bytes of the text's characters, in order. -/
def utf8 (text : String) : List UInt8 := text.toList.flatMap String.utf8EncodeChar

/-- Base sixteen, in lower case, without leading zeros. -/
def hexDigits (n : Nat) : String := String.ofList (Nat.toDigits 16 n)

/-- Base sixteen after `0x`. -/
def hex (n : Nat) : String := "0x" ++ hexDigits n

/-- Control characters and blanks that do not show, among the characters of one byte. -/
def isHidden (c : Char) : Bool :=
  c.toNat < 0x20 || (0x7f ≤ c.toNat && c.toNat ≤ 0xa0) || c.toNat = 0xad

/-- One character of a quoted text. -/
def quotedChar (c : Char) : String :=
  match c with
  | '\x00' => "\\0"
  | '\t' => "\\t"
  | '\n' => "\\n"
  | '\r' => "\\r"
  | '"' => "\\\""
  | '\\' => "\\\\"
  | c => if isHidden c then "\\u\x7b" ++ hexDigits c.toNat ++ "\x7d" else String.singleton c

/-- The text between quotation marks, with what does not show written as an escape. -/
def quoted (text : String) : String :=
  "\"" ++ String.join (text.toList.map quotedChar) ++ "\""

end GuestBridge.Text
