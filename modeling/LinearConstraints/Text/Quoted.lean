import LinearConstraints.Text.Unshown

/-! # Quoted text

    A text between double quotes, in which a quote, a backslash and the four
    common controls are written with a backslash and a letter, and any other
    character that is not shown by its code point in lower-case hexadecimal
    digits.  Everything else stands for itself. -/

namespace LinearConstraints.Text

/-- The letter behind the backslash of a short escape. -/
def shortEscape? : Char → Option Char
  | '"' => some '"'
  | '\\' => some '\\'
  | '\n' => some 'n'
  | '\r' => some 'r'
  | '\t' => some 't'
  | '\x00' => some '0'
  | _ => none

/-- The written form of one character. -/
def escape (c : Char) : List Char :=
  match shortEscape? c with
  | some letter => ['\\', letter]
  | none =>
      if isUnshown c then
        '\\' :: 'u' :: '\x7b' :: (Nat.toDigits 16 c.toNat ++ ['\x7d'])
      else [c]

/-- The text between double quotes. -/
def quote (s : String) : String :=
  String.ofList ('"' :: (s.toList.flatMap escape ++ ['"']))

example : quote "=<" = "\"=<\"" := by decide +kernel

-- the accent would be drawn over the quote
example : quote "\u0301\n" = "\"\\u\x7b301\x7d\\n\"" := by decide +kernel

end LinearConstraints.Text
