import ScriptPool.Text.Hidden

/-!
# Quoted text

Diagnostics show a string between double quotes, with everything spelled out that would not be
visible, or would not survive being pasted back: quotes, backslashes, controls, and the hidden
characters of `ScriptPool.Text.Hidden`.
-/

set_option autoImplicit false

namespace ScriptPool
namespace Text

/-- The hexadecimal digits of a number, in lower case and without leading zeros. -/
def hexText (n : Nat) : String := String.ofList (Nat.toDigits 16 n)

/-- One character of a quoted string. -/
def quoteChar (c : Char) : String :=
  if c = '"' then "\\\""
  else if c = '\\' then "\\\\"
  else if c = '\n' then "\\n"
  else if c = '\r' then "\\r"
  else if c = '\t' then "\\t"
  else if c.toNat = 0 then "\\0"
  else if c.toNat < 0x20 || c.toNat = 0x7f || (0x80 ≤ c.toNat && isHidden c) then
    "\\u\x7b" ++ hexText c.toNat ++ "\x7d"
  else c.toString

/-- The string between double quotes, spelled so that every character shows. -/
def quote (s : String) : String :=
  "\"" ++ String.join (s.toList.map quoteChar) ++ "\""

example : quote "a\"b\\c\n" = "\"a\\\"b\\\\c\\n\"" := by decide +kernel
example : (quoteChar (Char.ofNat 0x7f)).toList = ['\\', 'u', '\x7b', '7', 'f', '\x7d'] := by decide +kernel

end Text
end ScriptPool
