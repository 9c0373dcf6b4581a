import ChoiceScript.Text.Basic

/-! # Percent escapes

An escape is a percent sign and two hexadecimal digits and stands for one byte. A run of escaped
bytes is read as UTF-8; every longest piece of it that starts no character becomes one replacement
character. What is not an escape stands for itself.
-/

namespace ChoiceScript.Percent

/-- A character of the text, or a byte written as an escape. -/
inductive Item where
  | plain (c : Char)
  | escaped (byte : Nat)
  deriving DecidableEq, Repr

/-- The value of a hexadecimal digit of either case. -/
def hexValue? (c : Char) : Option Nat :=
  if '0' ≤ c ∧ c ≤ '9' then some (c.toNat - '0'.toNat)
  else if 'a' ≤ c ∧ c ≤ 'f' then some (c.toNat - 'a'.toNat + 10)
  else if 'A' ≤ c ∧ c ≤ 'F' then some (c.toNat - 'A'.toNat + 10)
  else none

def items : Text → List Item
  | [] => []
  | '%' :: high :: low :: rest =>
    match hexValue? high, hexValue? low with
    | some h, some l => .escaped (16 * h + l) :: items rest
    | _, _ => .plain '%' :: items (high :: low :: rest)
  | c :: rest => .plain c :: items rest

/-- A character that has begun: the bits so far, the number of bytes still to come, and the least
and greatest value that the next of them may have. -/
structure Begun where
  bits : Nat
  missing : Nat
  least : Nat
  greatest : Nat
  deriving DecidableEq, Repr

/-- What a character's first byte says: the character itself, or how it goes on. -/
def firstByte (byte : Nat) : Option (Char ⊕ Begun) :=
  if byte < 0x80 then some (.inl (Char.ofNat byte))
  else if byte < 0xC2 then none
  else if byte < 0xE0 then some (.inr ⟨byte - 0xC0, 1, 0x80, 0xBF⟩)
  else if byte < 0xF0 then
    some (.inr ⟨byte - 0xE0, 2, if byte = 0xE0 then 0xA0 else 0x80,
      if byte = 0xED then 0x9F else 0xBF⟩)
  else if byte < 0xF5 then
    some (.inr ⟨byte - 0xF0, 3, if byte = 0xF0 then 0x90 else 0x80,
      if byte = 0xF4 then 0x8F else 0xBF⟩)
  else none

def replacement : Char := Char.ofNat 0xFFFD

/-- The replacement for a character that has begun and does not go on. -/
def abandoned : Option Begun → Text
  | none => []
  | some _ => [replacement]

/-- Read a byte that starts a character: what is written at once, and the character begun. -/
def start (byte : Nat) : Text × Option Begun :=
  match firstByte byte with
  | some (.inl c) => ([c], none)
  | some (.inr begun) => ([], some begun)
  | none => ([replacement], none)

def advance (begun : Option Begun) (byte : Nat) : Text × Option Begun :=
  match begun with
  | none => start byte
  | some b =>
    if b.least ≤ byte ∧ byte ≤ b.greatest then
      let bits := 64 * b.bits + (byte - 0x80)
      if b.missing = 1 then ([Char.ofNat bits], none)
      else ([], some ⟨bits, b.missing - 1, 0x80, 0xBF⟩)
    else
      let (written, next) := start byte
      (replacement :: written, next)

def decodeItems : Option Begun → List Item → Text
  | begun, [] => abandoned begun
  | begun, .plain c :: rest => abandoned begun ++ c :: decodeItems none rest
  | begun, .escaped byte :: rest =>
    let (written, next) := advance begun byte
    written ++ decodeItems next rest

/-- Replace the escapes of a text by the characters they stand for. -/
def decode (text : Text) : Text := decodeItems none (items text)

def isSafe (c : Char) : Bool :=
  c.toNat < 0x80 && (c.isAlphanum || ['_', '.', '-', '~', '/'].contains c)

def hexDigit (n : Nat) : Char := if n < 10 then Char.ofNat (48 + n) else Char.ofNat (55 + n)

/-- Write every character that needs it as the escapes of its UTF-8 bytes. -/
def encode (text : Text) : Text :=
  text.flatMap fun c =>
    if isSafe c then [c]
    else (String.utf8EncodeChar c).flatMap fun byte =>
      ['%', hexDigit (byte.toNat / 16), hexDigit (byte.toNat % 16)]

end ChoiceScript.Percent
