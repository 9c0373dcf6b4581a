import ChoiceScript.Text.Basic
import ChoiceScript.Text.WordTable

/-! # Classes of characters

Blanks are the white space characters of Unicode, with the line breaks and the four information
separators U+001C to U+001F among them. Padding, which indents a line or parts its words, is
spaces and tabs only. Words are made of letters, numeric characters and the underscore; decimal
digits are the numeric characters that stand for 0 to 9 in some script, in blocks of ten. Labels may
also hold dashes.
-/

namespace ChoiceScript.Text

def blankCodes : List Nat := [
  0x09, 0x0A, 0x0B, 0x0C, 0x0D, 0x1C, 0x1D, 0x1E, 0x1F, 0x20, 0x85, 0xA0, 0x1680, 0x2000, 0x2001,
  0x2002, 0x2003, 0x2004, 0x2005, 0x2006, 0x2007, 0x2008, 0x2009, 0x200A, 0x2028, 0x2029, 0x202F,
  0x205F, 0x3000]

def isBlank (c : Char) : Bool := blankCodes.contains c.toNat

def isPadding (c : Char) : Bool := c = ' ' || c = '\t'

def blank (text : Text) : Bool := text.all isBlank

def trimStart (text : Text) : Text := text.dropWhile isBlank

/-- Drop the white space at both ends of a text. -/
def trim (text : Text) : Text := (trimStart (trimStart text).reverse).reverse

theorem isBlank_of_isPadding {c : Char} (h : isPadding c = true) : isBlank c = true := by
  simp only [isPadding, Bool.or_eq_true, decide_eq_true_eq] at h
  rcases h with rfl | rfl <;> decide

theorem length_trim_le (text : Text) : (trim text).length ≤ text.length := by
  have first := (List.dropWhile_sublist isBlank (l := text)).length_le
  have second :=
    (List.dropWhile_sublist isBlank (l := (text.dropWhile isBlank).reverse)).length_le
  simp only [trim, trimStart, List.length_reverse] at *
  omega

/-- Is the character a letter, a numeric character or an underscore? -/
def isWord (c : Char) : Bool :=
  if c.toNat < 0x80 then c.isAlphanum || c = '_' else inRanges wordRanges c.toNat

/-- The digit zero of every script, followed in code point order by the other nine digits. -/
def decimalZeros : List Nat := [
  0x0030, 0x0660, 0x06F0, 0x07C0, 0x0966, 0x09E6, 0x0A66, 0x0AE6, 0x0B66, 0x0BE6, 0x0C66, 0x0CE6,
  0x0D66, 0x0DE6, 0x0E50, 0x0ED0, 0x0F20, 0x1040, 0x1090, 0x17E0, 0x1810, 0x1946, 0x19D0, 0x1A80,
  0x1A90, 0x1B50, 0x1BB0, 0x1C40, 0x1C50, 0xA620, 0xA8D0, 0xA900, 0xA9D0, 0xA9F0, 0xAA50, 0xABF0,
  0xFF10, 0x104A0, 0x10D30, 0x11066, 0x110F0, 0x11136, 0x111D0, 0x112F0, 0x11450, 0x114D0,
  0x11650, 0x116C0, 0x11730, 0x118E0, 0x11950, 0x11C50, 0x11D50, 0x11DA0, 0x16A60, 0x16AC0,
  0x16B50, 0x1D7CE, 0x1D7D8, 0x1D7E2, 0x1D7EC, 0x1D7F6, 0x1E140, 0x1E2F0, 0x1E950, 0x1FBF0]

/-- Is the character a decimal digit of some script? -/
def isDecimal (c : Char) : Bool :=
  decimalZeros.any fun first => first ≤ c.toNat && c.toNat < first + 10

/-- May the character stand in the name of a label or scene? -/
def isLabel (c : Char) : Bool := isWord c || c = '-'

/-- No word character is white space. -/
theorem isWord_eq_false_of_isBlank {c : Char} (h : isBlank c = true) : isWord c = false := by
  have codes : ∀ code ∈ blankCodes, isWord (Char.ofNat code) = false := by decide +kernel
  have member : c.toNat ∈ blankCodes := by simpa [isBlank] using h
  simpa using codes _ member

theorem isBlank_eq_false_of_isWord {c : Char} (word : isWord c = true) : isBlank c = false := by
  cases blank : isBlank c with
  | false => rfl
  | true => simp [isWord_eq_false_of_isBlank blank] at word

end ChoiceScript.Text
