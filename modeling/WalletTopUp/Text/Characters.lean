/-!
# Blank characters and letter case

A character is blank when Unicode gives it the property White_Space. Trimming takes blanks off both
ends; a text is blank when nothing is left. Case is folded for the ASCII letters only; every other
character stands for itself. Names that are compared without regard to case are compared by their
folded forms.
-/

namespace WalletTopUp.Text

/-! ## Blanks -/

/-- The characters with the property White_Space. -/
def isBlank (c : Char) : Bool :=
  let n := c.toNat
  (9 ≤ n && n ≤ 13) || n == 0x20 || n == 0x85 || n == 0xa0 || n == 0x1680 ||
    (0x2000 ≤ n && n ≤ 0x200a) || n == 0x2028 || n == 0x2029 || n == 0x202f || n == 0x205f ||
    n == 0x3000

def trimStart (cs : List Char) : List Char :=
  cs.dropWhile isBlank

def trimEnd (cs : List Char) : List Char :=
  (cs.reverse.dropWhile isBlank).reverse

def trim (s : String) : String :=
  String.ofList (trimEnd (trimStart s.toList))

def isAllBlank (s : String) : Bool :=
  s.toList.all isBlank

/-! ## Case -/

/-- The text with the letters `a` to `z` in upper case. -/
def upper (s : String) : String :=
  String.ofList (s.toList.map Char.toUpper)

/-- The text with the letters `A` to `Z` in lower case. -/
def lower (s : String) : String :=
  String.ofList (s.toList.map Char.toLower)

/-- Equal up to the case of ASCII letters. -/
def sameLetters (a b : String) : Bool :=
  lower a == lower b

end WalletTopUp.Text
