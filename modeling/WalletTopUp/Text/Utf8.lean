/-!
# Bytes as characters

Bytes that came from outside need not be well-formed UTF-8. `decode` reads them from left to right:
a well-formed sequence becomes its character and every byte that begins none stays a byte.
`decodeLossy` writes U+FFFD instead, one for each longest start of a sequence that could still have
become a character.
-/

namespace WalletTopUp.Text

/-- One step of a text from outside: a character, or a byte that is part of none. -/
abbrev Symbol := Except UInt8 Char

def byteLength (cs : List Char) : Nat :=
  cs.foldr (fun c n => c.utf8Size + n) 0

/-- The byte belongs to the tail of a longer sequence. -/
def isTail (b : UInt8) : Bool :=
  0x80 ≤ b && b ≤ 0xbf

/-- What the first byte of a sequence asks of the second one: how many bytes follow, and between
which bounds the first of them has to lie. -/
def leadBounds? (b : UInt8) : Option (Nat × UInt8 × UInt8) :=
  if 0xc2 ≤ b && b ≤ 0xdf then some (1, 0x80, 0xbf)
  else if b == 0xe0 then some (2, 0xa0, 0xbf)
  else if b == 0xed then some (2, 0x80, 0x9f)
  else if 0xe1 ≤ b && b ≤ 0xef then some (2, 0x80, 0xbf)
  else if b == 0xf0 then some (3, 0x90, 0xbf)
  else if 0xf1 ≤ b && b ≤ 0xf3 then some (3, 0x80, 0xbf)
  else if b == 0xf4 then some (3, 0x80, 0x8f)
  else none

/-- How many of the bytes after the lead belong to its sequence, and whether the sequence is
complete. -/
def sequenceTail (b : UInt8) (rest : List UInt8) : Nat × Bool :=
  match leadBounds? b with
  | none => (0, false)
  | some (wanted, low, high) =>
    match rest with
    | [] => (0, false)
    | second :: others =>
      if low ≤ second && second ≤ high then
        let more := ((others.take (wanted - 1)).takeWhile isTail).length
        (1 + more, more + 1 == wanted)
      else (0, false)

/-- The character of a complete sequence: the low bits of the lead, then six bits of every byte. -/
def assemble (b : UInt8) (tail : List UInt8) : Char :=
  let top := match tail.length with
    | 1 => b.toNat % 0x20
    | 2 => b.toNat % 0x10
    | _ => b.toNat % 0x08
  Char.ofNat (tail.foldl (fun n t => n * 64 + t.toNat % 64) top)

/-- The characters of the bytes, and the bytes that begin no well-formed sequence. -/
def decode : List UInt8 → List Symbol
  | [] => []
  | b :: rest =>
    if b < 0x80 then .ok (Char.ofNat b.toNat) :: decode rest
    else
      match sequenceTail b rest with
      | (n, true) => .ok (assemble b (rest.take n)) :: decode (rest.drop n)
      | (_, false) => .error b :: decode rest
termination_by bytes => bytes.length
decreasing_by all_goals (simp only [List.length_cons, List.length_drop]; omega)

/-- The text of the bytes with U+FFFD for what is ill-formed. -/
def decodeLossy : List UInt8 → List Char
  | [] => []
  | b :: rest =>
    if b < 0x80 then Char.ofNat b.toNat :: decodeLossy rest
    else
      match sequenceTail b rest with
      | (n, true) => assemble b (rest.take n) :: decodeLossy (rest.drop n)
      | (n, false) => '\ufffd' :: decodeLossy (rest.drop n)
termination_by bytes => bytes.length
decreasing_by all_goals (simp only [List.length_cons, List.length_drop]; omega)

/-- The text of the bytes, if they are well-formed throughout. -/
def ofBytes? (bytes : List UInt8) : Option String :=
  match (decode bytes).mapM id with
  | .ok cs => some (String.ofList cs)
  | .error _ => none

def bytes (s : String) : List UInt8 :=
  s.toUTF8.toList

/-- The symbols of a text: its characters. -/
def symbols (s : String) : List Symbol :=
  s.toList.map .ok

end WalletTopUp.Text
