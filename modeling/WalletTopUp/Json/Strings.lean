import WalletTopUp.Json.Source
import WalletTopUp.Text.Hex

/-!
# JSON strings

Between the quotes a backslash begins an escape and control characters are not allowed. A `\u` escape
is a code unit: two surrogates in order make one character and a surrogate alone makes none.
Writing escapes quotes, backslashes and control characters, and nothing else.
-/

namespace WalletTopUp.Json

def symbolSize : Text.Symbol → Nat
  | .ok c => c.utf8Size
  | .error _ => 1

def symbolHex? : Text.Symbol → Option Nat
  | .ok c => Text.hexValue? c
  | .error _ => none

/-- Four hexadecimal digits. Fewer than four bytes to the end are too few, whatever they are. -/
def fourDigits (src : Source) : Except Failure (Nat × Source) :=
  if (src.take 4).foldr (fun s n => symbolSize s + n) 0 < 4 then .error .truncated
  else
    match src with
    | a :: b :: c :: d :: rest =>
      match symbolHex? a, symbolHex? b, symbolHex? c, symbolHex? d with
      | some a, some b, some c, some d => .ok (((a * 16 + b) * 16 + c) * 16 + d, rest)
      | _, _, _, _ => .error .malformed
    | _ => .error .malformed

/-- A code unit that begins a pair. -/
def isHighSurrogate (n : Nat) : Bool := 0xd800 ≤ n && n ≤ 0xdbff

/-- A code unit that ends a pair. -/
def isLowSurrogate (n : Nat) : Bool := 0xdc00 ≤ n && n ≤ 0xdfff

def pairChar (high low : Nat) : Char :=
  Char.ofNat ((high - 0xd800) * 0x400 + (low - 0xdc00) + 0x10000)

/-- The character of the code unit after `\u`, or of the pair that begins there. -/
def codeUnit (src : Source) : Except Failure (Char × Source) := do
  let (n, rest) ← fourDigits src
  if isLowSurrogate n then .error .malformed
  else if isHighSurrogate n then
    let rest ← expectWord ['\\', 'u'] rest
    let (m, rest) ← fourDigits rest
    if isLowSurrogate m then .ok (pairChar n m, rest) else .error .malformed
  else .ok (Char.ofNat n, rest)

def shortEscape? (c : Char) : Option Char :=
  if c = '"' then some '"'
  else if c = '\\' then some '\\'
  else if c = '/' then some '/'
  else if c = 'b' then some '\x08'
  else if c = 'f' then some '\x0c'
  else if c = 'n' then some '\n'
  else if c = 'r' then some '\r'
  else if c = 't' then some '\t'
  else none

def escape : Source → Except Failure (Char × Source)
  | [] => .error .truncated
  | .error _ :: _ => .error .malformed
  | .ok c :: rest =>
    if c = 'u' then codeUnit rest
    else
      match shortEscape? c with
      | some d => .ok (d, rest)
      | none => .error .malformed

theorem length_of_fourDigits {src rest : Source} {n : Nat} (h : fourDigits src = .ok (n, rest)) :
    rest.length < src.length := by
  unfold fourDigits at h
  split at h
  · simp at h
  · split at h
    · split at h
      · simp only [Except.ok.injEq, Prod.mk.injEq] at h
        obtain ⟨-, rfl⟩ := h
        simp only [List.length_cons]
        omega
      · simp at h
    · simp at h

theorem length_of_expectWord {word : List Char} {src rest : Source}
    (h : expectWord word src = .ok rest) : rest.length ≤ src.length := by
  induction word generalizing src with
  | nil => simp_all [expectWord]
  | cons w word ih =>
    cases src with
    | nil => simp [expectWord] at h
    | cons c src =>
      cases c with
      | error b => simp [expectWord] at h
      | ok c =>
        simp only [expectWord] at h
        split at h
        · exact Nat.le_succ_of_le (ih h)
        · simp at h

theorem length_of_codeUnit {src rest : Source} {c : Char} (h : codeUnit src = .ok (c, rest)) :
    rest.length < src.length := by
  unfold codeUnit at h
  cases h4 : fourDigits src with
  | error e => simp [h4, bind, Except.bind] at h
  | ok p =>
    obtain ⟨n, r⟩ := p
    have hr := length_of_fourDigits h4
    simp only [h4, bind, Except.bind] at h
    split at h
    · simp at h
    · split at h
      · cases hw : expectWord ['\\', 'u'] r with
        | error e => simp [hw] at h
        | ok r' =>
          have hr' := length_of_expectWord hw
          simp only [hw] at h
          cases h5 : fourDigits r' with
          | error e => simp [h5] at h
          | ok q =>
            obtain ⟨m, r''⟩ := q
            have hr'' := length_of_fourDigits h5
            simp only [h5] at h
            split at h
            · simp only [Except.ok.injEq, Prod.mk.injEq] at h
              obtain ⟨-, rfl⟩ := h
              omega
            · simp at h
      · simp only [Except.ok.injEq, Prod.mk.injEq] at h
        obtain ⟨-, rfl⟩ := h
        exact hr

theorem length_of_escape {src rest : Source} {c : Char} (h : escape src = .ok (c, rest)) :
    rest.length < src.length := by
  unfold escape at h
  split at h
  · simp at h
  · simp at h
  · split at h
    · exact Nat.lt_succ_of_lt (length_of_codeUnit h)
    · split at h
      · simp only [Except.ok.injEq, Prod.mk.injEq] at h
        obtain ⟨-, rfl⟩ := h
        simp
      · simp at h

/-- The characters up to the closing quote. -/
def stringBody (src : Source) : Except Failure (List Char × Source) :=
  match src with
  | [] => .error .truncated
  | .error _ :: _ => .error .malformed
  | .ok c :: rest =>
    if c = '"' then .ok ([], rest)
    else if c = '\\' then
      match _h : escape rest with
      | .error failure => .error failure
      | .ok (d, after) =>
        (stringBody after).map fun (cs, left) => (d :: cs, left)
    else if c.toNat < 0x20 then .error .malformed
    else (stringBody rest).map fun (cs, left) => (c :: cs, left)
termination_by src.length
decreasing_by
  · have := length_of_escape _h
    simp only [List.length_cons]
    omega
  · simp

/-- One character as it stands between the quotes. -/
def escapeChar (c : Char) : List Char :=
  if c = '"' then ['\\', '"']
  else if c = '\\' then ['\\', '\\']
  else if c = '\x08' then ['\\', 'b']
  else if c = '\x0c' then ['\\', 'f']
  else if c = '\n' then ['\\', 'n']
  else if c = '\r' then ['\\', 'r']
  else if c = '\t' then ['\\', 't']
  else if c.toNat < 0x20 then ['\\', 'u', '0', '0'] ++ Text.hexDigits 2 c.toNat
  else [c]

def stringChars (s : String) : List Char :=
  '"' :: s.toList.flatMap escapeChar ++ ['"']

/-! ## Strings that are passed over

Their escapes must be well-formed, but nothing is made of the code units, and bytes that are no
characters do not matter. -/

/-- What is left after the escape that follows a backslash. -/
def skipEscape : Source → Except Failure Source
  | [] => .error .truncated
  | .error _ :: _ => .error .malformed
  | .ok c :: rest =>
    if c = 'u' then (fourDigits rest).map (·.2)
    else if (shortEscape? c).isSome then .ok rest
    else .error .malformed

/-- What is left after the closing quote; `fuel` bounds the number of characters. -/
def skipString : (fuel : Nat) → Source → Except Failure Source
  | 0, _ => .error .truncated
  | _ + 1, [] => .error .truncated
  | fuel + 1, .error _ :: rest => skipString fuel rest
  | fuel + 1, .ok c :: rest =>
    if c = '"' then .ok rest
    else if c = '\\' then do skipString fuel (← skipEscape rest)
    else if c.toNat < 0x20 then .error .malformed
    else skipString fuel rest

end WalletTopUp.Json
