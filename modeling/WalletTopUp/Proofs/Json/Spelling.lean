import Mathlib.Tactic.ByContra
import Mathlib.Tactic.SplitIfs
import WalletTopUp.Json.Salvage
import WalletTopUp.Proofs.Json.Lexeme
import WalletTopUp.Proofs.Results

/-!
# How values are spelled

The grammar of JSON, apart from the readers: a `Draft` is a value with its strings and numbers as they are written,
and `Spelled` relates it to the symbols that spell it. A draft need not stand for a value. A string may name half of a
pair of surrogates or hold bytes that are no characters, and a number may be too large (`Draft.value?`).
-/

namespace WalletTopUp.Json

/-! ## Strings -/

/-- A part of a string as it is written. -/
inductive Piece where
  | plain (symbol : Text.Symbol)
  /-- A character that is written by a backslash and another character. -/
  | short (c : Char)
  /-- A code unit that is written by its four digits. -/
  | unit (n : Nat)

/-- The symbol stands for itself in a string. A byte that is no character does. -/
def IsPlain : Text.Symbol → Prop
  | .ok c => c ≠ '"' ∧ c ≠ '\\' ∧ ¬ c.toNat < 0x20
  | .error _ => True

/-- The symbols spell the pieces of a string, from behind its opening quote up to its closing one. -/
inductive Pieces : List Piece → Source → Source → Prop
  | closed (rest : Source) : Pieces [] (.ok '"' :: rest) rest
  | plain {symbol : Text.Symbol} {ps : List Piece} {src rest : Source} (h : IsPlain symbol) (hps : Pieces ps src rest) :
      Pieces (.plain symbol :: ps) (symbol :: src) rest
  | short {c d : Char} {ps : List Piece} {src rest : Source} (h : shortEscape? c = some d) (hps : Pieces ps src rest) :
      Pieces (.short d :: ps) (.ok '\\' :: .ok c :: src) rest
  | unit {n : Nat} {ps : List Piece} {src after rest : Source} (h : fourDigits src = .ok (n, after))
      (hps : Pieces ps after rest) : Pieces (.unit n :: ps) (.ok '\\' :: .ok 'u' :: src) rest

/-- The characters that the pieces of a string stand for, if they stand for any. -/
def charsOf? : List Piece → Option (List Char)
  | [] => some []
  | .plain (.ok c) :: ps => (charsOf? ps).map (c :: ·)
  | .plain (.error _) :: _ => none
  | .short c :: ps => (charsOf? ps).map (c :: ·)
  | .unit n :: ps =>
    if isLowSurrogate n then none
    else if isHighSurrogate n then
      match ps with
      | .unit m :: ps => if isLowSurrogate m then (charsOf? ps).map (pairChar n m :: ·) else none
      | _ => none
    else (charsOf? ps).map (Char.ofNat n :: ·)

section
variable {n m : Nat} {ps : List Piece}

theorem not_isLowSurrogate_of_high (h : isHighSurrogate n = true) : isLowSurrogate n = false := by
  simp only [isHighSurrogate, Bool.and_eq_true, decide_eq_true_eq] at h
  simp only [isLowSurrogate, Bool.and_eq_false_iff, decide_eq_false_iff_not]
  omega

theorem charsOf?_plain (c : Char) (ps : List Piece) : charsOf? (.plain (.ok c) :: ps) = (charsOf? ps).map (c :: ·) := by
  rw [charsOf?.eq_def]

theorem charsOf?_short (d : Char) (ps : List Piece) : charsOf? (.short d :: ps) = (charsOf? ps).map (d :: ·) := by
  rw [charsOf?.eq_def]

theorem charsOf?_low (h : isLowSurrogate n = true) : charsOf? (.unit n :: ps) = none := by
  unfold charsOf?
  rw [if_pos h]

theorem charsOf?_unit (hlow : isLowSurrogate n = false) (hhigh : isHighSurrogate n = false) :
    charsOf? (.unit n :: ps) = (charsOf? ps).map (Char.ofNat n :: ·) := by
  rw [charsOf?.eq_def]
  simp [hlow, hhigh]

theorem charsOf?_pair (hhigh : isHighSurrogate n = true) (hlow : isLowSurrogate m = true) :
    charsOf? (.unit n :: .unit m :: ps) = (charsOf? ps).map (pairChar n m :: ·) := by
  rw [charsOf?.eq_def]
  simp [not_isLowSurrogate_of_high hhigh, hhigh, hlow]

theorem charsOf?_lone (hhigh : isHighSurrogate n = true)
    (h : ∀ m ps', ps = .unit m :: ps' → isLowSurrogate m = false) : charsOf? (.unit n :: ps) = none := by
  rw [charsOf?.eq_def]
  simp only [not_isLowSurrogate_of_high hhigh, hhigh, Bool.false_eq_true, if_false, if_true]
  split
  · next m ps' => rw [if_neg (by simp [h m ps' rfl])]
  · rfl

end

def textOf? (ps : List Piece) : Option String := (charsOf? ps).map String.ofList

/-! ## Values -/

inductive Draft where
  | null
  | flag (value : Bool)
  | number (literal : Literal)
  | text (pieces : List Piece)
  | array (items : List Draft)
  | object (members : List (List Piece × Draft))

abbrev Draft.Members := List (List Piece × Draft)

mutual

/-- The value that a draft stands for, if it stands for one. -/
def Draft.value? : Draft → Option Json
  | .null => some .null
  | .flag b => some (.flag b)
  | .number l => l.value?.map .number
  | .text ps => (textOf? ps).map .text
  | .array ds => (itemValues? ds).map .array
  | .object ms => (memberValues? ms).map .object

def itemValues? : List Draft → Option (List Json)
  | [] => some []
  | d :: ds =>
    match d.value? with
    | none => none
    | some a => (itemValues? ds).map (a :: ·)

def memberValues? : List (List Piece × Draft) → Option (List (String × Json))
  | [] => some []
  | (ps, d) :: ms =>
    match textOf? ps, d.value? with
    | some name, some a => (memberValues? ms).map ((name, a) :: ·)
    | _, _ => none

end

mutual

/-- How many arrays and objects are inside one another. -/
def Draft.depth : Draft → Nat
  | .array ds => itemsDepth ds + 1
  | .object ms => membersDepth ms + 1
  | _ => 0

def itemsDepth : List Draft → Nat
  | [] => 0
  | d :: ds => max d.depth (itemsDepth ds)

def membersDepth : List (List Piece × Draft) → Nat
  | [] => 0
  | (_, d) :: ms => max d.depth (membersDepth ms)

end

/-! ## Spelling -/

/-- What a piece of a text spells: a value, or the items or members from one on up to the closing bracket; behind an
opening bracket no comma comes before the first one. -/
inductive Part where
  | value (d : Draft)
  | items (first : Bool) (ds : List Draft)
  | members (first : Bool) (ms : Draft.Members)

/-- A comma, after spaces, unless this is the first one. -/
def Separated (first : Bool) (src rest : Source) : Prop :=
  if first then rest = src else skipSpace src = .ok ',' :: rest

/-- The symbols from `src` up to `rest` spell the part. -/
inductive Spelled : Part → Source → Source → Prop
  | null {src rest : Source} (h : skipSpace src = .ok 'n' :: .ok 'u' :: .ok 'l' :: .ok 'l' :: rest) :
      Spelled (.value .null) src rest
  | yes {src rest : Source} (h : skipSpace src = .ok 't' :: .ok 'r' :: .ok 'u' :: .ok 'e' :: rest) :
      Spelled (.value (.flag true)) src rest
  | no {src rest : Source} (h : skipSpace src = .ok 'f' :: .ok 'a' :: .ok 'l' :: .ok 's' :: .ok 'e' :: rest) :
      Spelled (.value (.flag false)) src rest
  | number {src rest : Source} {l : Literal} (h : readLiteral (skipSpace src) = .ok (l, rest)) :
      Spelled (.value (.number l)) src rest
  | text {src body rest : Source} {ps : List Piece} (hopen : skipSpace src = .ok '"' :: body)
      (h : Pieces ps body rest) : Spelled (.value (.text ps)) src rest
  | array {src body rest : Source} {ds : List Draft} (hopen : skipSpace src = .ok '[' :: body)
      (h : Spelled (.items true ds) body rest) : Spelled (.value (.array ds)) src rest
  | object {src body rest : Source} {ms : Draft.Members} (hopen : skipSpace src = .ok '\x7b' :: body)
      (h : Spelled (.members true ms) body rest) : Spelled (.value (.object ms)) src rest
  | noItem {first : Bool} {src rest : Source} (h : skipSpace src = .ok ']' :: rest) :
      Spelled (.items first []) src rest
  | item {first : Bool} {src body middle rest : Source} {d : Draft} {ds : List Draft} (hsep : Separated first src body)
      (hd : Spelled (.value d) body middle) (hds : Spelled (.items false ds) middle rest) :
      Spelled (.items first (d :: ds)) src rest
  | noMember {first : Bool} {src rest : Source} (h : skipSpace src = .ok '\x7d' :: rest) :
      Spelled (.members first []) src rest
  | member {first : Bool} {src body key colon value middle rest : Source} {ps : List Piece} {d : Draft}
      {ms : Draft.Members} (hsep : Separated first src body) (hkey : skipSpace body = .ok '"' :: key)
      (hps : Pieces ps key colon) (hcolon : skipSpace colon = .ok ':' :: value) (hd : Spelled (.value d) value middle)
      (hms : Spelled (.members false ms) middle rest) : Spelled (.members first ((ps, d) :: ms)) src rest

/-! ## Spaces -/

section
variable {src rest : Source}

theorem skipSpace_skipSpace (src : Source) : skipSpace (skipSpace src) = skipSpace src := by
  induction src with
  | nil => rfl
  | cons s src ih =>
    rcases s with b | c
    · rfl
    · by_cases hc : isSpace c
      · simp [skipSpace, hc, ih]
      · simp [skipSpace, hc]

theorem length_skipSpace (src : Source) : (skipSpace src).length ≤ src.length := by
  induction src with
  | nil => exact Nat.le_refl _
  | cons s src ih =>
    rcases s with b | c
    · exact Nat.le_refl _
    · by_cases hc : isSpace c
      · simp only [skipSpace, hc, if_true, List.length_cons]
        omega
      · simp [skipSpace, hc]

theorem length_of_skipSpace {s : Text.Symbol} (h : skipSpace src = s :: rest) : rest.length < src.length := by
  have hle := length_skipSpace src
  rw [h, List.length_cons] at hle
  omega

theorem expect_eq_ok_iff {c : Char} : expect c src = .ok rest ↔ skipSpace src = .ok c :: rest := by
  unfold expect
  rcases skipSpace src with _ | ⟨b | d, tail⟩
  · simp [expectWord]
  · simp [expectWord]
  · by_cases hd : d = c
    · simp [expectWord, hd]
    · simp [expectWord, hd]

end

/-! ## Words -/

theorem expectWord_eq_ok_iff {word : List Char} {src rest : Source} :
    expectWord word src = .ok rest ↔ src = word.map .ok ++ rest := by
  induction word generalizing src with
  | nil => simp [expectWord]
  | cons w word ih =>
    rcases src with _ | ⟨b | c, src⟩
    · simp [expectWord]
    · simp [expectWord]
    · by_cases hc : c = w
      · simp [expectWord, hc, ih]
      · simp [expectWord, hc]

/-! ## Numbers -/

/-- A character that numbers are written with. -/
def IsNumeric (c : Char) : Prop := c.isDigit = true ∨ c = '-' ∨ c = '+' ∨ c = '.' ∨ c = 'e' ∨ c = 'E'

/-- There are only such characters from `src` up to `rest`. -/
def Numeric (src rest : Source) : Prop := ∃ cs, src = written cs ++ rest ∧ ∀ c ∈ cs, IsNumeric c

section
variable {src middle rest : Source} {ds : List Char}

theorem Numeric.refl (src : Source) : Numeric src src := ⟨[], rfl, fun _ h => by cases h⟩

theorem Numeric.trans (h : Numeric src middle) (h' : Numeric middle rest) : Numeric src rest := by
  obtain ⟨cs, rfl, hcs⟩ := h
  obtain ⟨ds, rfl, hds⟩ := h'
  refine ⟨cs ++ ds, by simp, fun c hc => ?_⟩
  rcases List.mem_append.mp hc with hc | hc
  · exact hcs c hc
  · exact hds c hc

theorem Numeric.cons {c : Char} (hc : IsNumeric c) (h : Numeric middle rest) : Numeric (.ok c :: middle) rest := by
  refine Numeric.trans ⟨[c], rfl, fun d hd => ?_⟩ h
  rw [List.mem_singleton.mp hd]
  exact hc

theorem Numeric.length_le (h : Numeric src rest) : rest.length ≤ src.length := by
  obtain ⟨cs, rfl, -⟩ := h
  simp

theorem digitRun_eq (src : Source) :
    src = written (digitRun src).1 ++ (digitRun src).2 ∧ ∀ c ∈ (digitRun src).1, c.isDigit = true := by
  induction src with
  | nil => exact ⟨rfl, fun _ h => by cases h⟩
  | cons s src ih =>
    rcases s with b | c
    · exact ⟨rfl, fun _ h => by cases h⟩
    · by_cases hc : c.isDigit
      · simp only [digitRun, hc, if_true, written_cons, List.cons_append, List.forall_mem_cons]
        exact ⟨congrArg _ ih.1, trivial, ih.2⟩
      · simp [digitRun, hc]

theorem someDigits_eq (h : someDigits src = .ok (ds, rest)) :
    src = written ds ++ rest ∧ ds ≠ [] ∧ ∀ c ∈ ds, c.isDigit = true := by
  have hrun := digitRun_eq src
  unfold someDigits at h
  split at h
  · cases h
  · cases h
  · next hne =>
    rw [Except.ok.inj h] at hrun hne
    refine ⟨hrun.1, ?_, hrun.2⟩
    rintro rfl
    exact hne rest rfl

theorem numeric_digits (hds : ∀ c ∈ ds, c.isDigit = true) : Numeric (written ds ++ rest) rest :=
  ⟨ds, rfl, fun c hc => .inl (hds c hc)⟩

theorem wholeDigits_eq (h : wholeDigits src = .ok (ds, rest)) : Numeric src rest ∧ rest.length < src.length := by
  have hsome : someDigits src = .ok (ds, rest) := by
    unfold wholeDigits at h
    rcases hdigits : someDigits src with failure | ⟨cs, left⟩ <;> rw [hdigits] at h
    · cases h
    · simp only [bind, Except.bind] at h
      split at h
      · cases h
      · rw [Except.ok.inj h]
  obtain ⟨rfl, hne, hds⟩ := someDigits_eq hsome
  refine ⟨numeric_digits hds, ?_⟩
  rcases ds with _ | ⟨d, ds⟩
  · exact absurd rfl hne
  · rw [written_cons, List.cons_append, List.length_cons, List.length_append]
    omega

theorem fractionDigits_eq {fraction : Option (List Char)} (h : fractionDigits src = .ok (fraction, rest)) :
    Numeric src rest := by
  unfold fractionDigits at h
  split at h
  · next src =>
    rcases hdigits : someDigits src with failure | ⟨ds, left⟩ <;> rw [hdigits] at h
    · cases h
    · obtain ⟨-, rfl⟩ := Prod.mk.inj (Except.ok.inj h)
      obtain ⟨rfl, -, hds⟩ := someDigits_eq hdigits
      exact .cons (by simp [IsNumeric]) (numeric_digits hds)
  · obtain ⟨-, rfl⟩ := Prod.mk.inj (Except.ok.inj h)
    exact .refl src

theorem exponentSign_eq (src : Source) : Numeric src (exponentSign src).2 := by
  unfold exponentSign
  split
  · exact .cons (by simp [IsNumeric]) (.refl _)
  · exact .cons (by simp [IsNumeric]) (.refl _)
  · exact .refl src

theorem numberSign_eq (src : Source) : Numeric src (numberSign src).2 := by
  unfold numberSign
  split
  · exact .cons (by simp [IsNumeric]) (.refl _)
  · exact .refl src

theorem exponentDigits_eq {exponent : Option (Bool × List Char)} (h : exponentDigits src = .ok (exponent, rest)) :
    Numeric src rest ∧ ∀ negative ds, exponent = some (negative, ds) →
      Numeric src (written ds ++ rest) ∧ ∀ c ∈ ds, c.isDigit = true := by
  unfold exponentDigits at h
  split at h
  · next c src =>
    split_ifs at h with hletter
    · have hc : IsNumeric c := by rcases hletter with rfl | rfl <;> simp [IsNumeric]
      have hsign := exponentSign_eq src
      rcases hsign' : exponentSign src with ⟨negative, unsigned⟩
      rw [hsign'] at h hsign
      rcases hdigits : someDigits unsigned with failure | ⟨ds, left⟩ <;> simp only [hdigits] at h
      · cases h
      obtain ⟨rfl, rfl⟩ := Prod.mk.inj (Except.ok.inj h)
      obtain ⟨rfl, -, hds⟩ := someDigits_eq hdigits
      refine ⟨.cons hc (hsign.trans (numeric_digits hds)), fun negative' ds' hexponent => ?_⟩
      obtain ⟨-, rfl⟩ := Prod.mk.inj (Option.some.inj hexponent)
      exact ⟨.cons hc hsign, hds⟩
    · obtain ⟨rfl, rfl⟩ := Prod.mk.inj (Except.ok.inj h)
      exact ⟨.refl _, fun _ _ hnone => by cases hnone⟩
  · obtain ⟨rfl, rfl⟩ := Prod.mk.inj (Except.ok.inj h)
    exact ⟨.refl _, fun _ _ hnone => by cases hnone⟩

theorem beyondWord_suffix (n : Nat) (ds : List Char) : ∃ before, ds = before ++ beyondWord n ds := by
  induction ds generalizing n with
  | nil => exact ⟨[], rfl⟩
  | cons d ds ih =>
    by_cases hnext : Nat.pow 2 31 ≤ n * 10 + (d.toNat - '0'.toNat)
    · exact ⟨[d], by simp only [beyondWord, if_pos hnext]; rfl⟩
    · obtain ⟨before, hbefore⟩ := ih (n * 10 + (d.toNat - '0'.toNat))
      refine ⟨d :: before, ?_⟩
      simp only [beyondWord, if_neg hnext, List.cons_append]
      exact congrArg _ hbefore

/-- A literal is made of the characters of numbers. What is unread when it is given up are digits at its end. -/
theorem readLiteral_eq {l : Literal} (h : readLiteral src = .ok (l, rest)) :
    Numeric src (written l.unread ++ rest) ∧ (∀ c ∈ l.unread, c.isDigit = true) ∧ rest.length < src.length := by
  have hsign := numberSign_eq src
  rcases hsign' : numberSign src with ⟨negative, unsigned⟩
  rw [readLiteral, hsign'] at h
  rw [hsign'] at hsign
  rcases hwhole : wholeDigits unsigned with failure | ⟨whole, src₁⟩ <;> simp only [hwhole, bind, Except.bind] at h
  · cases h
  rcases hfraction : fractionDigits src₁ with failure | ⟨fraction, src₂⟩ <;> simp only [hfraction] at h
  · cases h
  rcases hexponent : exponentDigits src₂ with failure | ⟨exponent, src₃⟩ <;> simp only [hexponent] at h
  · cases h
  obtain ⟨rfl, rfl⟩ := Prod.mk.inj (Except.ok.inj h)
  obtain ⟨hwholeNumeric, hshorter⟩ := wholeDigits_eq hwhole
  have hfront : Numeric src src₂ := hsign.trans (hwholeNumeric.trans (fractionDigits_eq hfraction))
  have hlength : src₃.length < src.length := by
    have h₁ := hsign.length_le
    have h₂ := (fractionDigits_eq hfraction).length_le
    have h₃ := (exponentDigits_eq hexponent).1.length_le
    simp only at h₁
    omega
  obtain ⟨hrest, hdigits⟩ := exponentDigits_eq hexponent
  unfold Literal.unread
  split
  · next ds hsome =>
    obtain ⟨hnumeric, hds⟩ := hdigits _ ds hsome
    obtain ⟨before, hbefore⟩ := beyondWord_suffix 0 ds
    have hmem : ∀ c ∈ before ++ beyondWord 0 ds, c.isDigit = true := hbefore ▸ hds
    refine ⟨(hfront.trans hnumeric).trans ⟨before, ?_, fun c hc => ?_⟩, fun c hc => ?_, hlength⟩
    · rw [← List.append_assoc, ← written_append, ← hbefore]
    · exact .inl (hmem c (List.mem_append_left _ hc))
    · exact hmem c (List.mem_append_right _ hc)
  · exact ⟨hfront.trans hrest, fun _ hc => (by cases hc), hlength⟩

theorem someDigits_head {ds : List Char} (h : someDigits src = .ok (ds, rest)) :
    ∃ c tail, src = .ok c :: tail ∧ c.isDigit = true := by
  rcases src with _ | ⟨b | c, src⟩
  · cases h
  · cases h
  · refine ⟨c, src, rfl, ?_⟩
    by_contra hc
    simp [someDigits, digitRun, hc] at h

theorem readLiteral_head {l : Literal} (h : readLiteral src = .ok (l, rest)) :
    ∃ c tail, src = .ok c :: tail ∧ (c = '-' ∨ c.isDigit = true) := by
  rcases hsign : numberSign src with ⟨negative, unsigned⟩
  have hwhole : ∃ run, someDigits unsigned = .ok run := by
    rw [readLiteral, hsign] at h
    rcases hdigits : someDigits unsigned with failure | run
    · simp only [wholeDigits, hdigits, bind, Except.bind] at h
      cases h
    · exact ⟨run, rfl⟩
  obtain ⟨run, hrun⟩ := hwhole
  obtain ⟨c, tail, rfl, hc⟩ := someDigits_head hrun
  unfold numberSign at hsign
  split at hsign
  · next src => exact ⟨'-', src, rfl, .inl rfl⟩
  · obtain ⟨-, rfl⟩ := Prod.mk.inj hsign
    exact ⟨c, tail, rfl, .inr hc⟩

theorem numeric_head {l : Literal} {c : Char} {tail : Source} (h : readLiteral (skipSpace src) = .ok (l, rest))
    (hskip : skipSpace src = .ok c :: tail) : c = '-' ∨ c.isDigit = true := by
  obtain ⟨d, tail', hd, hnumeric⟩ := readLiteral_head h
  rw [hskip] at hd
  cases hd
  exact hnumeric

end

/-! ## One spelling -/

section
variable {src rest rest' : Source} {ps ps' : List Piece}

theorem Pieces.unique (h : Pieces ps src rest) (h' : Pieces ps' src rest') : ps = ps' ∧ rest = rest' := by
  induction h generalizing ps' with
  | closed rest =>
    cases h' with
    | closed => exact ⟨rfl, rfl⟩
    | plain hplain => exact absurd rfl hplain.1
  | plain hplain hps ih =>
    cases h' with
    | closed => exact absurd rfl hplain.1
    | plain _ hps' =>
      obtain ⟨rfl, rfl⟩ := ih hps'
      exact ⟨rfl, rfl⟩
    | short => exact absurd rfl hplain.2.1
    | unit => exact absurd rfl hplain.2.1
  | short hshort hps ih =>
    cases h' with
    | plain hplain => exact absurd rfl hplain.2.1
    | short hshort' hps' =>
      rw [hshort] at hshort'
      cases hshort'
      obtain ⟨rfl, rfl⟩ := ih hps'
      exact ⟨rfl, rfl⟩
    | unit => cases hshort
  | unit hdigits hps ih =>
    cases h' with
    | plain hplain => exact absurd rfl hplain.2.1
    | short hshort => cases hshort
    | unit hdigits' hps' =>
      rw [hdigits] at hdigits'
      cases hdigits'
      obtain ⟨rfl, rfl⟩ := ih hps'
      exact ⟨rfl, rfl⟩

theorem Separated.unique {first : Bool} {body body' : Source} (h : Separated first src body)
    (h' : Separated first src body') : body = body' := by
  cases first with
  | true => exact Eq.trans h (Eq.symm h')
  | false =>
    have hcomma : Except.ok ',' :: body = Except.ok ',' :: body' := Eq.trans (Eq.symm h) h'
    exact (List.cons.inj hcomma).2

/-- The parts are of one kind, at the same place. -/
def Part.Alike : Part → Part → Prop
  | .value _, .value _ => True
  | .items first _, .items first' _ => first = first'
  | .members first _, .members first' _ => first = first'
  | _, _ => False

theorem Spelled.head {d : Draft} (h : Spelled (.value d) src rest) :
    ∃ c tail, skipSpace src = .ok c :: tail ∧ c ≠ ']' ∧ c ≠ ',' := by
  cases h with
  | null h => exact ⟨_, _, h, by decide⟩
  | yes h => exact ⟨_, _, h, by decide⟩
  | no h => exact ⟨_, _, h, by decide⟩
  | number h =>
    obtain ⟨c, tail, hc, hnumeric⟩ := readLiteral_head h
    refine ⟨c, tail, hc, ?_, ?_⟩
    · exact ne_of_numeric hnumeric (by decide) (by decide)
    · exact ne_of_numeric hnumeric (by decide) (by decide)
  | text hopen h => exact ⟨_, _, hopen, by decide⟩
  | array hopen h => exact ⟨_, _, hopen, by decide⟩
  | object hopen h => exact ⟨_, _, hopen, by decide⟩

theorem Spelled.not_closing {first : Bool} {body tail rest : Source} {d : Draft} (hsep : Separated first src body)
    (h : Spelled (.value d) body rest) : skipSpace src ≠ .ok ']' :: tail := by
  intro hclosing
  cases first with
  | true =>
    obtain rfl : body = src := hsep
    obtain ⟨c, tail', hc, hne, -⟩ := h.head
    rw [hclosing] at hc
    cases hc
    exact hne rfl
  | false =>
    have hcomma : skipSpace src = .ok ',' :: body := hsep
    rw [hclosing] at hcomma
    cases hcomma

theorem Separated.not_closing {first : Bool} {body key tail : Source} (hsep : Separated first src body)
    (hkey : skipSpace body = .ok '"' :: key) : skipSpace src ≠ .ok '\x7d' :: tail := by
  intro hclosing
  cases first with
  | true =>
    obtain rfl : body = src := hsep
    rw [hclosing] at hkey
    cases hkey
  | false =>
    have hcomma : skipSpace src = .ok ',' :: body := hsep
    rw [hclosing] at hcomma
    cases hcomma

/-- Of the parts of its kind no other is spelled here. -/
def Part.Sole (src rest : Source) (part : Part) : Prop :=
  ∀ ⦃part' rest'⦄, Spelled part' src rest' → part.Alike part' → part = part' ∧ rest = rest'

section
variable {first : Bool} {body middle : Source} {d : Draft} {ds : List Draft} {ms : Draft.Members}

theorem Part.Sole.array (hopen : skipSpace src = .ok '[' :: body) (h : (Part.items true ds).Sole body rest) :
    (Part.value (.array ds)).Sole src rest := by
  intro part' rest' h' halike
  cases h' with
  | array hopen' h' =>
    rw [hopen] at hopen'
    cases hopen'
    obtain ⟨hds, rfl⟩ := h h' rfl
    cases hds
    exact ⟨rfl, rfl⟩
  | number h' => exact absurd (numeric_head h' hopen) (by decide)
  | _ => simp_all [Part.Alike]

theorem Part.Sole.object (hopen : skipSpace src = .ok '\x7b' :: body) (h : (Part.members true ms).Sole body rest) :
    (Part.value (.object ms)).Sole src rest := by
  intro part' rest' h' halike
  cases h' with
  | object hopen' h' =>
    rw [hopen] at hopen'
    cases hopen'
    obtain ⟨hms, rfl⟩ := h h' rfl
    cases hms
    exact ⟨rfl, rfl⟩
  | number h' => exact absurd (numeric_head h' hopen) (by decide)
  | _ => simp_all [Part.Alike]

theorem Part.sole_noItem (h : skipSpace src = .ok ']' :: rest) : (Part.items first []).Sole src rest := by
  intro part' rest' h' halike
  cases h' with
  | noItem h' =>
    rw [h] at h'
    cases h'
    cases halike
    exact ⟨rfl, rfl⟩
  | item hsep hd => exact absurd h (hd.not_closing hsep)
  | _ => cases halike

theorem Part.Sole.item (hsep : Separated first src body) (hspelled : Spelled (.value d) body middle)
    (hd : (Part.value d).Sole body middle) (hds : (Part.items false ds).Sole middle rest) :
    (Part.items first (d :: ds)).Sole src rest := by
  intro part' rest' h' halike
  cases h' with
  | noItem h' => exact absurd h' (hspelled.not_closing hsep)
  | item hsep' hd' hds' =>
    cases halike
    obtain rfl := hsep.unique hsep'
    obtain ⟨hvalue, rfl⟩ := hd hd' trivial
    obtain ⟨hitems, rfl⟩ := hds hds' rfl
    cases hvalue
    cases hitems
    exact ⟨rfl, rfl⟩
  | _ => cases halike

theorem Part.sole_noMember (h : skipSpace src = .ok '\x7d' :: rest) : (Part.members first []).Sole src rest := by
  intro part' rest' h' halike
  cases h' with
  | noMember h' =>
    rw [h] at h'
    cases h'
    cases halike
    exact ⟨rfl, rfl⟩
  | member hsep hkey => exact absurd h (hsep.not_closing hkey)
  | _ => cases halike

/-- Members stand alone when the value of the first one does and the others do: a name is spelled in one way. -/
theorem Part.Sole.member {key colon value : Source} (hsep : Separated first src body)
    (hkey : skipSpace body = .ok '"' :: key) (hps : Pieces ps key colon) (hcolon : skipSpace colon = .ok ':' :: value)
    (hd : (Part.value d).Sole value middle) (hms : (Part.members false ms).Sole middle rest) :
    (Part.members first ((ps, d) :: ms)).Sole src rest := by
  intro part' rest' h' halike
  cases h' with
  | noMember h' => exact absurd h' (hsep.not_closing hkey)
  | member hsep' hkey' hps' hcolon' hd' hms' =>
    cases halike
    obtain rfl := hsep.unique hsep'
    rw [hkey] at hkey'
    cases hkey'
    obtain ⟨rfl, rfl⟩ := hps.unique hps'
    rw [hcolon] at hcolon'
    cases hcolon'
    obtain ⟨hvalue, rfl⟩ := hd hd' trivial
    obtain ⟨hmembers, rfl⟩ := hms hms' rfl
    cases hvalue
    cases hmembers
    exact ⟨rfl, rfl⟩
  | _ => cases halike

end

theorem Spelled.sole {part : Part} (h : Spelled part src rest) : part.Sole src rest := by
  induction h with
  | null h | yes h | no h =>
    intro part' rest' h' halike
    cases h' with
    | number h' => exact absurd (numeric_head h' h) (by decide)
    | _ => simp_all [Part.Alike]
  | number h =>
    intro part' rest' h' halike
    cases h' with
    | number h' =>
      rw [h] at h'
      cases h'
      exact ⟨rfl, rfl⟩
    | null h' | yes h' | no h' | text h' | array h' | object h' => exact absurd (numeric_head h h') (by decide)
    | _ => cases halike
  | text hopen h =>
    intro part' rest' h' halike
    cases h' with
    | text hopen' h' =>
      rw [hopen] at hopen'
      cases hopen'
      obtain ⟨rfl, rfl⟩ := h.unique h'
      exact ⟨rfl, rfl⟩
    | number h' => exact absurd (numeric_head h' hopen) (by decide)
    | _ => simp_all [Part.Alike]
  | array hopen h ih => exact .array hopen ih
  | object hopen h ih => exact .object hopen ih
  | noItem h => exact Part.sole_noItem h
  | item hsep hd hds ihd ihds => exact .item hsep hd ihd ihds
  | noMember h => exact Part.sole_noMember h
  | member hsep hkey hps hcolon hd hms ihd ihms => exact .member hsep hkey hps hcolon ihd ihms

/-- A text spells at most one part of a kind. -/
theorem Spelled.unique {part part' : Part} (h : Spelled part src rest) (h' : Spelled part' src rest')
    (halike : part.Alike part') : part = part' ∧ rest = rest' := h.sole h' halike

end

end WalletTopUp.Json
