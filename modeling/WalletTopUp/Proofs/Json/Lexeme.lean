import WalletTopUp.Json.Tree
import WalletTopUp.Proofs.Text.Digits

/-!
# Reading back what was written: scalars

A writer leaves no spaces, so what it wrote is read back from its first character on. A string ends at its
own quote. A number has no end of its own: it is read back only where something follows that cannot belong to
it, and behind a value there is always the end of the text, a comma or a closing bracket (`Ends`). `Reads` is
the law that every reader of values has; this module proves it of strings, integers and words.
-/

namespace WalletTopUp.Json

def written (cs : List Char) : Source := cs.map .ok

@[simp] theorem written_nil : written [] = [] := rfl

@[simp] theorem written_cons (c : Char) (cs : List Char) : written (c :: cs) = .ok c :: written cs := rfl

@[simp] theorem written_append (cs ds : List Char) : written (cs ++ ds) = written cs ++ written ds :=
  List.map_append

theorem symbols_ofList (cs : List Char) : Text.symbols (String.ofList cs) = written cs := by
  rw [Text.symbols, String.toList_ofList]
  rfl

/-- What may stand behind a written value. -/
def Ends : Source → Prop
  | [] => True
  | .ok c :: _ => c = ',' ∨ c = ']' ∨ c = '\x7d'
  | .error _ :: _ => False

/-- The reader takes exactly the written value, whatever may follow it. -/
def Reads {α : Type} (read : Source → Except Failure (α × Source)) (cs : List Char) (a : α) : Prop :=
  ∀ rest, Ends rest → read (written cs ++ rest) = .ok (a, rest)

theorem skipSpace_cons {c : Char} (h : isSpace c = false) (rest : Source) :
    skipSpace (.ok c :: rest) = .ok c :: rest := by
  simp [skipSpace, h]

/-! ## Strings -/

theorem stringBody_quote (rest : Source) : stringBody (.ok '"' :: rest) = .ok ([], rest) := by
  rw [stringBody]
  rfl

theorem stringBody_of_escape {src after : Source} {c : Char} (h : escape src = .ok (c, after)) :
    stringBody (.ok '\\' :: src) = (stringBody after).map fun (cs, left) => (c :: cs, left) := by
  rw [stringBody, if_neg (by decide), if_pos rfl]
  split
  · next failure hfailed =>
    rw [h] at hfailed
    cases hfailed
  · next hescape =>
    rw [h] at hescape
    cases hescape
    rfl

theorem stringBody_plain {c : Char} (hquote : c ≠ '"') (hbackslash : c ≠ '\\') (hcontrol : ¬ c.toNat < 0x20)
    (src : Source) : stringBody (.ok c :: src) = (stringBody src).map fun (cs, left) => (c :: cs, left) := by
  rw [stringBody, if_neg hquote, if_neg hbackslash, if_neg hcontrol]

theorem escape_control {c : Char} (h : c.toNat < 0x20) (src : Source) :
    escape (written ('u' :: '0' :: '0' :: Text.hexDigits 2 c.toNat) ++ src) = .ok (c, src) := by
  have hhigh : c.toNat / 16 % 16 < 16 := Nat.mod_lt _ (by decide)
  have hlow : c.toNat % 16 < 16 := Nat.mod_lt _ (by decide)
  have hdigits : Text.hexDigits 2 c.toNat = [Text.hexDigit (c.toNat / 16 % 16), Text.hexDigit (c.toNat % 16)] := rfl
  have hcode : fourDigits (written ('0' :: '0' :: Text.hexDigits 2 c.toNat) ++ src) = .ok (c.toNat, src) := by
    have hnumber : c.toNat / 16 % 16 * 16 + c.toNat % 16 = c.toNat := by omega
    have hzero : Text.hexValue? '0' = some 0 := rfl
    have hsize : '0'.utf8Size = 1 := rfl
    simp [fourDigits, hdigits, symbolSize, symbolHex?, hsize, Text.utf8Size_hexDigit _ hhigh,
      Text.utf8Size_hexDigit _ hlow, hzero, Text.hexValue?_hexDigit _ hhigh, Text.hexValue?_hexDigit _ hlow]
    exact hnumber
  have hunit : codeUnit (written ('0' :: '0' :: Text.hexDigits 2 c.toNat) ++ src) = .ok (c, src) := by
    have hsurrogate : isLowSurrogate c.toNat = false ∧ isHighSurrogate c.toNat = false := by
      simp only [isLowSurrogate, isHighSurrogate, Bool.and_eq_false_iff, decide_eq_false_iff_not]
      omega
    simp only [codeUnit, hcode, bind, Except.bind, hsurrogate, Bool.false_eq_true, if_false, Char.ofNat_toNat]
  simpa only [written_cons, List.cons_append, escape, if_true] using hunit

theorem stringBody_escapeChar (c : Char) (src : Source) :
    stringBody (written (escapeChar c) ++ src) = (stringBody src).map fun (cs, left) => (c :: cs, left) := by
  unfold escapeChar
  by_cases hquote : c = '"'
  · subst hquote
    exact stringBody_of_escape rfl
  by_cases hbackslash : c = '\\'
  · subst hbackslash
    exact stringBody_of_escape rfl
  by_cases hback : c = '\x08'
  · subst hback
    exact stringBody_of_escape rfl
  by_cases hform : c = '\x0c'
  · subst hform
    exact stringBody_of_escape rfl
  by_cases hline : c = '\n'
  · subst hline
    exact stringBody_of_escape rfl
  by_cases hreturn : c = '\r'
  · subst hreturn
    exact stringBody_of_escape rfl
  by_cases htab : c = '\t'
  · subst htab
    exact stringBody_of_escape rfl
  rw [if_neg hquote, if_neg hbackslash, if_neg hback, if_neg hform, if_neg hline, if_neg hreturn, if_neg htab]
  by_cases hcontrol : c.toNat < 0x20
  · rw [if_pos hcontrol]
    exact stringBody_of_escape (escape_control hcontrol src)
  · rw [if_neg hcontrol]
    exact stringBody_plain hquote hbackslash hcontrol src

theorem stringBody_written (cs : List Char) (rest : Source) :
    stringBody (written (cs.flatMap escapeChar) ++ .ok '"' :: rest) = .ok (cs, rest) := by
  induction cs with
  | nil => exact stringBody_quote rest
  | cons c cs ih =>
    rw [List.flatMap_cons, written_append, List.append_assoc, stringBody_escapeChar, ih]
    rfl

theorem written_stringChars (s : String) (rest : Source) :
    written (stringChars s) ++ rest = .ok '"' :: (written (s.toList.flatMap escapeChar) ++ .ok '"' :: rest) := by
  simp [stringChars]

theorem readKey_written (s : String) (rest : Source) :
    readKey (written (s.toList.flatMap escapeChar) ++ .ok '"' :: rest) = .ok (s, rest) := by
  rw [readKey, stringBody_written]
  simp [Except.map]

/-! ## Integers -/

/-- An integer that fits a word of 64 bits, signed or unsigned. -/
def Number.Exact : Number → Prop
  | integer n => -0x8000_0000_0000_0000 ≤ n ∧ n < 0x1_0000_0000_0000_0000
  | float _ => False

theorem digitRun_of_ends {rest : Source} (h : Ends rest) : digitRun rest = ([], rest) := by
  match rest, h with
  | [], _ => rfl
  | .ok c :: rest, h => rcases h with rfl | rfl | rfl <;> rfl

theorem digitRun_written {ds : List Char} (hds : ∀ c ∈ ds, c.isDigit = true) {rest : Source} (hrest : Ends rest) :
    digitRun (written ds ++ rest) = (ds, rest) := by
  induction ds with
  | nil => exact digitRun_of_ends hrest
  | cons d ds ih =>
    obtain ⟨hd, hds⟩ := List.forall_mem_cons.mp hds
    simp [digitRun, hd, ih hds]

theorem fractionDigits_of_ends {rest : Source} (h : Ends rest) : fractionDigits rest = .ok (none, rest) := by
  match rest, h with
  | [], _ => rfl
  | .ok c :: rest, h => rcases h with rfl | rfl | rfl <;> rfl

theorem exponentDigits_of_ends {rest : Source} (h : Ends rest) : exponentDigits rest = .ok (none, rest) := by
  match rest, h with
  | [], _ => rfl
  | .ok c :: rest, h => rcases h with rfl | rfl | rfl <;> rfl

theorem wholeDigits_toDigits (n : Nat) {rest : Source} (h : Ends rest) :
    wholeDigits (written (Nat.toDigits 10 n) ++ rest) = .ok (Nat.toDigits 10 n, rest) := by
  have hrun : digitRun (written (Nat.toDigits 10 n) ++ rest) = (Nat.toDigits 10 n, rest) :=
    digitRun_written (fun _ hc => Text.isDigit_of_mem_toDigits hc) h
  have hsome : someDigits (written (Nat.toDigits 10 n) ++ rest) = .ok (Nat.toDigits 10 n, rest) := by
    rcases hdigits : Nat.toDigits 10 n with _ | ⟨d, ds⟩
    · exact absurd hdigits Nat.toDigits_ne_nil
    · rw [hdigits] at hrun
      unfold someDigits
      rw [hrun]
      rfl
  rw [wholeDigits, hsome]
  simp only [bind, Except.bind]
  split
  · next hzero => exact absurd hzero (Text.toDigits_ne_zero_cons n _ _)
  · rfl

theorem numberSign_signText (negative : Bool) (n : Nat) (rest : Source) :
    numberSign (written (Binary64.signText negative ++ Nat.toDigits 10 n) ++ rest) =
      (negative, written (Nat.toDigits 10 n) ++ rest) := by
  cases negative with
  | true => rfl
  | false =>
    rcases hdigits : Nat.toDigits 10 n with _ | ⟨d, ds⟩
    · exact absurd hdigits Nat.toDigits_ne_nil
    · have hd : d.isDigit = true := Text.isDigit_of_mem_toDigits (n := n) (hdigits ▸ List.mem_cons_self)
      have hminus : d ≠ '-' := Text.ne_of_isDigit hd rfl
      simp [numberSign, Binary64.signText, hminus]

theorem Literal.value?_integer {n : Int} (h : (Number.integer n).Exact) :
    Literal.value? ⟨n < 0, Nat.toDigits 10 n.natAbs, none, none⟩ = some (.integer n) := by
  obtain ⟨hlow, hhigh⟩ := h
  have hinteger : Literal.integer? ⟨n < 0, Nat.toDigits 10 n.natAbs, none, none⟩ = some n := by
    simp only [Literal.integer?, Option.isSome_none, Bool.or_self, Bool.false_eq_true, if_false,
      Nat.ofDigitChars_ten_toDigits, decide_eq_true_eq]
    split
    · next hnegative =>
      have hfits : 0 < n.natAbs ∧ n.natAbs ≤ Nat.pow 2 63 := by
        change 0 < n.natAbs ∧ n.natAbs ≤ 0x8000_0000_0000_0000
        omega
      rw [if_pos hfits]
      congr 1
      omega
    · next hpositive =>
      have hfits : n.natAbs < Nat.pow 2 64 := by
        change n.natAbs < 0x1_0000_0000_0000_0000
        omega
      rw [if_pos hfits]
      congr 1
      omega
  rw [Literal.value?, hinteger]

theorem readNumber_written {n : Int} (h : (Number.integer n).Exact) :
    Reads readNumber (Number.integer n).chars (.integer n) := by
  intro rest hrest
  have hliteral : readLiteral (written (Number.integer n).chars ++ rest) =
      .ok (⟨n < 0, Nat.toDigits 10 n.natAbs, none, none⟩, rest) := by
    rw [readLiteral]
    simp only [Number.chars, Binary64.digitsOf, numberSign_signText, wholeDigits_toDigits _ hrest,
      fractionDigits_of_ends hrest, exponentDigits_of_ends hrest, bind, Except.bind]
  rw [readNumber, hliteral]
  simp only [bind, Except.bind, Literal.value?_integer h]

/-! ## Lexemes -/

theorem readLexeme_string (s : String) : Reads readLexeme (stringChars s) (.text s) := by
  intro rest _
  rw [written_stringChars, readLexeme, skipSpace_cons rfl]
  simp [stringBody_written, Except.map]

theorem exists_head_of_integer (n : Int) :
    ∃ c cs, (Number.integer n).chars = c :: cs ∧ (c = '-' ∨ c.isDigit = true) := by
  rw [Number.chars, Binary64.digitsOf]
  cases decide (n < 0) with
  | true => exact ⟨_, _, rfl, .inl rfl⟩
  | false =>
    rcases hdigits : Nat.toDigits 10 n.natAbs with _ | ⟨d, ds⟩
    · exact absurd hdigits Nat.toDigits_ne_nil
    · exact ⟨d, ds, rfl, .inr (Text.isDigit_of_mem_toDigits (n := n.natAbs) (hdigits ▸ List.mem_cons_self))⟩

theorem ne_of_numeric {c d : Char} (hc : c = '-' ∨ c.isDigit = true) (hminus : d ≠ '-')
    (hdigit : d.isDigit = false) : c ≠ d := by
  rcases hc with rfl | hc
  · exact hminus.symm
  · exact Text.ne_of_isDigit hc hdigit

theorem isSpace_of_numeric {c : Char} (hc : c = '-' ∨ c.isDigit = true) : isSpace c = false := by
  refine Bool.eq_false_iff.mpr fun hspace => ?_
  simp only [isSpace, Bool.or_eq_true, beq_iff_eq] at hspace
  rcases hspace with ((h | h) | h) | h <;> exact ne_of_numeric hc (by decide) (by decide) h

theorem readLexeme_integer {n : Int} (h : (Number.integer n).Exact) :
    Reads readLexeme (Number.integer n).chars (.number (.integer n)) := by
  intro rest hrest
  have hread := readNumber_written h rest hrest
  obtain ⟨c, cs, hchars, hc⟩ := exists_head_of_integer n
  rw [hchars] at hread ⊢
  rw [written_cons, List.cons_append] at hread ⊢
  rw [readLexeme, skipSpace_cons (isSpace_of_numeric hc)]
  simp only [if_neg (ne_of_numeric hc (d := '"') (by decide) (by decide)), if_pos hc, hread, Except.map]

theorem readLexeme_null : Reads readLexeme ['n', 'u', 'l', 'l'] .null :=
  fun _ _ => rfl

theorem readLexeme_flag (b : Bool) : Reads readLexeme (toString b).toList (.flag b) := by
  intro rest _
  cases b <;> rfl

theorem readLexeme_sequence (rest : Source) : readLexeme (.ok '[' :: rest) = .ok (.sequence, rest) := rfl

theorem readLexeme_mapping (rest : Source) : readLexeme (.ok '\x7b' :: rest) = .ok (.mapping, rest) := rfl

end WalletTopUp.Json
