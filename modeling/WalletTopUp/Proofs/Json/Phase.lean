import WalletTopUp.Proofs.Json.Passing

/-!
# Where a symbol stands

Whether a symbol of a text is inside a string, and inside how many brackets, is told by the symbols before it, with no
reader (`Leads`). A reader that has lost its way in a text still stands somewhere in this sense. It may stand in a
string where it takes itself to be outside, and outside where it takes itself to be in a string: then it goes on like
that, and the names that it reads are no names of letters (`Spelled.inverted`, `Pieces.inverted`).
-/

namespace WalletTopUp.Json

/-- Outside strings, in a string, or in a string behind a backslash. -/
inductive Phase where
  | outside
  | quoted
  | escaped
  deriving DecidableEq

/-- The phase, and how many more brackets have been opened than closed. -/
abbrev Place := Phase × Int

theorem outside_ne (n : Int) : ((Phase.outside, n) : Place).1 ≠ .escaped := nofun

theorem quoted_ne (n : Int) : ((Phase.quoted, n) : Place).1 ≠ .escaped := nofun

/-- A character that may stand outside strings and is no bracket. -/
def isMark (c : Char) : Bool :=
  isSpace c || c.isDigit || ['-', '+', '.', ',', ':', 'n', 'u', 'l', 't', 'r', 'e', 'f', 'a', 's', 'E'].contains c

/-- The place behind one more symbol. -/
def advance : Place → Text.Symbol → Option Place
  | (.outside, n), .ok c =>
    if c = '"' then some (.quoted, n)
    else if c = '[' ∨ c = '\x7b' then some (.outside, n + 1)
    else if c = ']' ∨ c = '\x7d' then some (.outside, n - 1)
    else if isMark c then some (.outside, n)
    else none
  | (.outside, _), .error _ => none
  | (.quoted, n), .ok c =>
    if c = '"' then some (.outside, n) else if c = '\\' then some (.escaped, n) else some (.quoted, n)
  | (.quoted, n), .error _ => some (.quoted, n)
  | (.escaped, n), _ => some (.quoted, n)

/-- From the one place, the symbols up to those that are left lead to the other. -/
inductive Leads : Place → Source → Place → Source → Prop
  | here (p : Place) (src : Source) : Leads p src p src
  | step {p q last : Place} {s : Text.Symbol} {src left : Source} (h : advance p s = some q)
      (hrest : Leads q src last left) : Leads p (s :: src) last left

section
variable {p q last : Place} {n : Int} {c : Char} {src middle rest left : Source} {ps : List Piece}

theorem Leads.trans (h : Leads p src q middle) (h' : Leads q middle last left) : Leads p src last left := by
  induction h with
  | here => exact h'
  | step hstep _ ih => exact .step hstep (ih h')

/-- A text that leads to its end does so from each of the places in it. -/
theorem Leads.onward (h : Leads p src q middle) (hend : Leads p src last []) : Leads q middle last [] := by
  induction h with
  | here => exact hend
  | step hstep _ ih =>
    cases hend with
    | step hstep' hrest =>
      rw [hstep] at hstep'
      obtain rfl := Option.some.inj hstep'
      exact ih hrest

theorem Leads.eq_of_nil (h : Leads p [] q left) : p = q := by
  cases h
  rfl

/-! ## Single symbols -/

theorem isMark_of_isSpace (h : isSpace c = true) : isMark c = true := by
  simp [isMark, h]

theorem isMark_of_isNumeric (h : IsNumeric c) : isMark c = true := by
  rcases h with h | rfl | rfl | rfl | rfl | rfl
  · simp [isMark, h]
  all_goals decide

theorem advance_mark (hp : p.1 ≠ .escaped) (h : isMark c = true) : advance p (.ok c) = some p := by
  have hquote : c ≠ '"' := by rintro rfl; revert h; decide
  have hbackslash : c ≠ '\\' := by rintro rfl; revert h; decide
  have hopen : ¬ (c = '[' ∨ c = '\x7b') := by rintro (rfl | rfl) <;> revert h <;> decide
  have hclose : ¬ (c = ']' ∨ c = '\x7d') := by rintro (rfl | rfl) <;> revert h <;> decide
  obtain ⟨phase, n⟩ := p
  cases phase with
  | outside => simp only [advance, if_neg hquote, if_neg hopen, if_neg hclose, if_pos h]
  | quoted => simp only [advance, if_neg hquote, if_neg hbackslash]
  | escaped => exact absurd rfl hp

theorem advance_quoted (hquote : c ≠ '"') (hbackslash : c ≠ '\\') :
    advance (.quoted, n) (.ok c) = some (.quoted, n) := by
  simp only [advance, if_neg hquote, if_neg hbackslash]

theorem advance_outside {s : Text.Symbol} (h : advance (.outside, n) s = some q) (hquote : s ≠ .ok '"') :
    ∃ m, q = (.outside, m) := by
  rcases s with b | c
  · cases h
  · have hc : c ≠ '"' := fun hc => hquote (congrArg _ hc)
    simp only [advance, if_neg hc] at h
    split_ifs at h
    all_goals exact ⟨_, (Option.some.inj h).symm⟩

/-! ## Spaces, words and numbers -/

theorem leads_written {cs : List Char} (hp : p.1 ≠ .escaped) (h : ∀ c ∈ cs, isMark c = true) (rest : Source) :
    Leads p (written cs ++ rest) p rest := by
  induction cs with
  | nil => exact .here p rest
  | cons c cs ih =>
    obtain ⟨hc, hcs⟩ := List.forall_mem_cons.mp h
    exact .step (advance_mark hp hc) (ih hcs)

theorem leads_skipSpace (hp : p.1 ≠ .escaped) (src : Source) : Leads p src p (skipSpace src) := by
  induction src with
  | nil => exact .here p []
  | cons s src ih =>
    rcases s with b | c
    · exact .here p _
    · by_cases hc : isSpace c
      · rw [skipSpace, if_pos hc]
        exact .step (advance_mark hp (isMark_of_isSpace hc)) ih
      · rw [skipSpace, if_neg hc]
        exact .here p _

theorem leads_next (hp : p.1 ≠ .escaped) (hskip : skipSpace src = .ok c :: rest) (h : advance p (.ok c) = some q) :
    Leads p src q rest := by
  refine (leads_skipSpace hp src).trans ?_
  rw [hskip]
  exact .step h (.here q rest)

theorem leads_word (word : List Char) (hp : p.1 ≠ .escaped) (hskip : skipSpace src = written word ++ rest)
    (h : word.all isMark = true) : Leads p src p rest := by
  refine (leads_skipSpace hp src).trans ?_
  rw [hskip]
  exact leads_written hp (List.all_eq_true.mp h) rest

theorem Numeric.leads (h : Numeric src rest) (hp : p.1 ≠ .escaped) : Leads p src p rest := by
  obtain ⟨cs, rfl, hcs⟩ := h
  exact leads_written hp (fun c hc => isMark_of_isNumeric (hcs c hc)) rest

theorem leads_literal {l : Literal} (hp : p.1 ≠ .escaped) (h : readLiteral (skipSpace src) = .ok (l, rest)) :
    Leads p src p rest := by
  obtain ⟨hnumeric, hunread, -⟩ := readLiteral_eq h
  exact (leads_skipSpace hp src).trans ((hnumeric.trans (numeric_digits hunread)).leads hp)

theorem leads_separated {first : Bool} (hp : p.1 ≠ .escaped) (h : Separated first src rest) : Leads p src p rest := by
  cases first with
  | true =>
    obtain rfl : rest = src := h
    exact .here p rest
  | false => exact leads_next hp h (advance_mark hp (by decide))

/-! ## Strings -/

theorem leads_fourDigits {k : Nat} (h : fourDigits src = .ok (k, rest)) : Leads (.quoted, n) src (.quoted, n) rest := by
  have hstays : ∀ {s : Text.Symbol} {v : Nat}, symbolHex? s = some v → advance (.quoted, n) s = some (.quoted, n) := by
    intro s v hs
    rcases s with b | c
    · cases hs
    · refine advance_quoted ?_ ?_
      · rintro rfl
        revert hs
        simp [symbolHex?, Text.hexValue?]
      · rintro rfl
        revert hs
        simp [symbolHex?, Text.hexValue?]
  unfold fourDigits at h
  split_ifs at h
  split at h
  · split at h
    · next ha hb hc hd =>
      obtain ⟨-, rfl⟩ := Prod.mk.inj (Except.ok.inj h)
      exact .step (hstays ha) (.step (hstays hb) (.step (hstays hc) (.step (hstays hd) (.here _ _))))
    · cases h
  · cases h

theorem Pieces.leads (h : Pieces ps src rest) (n : Int) : Leads (.quoted, n) src (.outside, n) rest := by
  induction h with
  | closed rest => exact .step rfl (.here _ rest)
  | @plain symbol ps src rest hplain hps ih =>
    refine .step (q := (.quoted, n)) ?_ ih
    rcases symbol with b | c
    · rfl
    · exact advance_quoted hplain.1 hplain.2.1
  | short h hps ih => exact .step rfl (.step rfl ih)
  | unit h hps ih => exact .step rfl (.step rfl ((leads_fourDigits h).trans ih))

/-- A string that begins with a closing quote: all in it stands outside strings, up to the next opening quote. -/
theorem Pieces.inverted (h : Pieces ps src rest) (hend : Leads (.outside, n) src last []) :
    (∃ m, Leads (.outside, n) src (.quoted, m) rest) ∧
      ∀ cs, charsOf? ps = some cs → ∀ c ∈ cs, ∃ n q, advance (.outside, n) (.ok c) = some q := by
  induction h generalizing n with
  | closed rest =>
    refine ⟨⟨n, .step rfl (.here _ rest)⟩, fun cs hcs c hc => ?_⟩
    obtain rfl := Option.some.inj hcs
    cases hc
  | @plain symbol ps src rest hplain hps ih =>
    rcases hend with _ | ⟨hstep, hrest⟩
    rcases symbol with b | c
    · cases hstep
    obtain ⟨m, rfl⟩ := advance_outside hstep fun hc => hplain.1 (Except.ok.inj hc)
    obtain ⟨⟨m', hleads⟩, hchars⟩ := ih hrest
    refine ⟨⟨m', .step hstep hleads⟩, fun cs hcs d hd => ?_⟩
    rw [charsOf?_plain] at hcs
    obtain ⟨ds, hds, rfl⟩ := Option.map_eq_some_iff.mp hcs
    rcases List.mem_cons.mp hd with rfl | hd
    · exact ⟨n, _, hstep⟩
    · exact hchars ds hds d hd
  | short h hps ih =>
    rcases hend with _ | ⟨hstep, -⟩
    cases hstep
  | unit h hps ih =>
    rcases hend with _ | ⟨hstep, -⟩
    cases hstep

/-! ## Values -/

/-- How many brackets the part closes that it has not opened. -/
def Part.closes : Part → Int
  | .value _ => 0
  | .items _ _ => 1
  | .members _ _ => 1

/-- A value leaves the brackets as they are; items and members close one. -/
theorem Spelled.leads {part : Part} (h : Spelled part src rest) (n : Int) :
    Leads (.outside, n) src (.outside, n - part.closes) rest := by
  induction h generalizing n with
  | null h => simpa [Part.closes] using leads_word ['n', 'u', 'l', 'l'] (outside_ne _) h rfl
  | yes h => simpa [Part.closes] using leads_word ['t', 'r', 'u', 'e'] (outside_ne _) h rfl
  | no h => simpa [Part.closes] using leads_word ['f', 'a', 'l', 's', 'e'] (outside_ne _) h rfl
  | number h => simpa [Part.closes] using leads_literal (outside_ne _) h
  | text hopen h => simpa [Part.closes] using (leads_next (outside_ne _) hopen rfl).trans (h.leads n)
  | array hopen h ih =>
    have hbody := (leads_next (outside_ne _) hopen rfl).trans (ih (n + 1))
    simpa [Part.closes] using hbody
  | object hopen h ih =>
    have hbody := (leads_next (outside_ne _) hopen rfl).trans (ih (n + 1))
    simpa [Part.closes] using hbody
  | noItem h => exact leads_next (outside_ne _) h rfl
  | item hsep hd hds ihd ihds =>
    have hvalue := (leads_separated (outside_ne _) hsep).trans (ihd n)
    simp only [Part.closes, Int.sub_zero] at hvalue
    exact hvalue.trans (ihds n)
  | noMember h => exact leads_next (outside_ne _) h rfl
  | member hsep hkey hps hcolon hd hms ihd ihms =>
    have hname := (leads_separated (outside_ne _) hsep).trans ((leads_next (outside_ne _) hkey rfl).trans (hps.leads n))
    have hvalue := (hname.trans (leads_next (outside_ne _) hcolon (advance_mark (outside_ne _) (by decide)))).trans
      (ihd n)
    simp only [Part.closes, Int.sub_zero] at hvalue
    exact hvalue.trans (ihms n)

/-- A part that is read in a string, as if it stood outside, ends in a string. -/
theorem Spelled.inverted {part : Part} (h : Spelled part src rest) (hend : Leads (.quoted, n) src last []) :
    ∃ m, Leads (.quoted, n) src (.quoted, m) rest := by
  induction h generalizing n with
  | null h => exact ⟨n, leads_word ['n', 'u', 'l', 'l'] (quoted_ne _) h rfl⟩
  | yes h => exact ⟨n, leads_word ['t', 'r', 'u', 'e'] (quoted_ne _) h rfl⟩
  | no h => exact ⟨n, leads_word ['f', 'a', 'l', 's', 'e'] (quoted_ne _) h rfl⟩
  | number h => exact ⟨n, leads_literal (quoted_ne _) h⟩
  | text hopen h =>
    have hquote := leads_next (q := (.outside, n)) (quoted_ne _) hopen rfl
    obtain ⟨⟨m, hbody⟩, -⟩ := h.inverted (hquote.onward hend)
    exact ⟨m, hquote.trans hbody⟩
  | array hopen h ih =>
    have hbracket := leads_next (q := (.quoted, n)) (quoted_ne _) hopen rfl
    obtain ⟨m, hbody⟩ := ih (hbracket.onward hend)
    exact ⟨m, hbracket.trans hbody⟩
  | object hopen h ih =>
    have hbracket := leads_next (q := (.quoted, n)) (quoted_ne _) hopen rfl
    obtain ⟨m, hbody⟩ := ih (hbracket.onward hend)
    exact ⟨m, hbracket.trans hbody⟩
  | noItem h => exact ⟨n, leads_next (quoted_ne _) h rfl⟩
  | item hsep hd hds ihd ihds =>
    have hcomma := leads_separated (p := (.quoted, n)) (quoted_ne _) hsep
    obtain ⟨m, hvalue⟩ := ihd (hcomma.onward hend)
    have hfront := hcomma.trans hvalue
    obtain ⟨m', hmore⟩ := ihds (hfront.onward hend)
    exact ⟨m', hfront.trans hmore⟩
  | noMember h => exact ⟨n, leads_next (quoted_ne _) h rfl⟩
  | member hsep hkey hps hcolon hd hms ihd ihms =>
    have hquote := (leads_separated (p := (.quoted, n)) (quoted_ne _) hsep).trans
      (leads_next (q := (.outside, n)) (quoted_ne _) hkey rfl)
    obtain ⟨⟨m, hname⟩, -⟩ := hps.inverted (hquote.onward hend)
    have hfront := (hquote.trans hname).trans (leads_next (quoted_ne _) hcolon (advance_mark (quoted_ne _) (by decide)))
    obtain ⟨m', hvalue⟩ := ihd (hfront.onward hend)
    obtain ⟨m'', hmore⟩ := ihms ((hfront.trans hvalue).onward hend)
    exact ⟨m'', (hfront.trans hvalue).trans hmore⟩

end

end WalletTopUp.Json
