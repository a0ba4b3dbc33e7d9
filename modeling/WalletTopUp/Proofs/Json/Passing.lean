import WalletTopUp.Proofs.Json.Lexeme
import WalletTopUp.Proofs.Json.Spelling

/-!
# Passing over values

Passing over a value takes exactly the symbols that spell it, whatever the value: `skipValue_of_spelled` and
`exists_spelled_of_skipValue`. Reading a string takes the symbols that spell it, and it succeeds just for the strings
that stand for a text.
-/

namespace WalletTopUp.Json

section
variable {src rest after : Source} {ps : List Piece} {cs : List Char} {fuel : Nat}

/-! ## Strings -/

theorem skipString_of_pieces (h : Pieces ps src rest) (hfuel : src.length < fuel) : skipString fuel src = .ok rest := by
  induction h generalizing fuel with
  | closed rest =>
    obtain ⟨fuel, rfl⟩ := Nat.exists_eq_add_one.mpr (Nat.zero_lt_of_lt hfuel)
    rfl
  | @plain symbol ps src rest hplain hps ih =>
    obtain ⟨fuel, rfl⟩ := Nat.exists_eq_add_one.mpr (Nat.zero_lt_of_lt hfuel)
    have hrest : src.length < fuel := Nat.lt_of_succ_lt_succ hfuel
    rcases symbol with b | c
    · exact ih hrest
    · obtain ⟨hquote, hbackslash, hcontrol⟩ := hplain
      rw [skipString, if_neg hquote, if_neg hbackslash, if_neg hcontrol, ih hrest]
  | @short c d ps src rest hshort hps ih =>
    obtain ⟨fuel, rfl⟩ := Nat.exists_eq_add_one.mpr (Nat.zero_lt_of_lt hfuel)
    have hrest : src.length < fuel := by
      simp only [List.length_cons] at hfuel
      omega
    have hu : c ≠ 'u' := by
      rintro rfl
      cases hshort
    have hescape : skipEscape (.ok c :: src) = .ok src := by
      rw [skipEscape, if_neg hu, hshort]
      rfl
    rw [skipString, if_neg (by decide), if_pos rfl, hescape]
    exact ih hrest
  | @unit n ps src after rest hdigits hps ih =>
    obtain ⟨fuel, rfl⟩ := Nat.exists_eq_add_one.mpr (Nat.zero_lt_of_lt hfuel)
    have hrest : after.length < fuel := by
      have hshorter := length_of_fourDigits hdigits
      simp only [List.length_cons] at hfuel
      omega
    have hescape : skipEscape (.ok 'u' :: src) = .ok after := by
      rw [skipEscape, if_pos rfl, hdigits]
      rfl
    rw [skipString, if_neg (by decide), if_pos rfl, hescape]
    exact ih hrest

theorem skipEscape_cases (h : skipEscape src = .ok after) :
    (∃ c d, src = .ok c :: after ∧ shortEscape? c = some d) ∨
      ∃ n tail, src = .ok 'u' :: tail ∧ fourDigits tail = .ok (n, after) := by
  rcases src with _ | ⟨b | c, tail⟩
  · cases h
  · cases h
  · simp only [skipEscape] at h
    split_ifs at h with hu hshort
    · subst hu
      rcases hdigits : fourDigits tail with failure | ⟨n, left⟩ <;> rw [hdigits] at h
      · cases h
      · obtain rfl : left = after := Except.ok.inj h
        exact .inr ⟨n, tail, rfl, hdigits⟩
    · obtain rfl : tail = after := Except.ok.inj h
      obtain ⟨d, hd⟩ := Option.isSome_iff_exists.mp hshort
      exact .inl ⟨c, d, rfl, hd⟩

theorem exists_pieces_of_skipString (h : skipString fuel src = .ok rest) : ∃ ps, Pieces ps src rest := by
  induction fuel generalizing src with
  | zero => cases h
  | succ fuel ih =>
    rcases src with _ | ⟨b | c, src⟩
    · cases h
    · obtain ⟨ps, hps⟩ := ih h
      exact ⟨.plain (.error b) :: ps, .plain trivial hps⟩
    · unfold skipString at h
      split_ifs at h with hquote hbackslash hcontrol
      · subst hquote
        obtain rfl : src = rest := Except.ok.inj h
        exact ⟨[], .closed src⟩
      · subst hbackslash
        rcases hescape : skipEscape src with failure | after <;> rw [hescape] at h
        · cases h
        obtain ⟨ps, hps⟩ := ih h
        rcases skipEscape_cases hescape with ⟨c, d, rfl, hshort⟩ | ⟨n, tail, rfl, hdigits⟩
        · exact ⟨.short d :: ps, .short hshort hps⟩
        · exact ⟨.unit n :: ps, .unit hdigits hps⟩
      · obtain ⟨ps, hps⟩ := ih h
        exact ⟨.plain (.ok c) :: ps, .plain ⟨hquote, hbackslash, hcontrol⟩ hps⟩

/-! ### Strings that are read -/

theorem escape_pair {n m : Nat} {low : Source} (hhigh : isHighSurrogate n = true) (hlow : isLowSurrogate m = true)
    (hn : fourDigits src = .ok (n, .ok '\\' :: .ok 'u' :: low)) (hm : fourDigits low = .ok (m, after)) :
    escape (.ok 'u' :: src) = .ok (pairChar n m, after) := by
  have hnot : isLowSurrogate n = false := not_isLowSurrogate_of_high hhigh
  have hword : expectWord ['\\', 'u'] (.ok '\\' :: .ok 'u' :: low) = .ok low := expectWord_eq_ok_iff.mpr rfl
  simp only [escape, if_true, codeUnit, hn, bind, Except.bind, hnot, hhigh, hword, hm, hlow, Bool.false_eq_true,
    if_false]

theorem escape_unit {n : Nat} (hlow : isLowSurrogate n = false) (hhigh : isHighSurrogate n = false)
    (hn : fourDigits src = .ok (n, after)) : escape (.ok 'u' :: src) = .ok (Char.ofNat n, after) := by
  simp only [escape, if_true, codeUnit, hn, bind, Except.bind, hlow, hhigh, Bool.false_eq_true, if_false]

theorem escape_short {c d : Char} (h : shortEscape? c = some d) (src : Source) :
    escape (.ok c :: src) = .ok (d, src) := by
  have hu : c ≠ 'u' := by
    rintro rfl
    cases h
  simp only [escape, if_neg hu, h]

theorem escape_cases {d : Char} (h : escape src = .ok (d, after)) :
    (∃ c, src = .ok c :: after ∧ shortEscape? c = some d) ∨
      (∃ n tail, src = .ok 'u' :: tail ∧ fourDigits tail = .ok (n, after) ∧ isLowSurrogate n = false ∧
        isHighSurrogate n = false ∧ d = Char.ofNat n) ∨
      ∃ n m tail low, src = .ok 'u' :: tail ∧ fourDigits tail = .ok (n, .ok '\\' :: .ok 'u' :: low) ∧
        isHighSurrogate n = true ∧ fourDigits low = .ok (m, after) ∧ isLowSurrogate m = true ∧ d = pairChar n m := by
  rcases src with _ | ⟨b | c, tail⟩
  · cases h
  · cases h
  simp only [escape] at h
  split_ifs at h with hu
  · subst hu
    refine .inr ?_
    rcases hn : fourDigits tail with failure | ⟨n, left⟩ <;> simp only [codeUnit, hn, bind, Except.bind] at h
    · cases h
    split_ifs at h with hlow hhigh
    · rcases hword : expectWord ['\\', 'u'] left with failure | low <;> simp only [hword] at h
      · cases h
      obtain rfl := expectWord_eq_ok_iff.mp hword
      rcases hm : fourDigits low with failure | ⟨m, left⟩ <;> simp only [hm] at h
      · cases h
      split_ifs at h with hm'
      obtain ⟨rfl, rfl⟩ := Prod.mk.inj (Except.ok.inj h)
      exact .inr ⟨n, m, tail, low, rfl, hn, hhigh, hm, hm', rfl⟩
    · obtain ⟨rfl, rfl⟩ := Prod.mk.inj (Except.ok.inj h)
      exact .inl ⟨n, tail, rfl, hn, Bool.eq_false_iff.mpr hlow, Bool.eq_false_iff.mpr hhigh, rfl⟩
  · rcases hshort : shortEscape? c with _ | d' <;> simp only [hshort] at h
    · cases h
    obtain ⟨rfl, rfl⟩ := Prod.mk.inj (Except.ok.inj h)
    exact .inl ⟨c, rfl, hshort⟩

theorem stringBody_of_pieces (h : Pieces ps src rest) (hcs : charsOf? ps = some cs) :
    stringBody src = .ok (cs, rest) := by
  -- the two units of a pair of surrogates are taken at once
  induction ps using charsOf?.induct generalizing src cs with
  | case1 =>
    cases h
    obtain rfl := Option.some.inj hcs
    exact stringBody_quote rest
  | case2 c ps ih =>
    obtain ⟨ds, hds, rfl⟩ := Option.map_eq_some_iff.mp hcs
    cases h with
    | plain hplain hps =>
      obtain ⟨hquote, hbackslash, hcontrol⟩ := hplain
      rw [stringBody_plain hquote hbackslash hcontrol, ih hps hds]
      rfl
  | case3 b ps => cases hcs
  | case4 d ps ih =>
    obtain ⟨ds, hds, rfl⟩ := Option.map_eq_some_iff.mp hcs
    cases h with
    | short hshort hps =>
      rw [stringBody_of_escape (escape_short hshort _), ih hps hds]
      rfl
  | case5 n ps hlow =>
    rw [charsOf?_low hlow] at hcs
    cases hcs
  | case6 n hlow hhigh m ps hm ih =>
    rw [charsOf?_pair hhigh hm] at hcs
    obtain ⟨ds, hds, rfl⟩ := Option.map_eq_some_iff.mp hcs
    rcases h with _ | _ | _ | @⟨_, _, _, _, _, hn, _ | _ | _ | @⟨_, _, _, _, _, hm', hps⟩⟩
    rw [stringBody_of_escape (escape_pair hhigh hm hn hm'), ih hps hds]
    rfl
  | case7 n hlow hhigh m ps hm =>
    rw [charsOf?_lone hhigh fun m' ps' hps => by cases hps; exact Bool.eq_false_iff.mpr hm] at hcs
    cases hcs
  | case8 n ps hlow hhigh hne =>
    rw [charsOf?_lone hhigh fun m' ps' hps => absurd hps (hne m' ps')] at hcs
    cases hcs
  | case9 n ps hlow hhigh ih =>
    rw [charsOf?_unit (Bool.eq_false_iff.mpr hlow) (Bool.eq_false_iff.mpr hhigh)] at hcs
    obtain ⟨ds, hds, rfl⟩ := Option.map_eq_some_iff.mp hcs
    cases h with
    | unit hn hps =>
      rw [stringBody_of_escape (escape_unit (Bool.eq_false_iff.mpr hlow) (Bool.eq_false_iff.mpr hhigh) hn), ih hps hds]
      rfl

theorem pieces_of_escape {d : Char} (h : escape src = .ok (d, after)) (hps : Pieces ps after rest) :
    ∃ more, Pieces more (.ok '\\' :: src) rest ∧ charsOf? more = (charsOf? ps).map (d :: ·) := by
  rcases escape_cases h with ⟨c, rfl, hshort⟩ | ⟨n, tail, rfl, hn, hlow, hhigh, rfl⟩ |
    ⟨n, m, tail, low, rfl, hn, hhigh, hm, hlow, hpair⟩
  · exact ⟨.short d :: ps, .short hshort hps, charsOf?_short d ps⟩
  · exact ⟨.unit n :: ps, .unit hn hps, charsOf?_unit hlow hhigh⟩
  · exact ⟨.unit n :: .unit m :: ps, .unit hn (.unit hm hps), by rw [charsOf?_pair hhigh hlow, hpair]⟩

theorem exists_pieces_of_stringBody (h : stringBody src = .ok (cs, rest)) :
    ∃ ps, Pieces ps src rest ∧ charsOf? ps = some cs := by
  induction src using stringBody.induct generalizing cs with
  | case1 =>
    rw [stringBody] at h
    cases h
  | case2 b src =>
    rw [stringBody] at h
    cases h
  | case3 src =>
    rw [stringBody_quote] at h
    obtain ⟨rfl, rfl⟩ := Prod.mk.inj (Except.ok.inj h)
    exact ⟨[], .closed src, rfl⟩
  | case4 src failure hescape =>
    rw [stringBody, if_neg (by decide), if_pos rfl] at h
    split at h
    · cases h
    · next hok =>
      rw [hescape] at hok
      cases hok
  | case5 src d after hescape _ ih =>
    rw [stringBody_of_escape hescape] at h
    obtain ⟨⟨ds, left⟩, hbody, hcons⟩ := exists_of_map_ok h
    cases hcons
    obtain ⟨ps, hps, hds⟩ := ih hbody
    obtain ⟨more, hmore, hchars⟩ := pieces_of_escape hescape hps
    exact ⟨more, hmore, by rw [hchars, hds]; rfl⟩
  | case6 c src hquote hbackslash hcontrol =>
    rw [stringBody, if_neg hquote, if_neg hbackslash, if_pos hcontrol] at h
    cases h
  | case7 c src hquote hbackslash hcontrol ih =>
    rw [stringBody_plain hquote hbackslash hcontrol] at h
    obtain ⟨⟨ds, left⟩, hbody, hcons⟩ := exists_of_map_ok h
    cases hcons
    obtain ⟨ps, hps, hds⟩ := ih hbody
    exact ⟨.plain (.ok c) :: ps, .plain ⟨hquote, hbackslash, hcontrol⟩ hps, by rw [charsOf?_plain, hds]; rfl⟩

theorem readKey_eq_ok_iff {name : String} :
    readKey src = .ok (name, rest) ↔ ∃ ps, Pieces ps src rest ∧ textOf? ps = some name := by
  unfold readKey textOf?
  constructor
  · intro h
    obtain ⟨⟨cs, left⟩, hbody, hname⟩ := exists_of_map_ok h
    cases hname
    obtain ⟨ps, hps, hcs⟩ := exists_pieces_of_stringBody hbody
    exact ⟨ps, hps, by rw [hcs]; rfl⟩
  · rintro ⟨ps, hps, htext⟩
    obtain ⟨cs, hcs, rfl⟩ := Option.map_eq_some_iff.mp htext
    rw [stringBody_of_pieces hps hcs]
    rfl

/-- A text is read just where one is spelled that stands for something. -/
theorem readLexeme_text_iff {s : String} :
    readLexeme src = .ok (.text s, rest) ↔ ∃ ps, Spelled (.value (.text ps)) src rest ∧ textOf? ps = some s := by
  unfold readLexeme
  constructor
  · intro h
    rcases hskip : skipSpace src with _ | ⟨b | c, tail⟩ <;> simp only [hskip] at h
    · cases h
    · cases h
    split_ifs at h with hquote hnumber harray hobject hn ht hf
    · subst hquote
      obtain ⟨⟨cs, left⟩, hbody, hpair⟩ := exists_of_map_ok h
      cases hpair
      obtain ⟨ps, hps, hcs⟩ := exists_pieces_of_stringBody hbody
      exact ⟨ps, .text hskip hps, by rw [textOf?, hcs]; rfl⟩
    · obtain ⟨number, -, hpair⟩ := exists_of_map_ok h
      cases hpair
    · cases h
    · cases h
    all_goals
      obtain ⟨left, -, hpair⟩ := exists_of_map_ok h
      cases hpair
  · rintro ⟨ps, hspelled, htext⟩
    obtain ⟨cs, hcs, rfl⟩ := Option.map_eq_some_iff.mp htext
    cases hspelled with
    | text hopen hps =>
      simp only [hopen, if_true, stringBody_of_pieces hps hcs]
      rfl

/-! ## Values -/

theorem skipFrom_value {fuel : Nat} {stack : List Bracket} (h : skipFrom (fuel + 1) .value stack src = .ok rest) :
    (∃ middle, skipOpening src = .ok (none, middle) ∧ skipFrom fuel .after stack middle = .ok rest) ∨
      ∃ bracket middle, skipOpening src = .ok (some bracket, middle) ∧
        skipFrom fuel .opened (bracket :: stack) middle = .ok rest := by
  unfold skipFrom at h
  rcases hopening : skipOpening src with failure | ⟨_ | bracket, middle⟩ <;> rw [hopening] at h
  · cases h
  · exact .inl ⟨middle, rfl, h⟩
  · exact .inr ⟨bracket, middle, rfl, h⟩

theorem skipNumber_eq_ok_iff : skipNumber src = .ok rest ↔ ∃ l, readLiteral src = .ok (l, rest) := by
  unfold skipNumber
  rcases readLiteral src with failure | ⟨l, left⟩ <;> simp

theorem skipOpening_cases {bracket? : Option Bracket} (h : skipOpening src = .ok (bracket?, rest)) :
    (bracket? = none ∧ ∃ d, Spelled (.value d) src rest) ∨
      (bracket? = some .array ∧ skipSpace src = .ok '[' :: rest) ∨
        bracket? = some .object ∧ skipSpace src = .ok '\x7b' :: rest := by
  have hscalar : ∀ {result : Except Failure Source}, result.map (none, ·) = .ok (bracket?, rest) →
      bracket? = none ∧ result = .ok rest := by
    intro result hresult
    obtain ⟨left, hleft, hpair⟩ := exists_of_map_ok hresult
    cases hpair
    exact ⟨rfl, hleft⟩
  unfold skipOpening at h
  rcases hskip : skipSpace src with _ | ⟨b | c, tail⟩ <;> simp only [hskip] at h
  · cases h
  · cases h
  split_ifs at h with hquote hnumber harray hobject hn ht hf
  · subst hquote
    obtain ⟨rfl, hstring⟩ := hscalar h
    obtain ⟨ps, hps⟩ := exists_pieces_of_skipString hstring
    exact .inl ⟨rfl, _, .text hskip hps⟩
  · obtain ⟨rfl, hliteral⟩ := hscalar h
    obtain ⟨l, hl⟩ := skipNumber_eq_ok_iff.mp hliteral
    exact .inl ⟨rfl, _, .number (hskip ▸ hl)⟩
  · subst harray
    obtain ⟨rfl, rfl⟩ := Prod.mk.inj (Except.ok.inj h)
    exact .inr (.inl ⟨rfl, rfl⟩)
  · subst hobject
    obtain ⟨rfl, rfl⟩ := Prod.mk.inj (Except.ok.inj h)
    exact .inr (.inr ⟨rfl, rfl⟩)
  · subst hn
    obtain ⟨rfl, hword⟩ := hscalar h
    exact .inl ⟨rfl, _, .null (by rw [hskip, expectWord_eq_ok_iff.mp hword]; rfl)⟩
  · subst ht
    obtain ⟨rfl, hword⟩ := hscalar h
    exact .inl ⟨rfl, _, .yes (by rw [hskip, expectWord_eq_ok_iff.mp hword]; rfl)⟩
  · subst hf
    obtain ⟨rfl, hword⟩ := hscalar h
    exact .inl ⟨rfl, _, .no (by rw [hskip, expectWord_eq_ok_iff.mp hword]; rfl)⟩

theorem skipKey_eq_ok_iff : skipKey src = .ok rest ↔
    ∃ key colon ps, skipSpace src = .ok '"' :: key ∧ Pieces ps key colon ∧ skipSpace colon = .ok ':' :: rest := by
  unfold skipKey
  constructor
  · intro h
    split at h
    · cases h
    · next key hkey =>
      rcases hstring : skipString (key.length + 1) key with failure | colon <;> rw [hstring] at h
      · cases h
      · obtain ⟨ps, hps⟩ := exists_pieces_of_skipString hstring
        exact ⟨key, colon, ps, hkey, hps, expect_eq_ok_iff.mp h⟩
    · cases h
  · rintro ⟨key, colon, ps, hkey, hps, hcolon⟩
    rw [hkey]
    simp only [skipString_of_pieces hps (Nat.lt_succ_self _), bind, Except.bind]
    exact expect_eq_ok_iff.mpr hcolon

/-! ### Contents of brackets -/

theorem skipKey_skipSpace (src : Source) : skipKey (skipSpace src) = skipKey src := by
  unfold skipKey
  rw [skipSpace_skipSpace]

theorem Spelled.congr {d : Draft} {other : Source} (h : Spelled (.value d) src rest)
    (hspace : skipSpace src = skipSpace other) : Spelled (.value d) other rest := by
  cases h with
  | null h => exact .null (hspace ▸ h)
  | yes h => exact .yes (hspace ▸ h)
  | no h => exact .no (hspace ▸ h)
  | number h => exact .number (hspace ▸ h)
  | text hopen h => exact .text (hspace ▸ hopen) h
  | array hopen h => exact .array (hspace ▸ hopen) h
  | object hopen h => exact .object (hspace ▸ hopen) h

/-- Where the passing over stands inside brackets: before the first one, or behind one. -/
def Position.inside (first : Bool) : Position := if first then .opened else .after

/-- The items or members from one on, with the closing bracket. -/
def Bracket.Contents (bracket : Bracket) (first : Bool) (src rest : Source) : Prop :=
  match bracket with
  | .array => ∃ ds, Spelled (.items first ds) src rest
  | .object => ∃ ms, Spelled (.members first ms) src rest

/-- What comes before the value of an item or member: nothing, or the key. -/
def Bracket.Leads (bracket : Bracket) (src value : Source) : Prop :=
  match bracket with
  | .array => skipSpace value = skipSpace src
  | .object => skipKey src = .ok value

theorem Bracket.contents_closing {bracket : Bracket} {first : Bool} (h : skipSpace src = .ok bracket.closing :: rest) :
    bracket.Contents first src rest := by
  cases bracket with
  | array => exact ⟨[], .noItem h⟩
  | object => exact ⟨[], .noMember h⟩

theorem Bracket.contents_cons {bracket : Bracket} {first : Bool} {body value middle : Source} {d : Draft}
    (hsep : Separated first src body) (hleads : bracket.Leads body value) (hd : Spelled (.value d) value middle)
    (h : bracket.Contents false middle rest) : bracket.Contents first src rest := by
  cases bracket with
  | array =>
    obtain ⟨ds, hds⟩ := h
    exact ⟨d :: ds, .item hsep (hd.congr hleads) hds⟩
  | object =>
    obtain ⟨ms, hms⟩ := h
    obtain ⟨key, colon, ps, hkey, hps, hcolon⟩ := skipKey_eq_ok_iff.mp hleads
    exact ⟨(ps, d) :: ms, .member hsep hkey hps hcolon hd hms⟩

theorem skipFrom_inside {bracket : Bracket} {first : Bool} {stack : List Bracket}
    (h : skipFrom (fuel + 1) (.inside first) (bracket :: stack) src = .ok rest) :
    (∃ tail, skipSpace src = .ok bracket.closing :: tail ∧ skipFrom fuel .after stack tail = .ok rest) ∨
      ∃ body value, Separated first src body ∧ bracket.Leads body value ∧
        skipFrom fuel .value (bracket :: stack) value = .ok rest := by
  cases first with
  | true =>
    unfold Position.inside skipFrom at h
    rcases hskip : skipSpace src with _ | ⟨b | c, tail⟩ <;> simp only [hskip, if_true] at h
    · cases h
    · cases h
    split_ifs at h with hclosing
    · exact .inl ⟨tail, by rw [hclosing], h⟩
    cases bracket with
    | array => exact .inr ⟨src, _, rfl, by rw [Bracket.Leads, ← hskip, skipSpace_skipSpace], h⟩
    | object =>
      rcases hkey : skipKey (.ok c :: tail) with failure | value <;> simp only [hkey, bind, Except.bind] at h
      · cases h
      rw [← hskip, skipKey_skipSpace] at hkey
      exact .inr ⟨src, value, rfl, hkey, h⟩
  | false =>
    unfold Position.inside skipFrom at h
    rcases hskip : skipSpace src with _ | ⟨b | c, tail⟩ <;> simp only [hskip, Bool.false_eq_true, if_false] at h
    · cases h
    · cases h
    split_ifs at h with hclosing hcomma
    · exact .inl ⟨tail, by rw [hclosing], h⟩
    subst hcomma
    cases bracket with
    | array => exact .inr ⟨tail, tail, hskip, rfl, h⟩
    | object =>
      rcases hkey : skipKey tail with failure | value <;> simp only [hkey, bind, Except.bind] at h
      · cases h
      exact .inr ⟨tail, value, hskip, hkey, h⟩

theorem skipFrom_sound (fuel : Nat) (rest : Source) :
    (∀ stack src, skipFrom fuel .value stack src = .ok rest →
      ∃ d middle less, Spelled (.value d) src middle ∧ less < fuel ∧ skipFrom less .after stack middle = .ok rest) ∧
    ∀ bracket stack first src, skipFrom fuel (.inside first) (bracket :: stack) src = .ok rest →
      ∃ middle less, bracket.Contents first src middle ∧ less < fuel ∧
        skipFrom less .after stack middle = .ok rest := by
  induction fuel using Nat.strongRecOn with
  | _ fuel ih =>
    rcases fuel with _ | fuel
    · exact ⟨fun stack src h => (by cases h), fun bracket stack first src h => by cases h⟩
    refine ⟨fun stack src h => ?_, fun bracket stack first src h => ?_⟩
    · rcases skipFrom_value h with ⟨middle, hopening, h⟩ | ⟨bracket, body, hopening, h⟩
      · rcases skipOpening_cases hopening with ⟨-, d, hd⟩ | ⟨hnone, -⟩ | ⟨hnone, -⟩
        · exact ⟨d, middle, fuel, hd, Nat.lt_succ_self _, h⟩
        · cases hnone
        · cases hnone
      · obtain ⟨middle, less, hcontents, hless, hafter⟩ := (ih fuel (Nat.lt_succ_self _)).2 bracket stack true body h
        rcases skipOpening_cases hopening with ⟨hsome, -⟩ | ⟨hsome, hbracket⟩ | ⟨hsome, hbracket⟩ <;> cases hsome
        · obtain ⟨ds, hds⟩ := hcontents
          exact ⟨_, middle, less, .array hbracket hds, by omega, hafter⟩
        · obtain ⟨ms, hms⟩ := hcontents
          exact ⟨_, middle, less, .object hbracket hms, by omega, hafter⟩
    · rcases skipFrom_inside h with ⟨tail, hclosing, h⟩ | ⟨body, value, hsep, hleads, h⟩
      · exact ⟨tail, fuel, bracket.contents_closing hclosing, Nat.lt_succ_self _, h⟩
      · obtain ⟨d, middle, less, hd, hless, h⟩ := (ih fuel (Nat.lt_succ_self _)).1 (bracket :: stack) value h
        obtain ⟨after, least, hcontents, hleast, h⟩ := (ih less (by omega)).2 bracket stack false middle h
        exact ⟨after, least, bracket.contents_cons hsep hleads hd hcontents, by omega, h⟩

/-- What is passed over is spelled. -/
theorem exists_spelled_of_skipValue (h : skipValue src = .ok rest) : ∃ d, Spelled (.value d) src rest := by
  obtain ⟨d, middle, less, hd, -, h⟩ := (skipFrom_sound _ rest).1 [] src h
  rcases less with _ | less
  · cases h
  · obtain rfl : middle = rest := Except.ok.inj h
    exact ⟨d, hd⟩

/-! ### What is spelled is passed over -/

theorem skipOpening_congr {other : Source} (h : skipSpace src = skipSpace other) :
    skipOpening src = skipOpening other := by
  unfold skipOpening
  rw [h]

theorem skipFrom_value_congr {stack : List Bracket} {other : Source} (h : skipSpace src = skipSpace other) :
    skipFrom fuel .value stack src = skipFrom fuel .value stack other := by
  rcases fuel with _ | fuel
  · rfl
  · unfold skipFrom
    rw [skipOpening_congr h]

theorem skipFrom_closing {bracket : Bracket} {first : Bool} {stack : List Bracket}
    (h : skipSpace src = .ok bracket.closing :: rest) :
    skipFrom (fuel + 1) (.inside first) (bracket :: stack) src = skipFrom fuel .after stack rest := by
  cases first <;> simp [Position.inside, skipFrom, h]

theorem skipFrom_cons {bracket : Bracket} {first : Bool} {stack : List Bracket} {body value tail : Source} {c : Char}
    (hsep : Separated first src body) (hbody : skipSpace body = .ok c :: tail) (hclosing : c ≠ bracket.closing)
    (hleads : bracket.Leads body value) :
    skipFrom (fuel + 1) (.inside first) (bracket :: stack) src = skipFrom fuel .value (bracket :: stack) value := by
  cases first with
  | true =>
    obtain rfl : body = src := hsep
    simp only [Position.inside, if_true, skipFrom, hbody, if_neg hclosing]
    cases bracket with
    | array =>
      apply skipFrom_value_congr
      rw [← hbody, skipSpace_skipSpace]
      exact hleads.symm
    | object =>
      have hkey : skipKey (.ok c :: tail) = .ok value := by
        rw [← hbody, skipKey_skipSpace]
        exact hleads
      simp only [hkey, bind, Except.bind]
  | false =>
    have hcomma : skipSpace src = .ok ',' :: body := hsep
    have hnot : ',' ≠ bracket.closing := by cases bracket <;> decide
    simp only [Position.inside, Bool.false_eq_true, if_false, skipFrom, hcomma, if_neg hnot, if_true]
    cases bracket with
    | array => exact skipFrom_value_congr hleads.symm
    | object =>
      have hkey : skipKey body = .ok value := hleads
      simp only [hkey, bind, Except.bind]

/-- Passing over the part takes a number of steps, less than twice its length. -/
def Part.Passes (src rest : Source) : Part → Prop
  | .value _ => ∃ steps, steps + 1 + 2 * rest.length ≤ 2 * src.length ∧
    ∀ fuel stack, skipFrom (fuel + steps) .value stack src = skipFrom fuel .after stack rest
  | .items first _ => ∃ steps, steps + 2 * rest.length ≤ 2 * src.length ∧
    ∀ fuel stack, skipFrom (fuel + steps) (.inside first) (.array :: stack) src = skipFrom fuel .after stack rest
  | .members first _ => ∃ steps, steps + 2 * rest.length ≤ 2 * src.length ∧
    ∀ fuel stack, skipFrom (fuel + steps) (.inside first) (.object :: stack) src = skipFrom fuel .after stack rest

theorem length_of_separated {first : Bool} {body : Source} (h : Separated first src body) :
    body.length ≤ src.length := by
  cases first with
  | true => exact Nat.le_of_eq (congrArg List.length h)
  | false => exact Nat.le_of_lt (length_of_skipSpace h)

theorem length_of_pieces (h : Pieces ps src rest) : rest.length < src.length := by
  induction h with
  | closed rest => exact Nat.lt_succ_self _
  | plain _ _ ih => exact Nat.lt_succ_of_lt ih
  | short _ _ ih => exact Nat.lt_succ_of_lt (Nat.lt_succ_of_lt ih)
  | unit hdigits _ ih =>
    have hshorter := length_of_fourDigits hdigits
    simp only [List.length_cons]
    omega

theorem passes_of_opening {d : Draft} {s : Text.Symbol} {tail : Source} (h : skipOpening src = .ok (none, rest))
    (hskip : skipSpace src = s :: tail) (hlength : rest.length ≤ tail.length) : Part.Passes src rest (.value d) := by
  have hshorter := length_of_skipSpace hskip
  refine ⟨1, by omega, fun fuel stack => ?_⟩
  rw [skipFrom, h]
  rfl

/-- A container is passed over by one step and those of its contents. -/
theorem passes_of_bracket {d : Draft} {bracket : Bracket} {body : Source} {s : Text.Symbol} {steps : Nat}
    (hopen : skipOpening src = .ok (some bracket, body)) (hskip : skipSpace src = s :: body)
    (hlength : steps + 2 * rest.length ≤ 2 * body.length)
    (h : ∀ fuel stack,
      skipFrom (fuel + steps) (.inside true) (bracket :: stack) body = skipFrom fuel .after stack rest) :
    Part.Passes src rest (.value d) := by
  have hshorter := length_of_skipSpace hskip
  refine ⟨steps + 1, by omega, fun fuel stack => ?_⟩
  rw [← h fuel stack, ← Nat.add_assoc, skipFrom, hopen]
  rfl

theorem Spelled.passes {part : Part} (h : Spelled part src rest) : part.Passes src rest := by
  induction h with
  | null h => exact passes_of_opening (by simp [skipOpening, h, expectWord, Except.map]) h (by simp; omega)
  | yes h => exact passes_of_opening (by simp [skipOpening, h, expectWord, Except.map]) h (by simp; omega)
  | no h => exact passes_of_opening (by simp [skipOpening, h, expectWord, Except.map]) h (by simp; omega)
  | @number src rest l h =>
    obtain ⟨c, tail, hskip, hc⟩ := readLiteral_head h
    have hshorter := (readLiteral_eq h).2.2
    have hnumber : skipNumber (.ok c :: tail) = .ok rest := skipNumber_eq_ok_iff.mpr ⟨l, hskip ▸ h⟩
    rw [hskip, List.length_cons] at hshorter
    refine passes_of_opening ?_ hskip (by omega)
    simp only [skipOpening, hskip, if_neg (ne_of_numeric hc (d := '"') (by decide) (by decide)), if_pos hc, hnumber,
      Except.map]
  | @text src body rest ps hopen h =>
    have hshorter := length_of_pieces h
    refine passes_of_opening ?_ hopen (by omega)
    simp only [skipOpening, hopen, if_true, skipString_of_pieces h (Nat.lt_succ_self _), Except.map]
  | array hopen h ih =>
    obtain ⟨steps, hlength, hsteps⟩ := ih
    exact passes_of_bracket (by simp [skipOpening, hopen]) hopen hlength hsteps
  | object hopen h ih =>
    obtain ⟨steps, hlength, hsteps⟩ := ih
    exact passes_of_bracket (by simp [skipOpening, hopen]) hopen hlength hsteps
  | noItem h =>
    have hshorter := length_of_skipSpace h
    exact ⟨1, by omega, fun fuel stack => skipFrom_closing h⟩
  | @item first src body middle rest d ds hsep hd hds ihd ihds =>
    obtain ⟨steps, hlength, hsteps⟩ := ihd
    obtain ⟨more, hmore, hrest⟩ := ihds
    have hseparated := length_of_separated hsep
    obtain ⟨c, tail, hc, hclosing, -⟩ := hd.head
    refine ⟨more + steps + 1, by omega, fun fuel stack => ?_⟩
    calc skipFrom (fuel + (more + steps + 1)) (.inside first) (.array :: stack) src
      _ = skipFrom (fuel + more + steps + 1) (.inside first) (.array :: stack) src := by
        rw [← Nat.add_assoc, ← Nat.add_assoc]
      _ = skipFrom (fuel + more + steps) .value (.array :: stack) body := skipFrom_cons hsep hc hclosing rfl
      _ = skipFrom (fuel + more) .after (.array :: stack) middle := hsteps _ _
      _ = skipFrom fuel .after stack rest := hrest fuel stack
  | noMember h =>
    have hshorter := length_of_skipSpace h
    exact ⟨1, by omega, fun fuel stack => skipFrom_closing h⟩
  | @member first src body key colon value middle rest ps d ms hsep hkey hps hcolon hd hms ihd ihms =>
    obtain ⟨steps, hlength, hsteps⟩ := ihd
    obtain ⟨more, hmore, hrest⟩ := ihms
    have hseparated := length_of_separated hsep
    have hquote := length_of_skipSpace hkey
    have hpieces := length_of_pieces hps
    have hvalue := length_of_skipSpace hcolon
    have hleads : skipKey body = .ok value := skipKey_eq_ok_iff.mpr ⟨key, colon, ps, hkey, hps, hcolon⟩
    refine ⟨more + steps + 1, by omega, fun fuel stack => ?_⟩
    calc skipFrom (fuel + (more + steps + 1)) (.inside first) (.object :: stack) src
      _ = skipFrom (fuel + more + steps + 1) (.inside first) (.object :: stack) src := by
        rw [← Nat.add_assoc, ← Nat.add_assoc]
      _ = skipFrom (fuel + more + steps) .value (.object :: stack) value := skipFrom_cons hsep hkey (by decide) hleads
      _ = skipFrom (fuel + more) .after (.object :: stack) middle := hsteps _ _
      _ = skipFrom fuel .after stack rest := hrest fuel stack

theorem Spelled.length_lt {d : Draft} (h : Spelled (.value d) src rest) : rest.length < src.length := by
  obtain ⟨steps, hlength, -⟩ := h.passes
  omega

/-- What is spelled is passed over. -/
theorem skipValue_of_spelled {d : Draft} (h : Spelled (.value d) src rest) : skipValue src = .ok rest := by
  obtain ⟨steps, hlength, hsteps⟩ := h.passes
  obtain ⟨fuel, hfuel⟩ : ∃ fuel, 2 * src.length + 2 = fuel + 1 + steps := ⟨2 * src.length + 1 - steps, by omega⟩
  rw [skipValue, hfuel, hsteps]
  rfl

end

end WalletTopUp.Json
