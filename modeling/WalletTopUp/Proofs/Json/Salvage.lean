import WalletTopUp.Proofs.Json.Phase

/-!
# Reading on

What reading on after a failure comes to (`Salvages`). It takes the symbols of a value and gives the value that they
stand for, if there is one. Otherwise it may have lost its way: then it stands at a symbol that nothing goes on with,
or in a string, or no less deep in brackets than at the beginning, and deeper if there was a value to begin with
(`salvageTree_sound`). A value that stands for something is read as such (`salvageTree_of_spelled`).
-/

namespace WalletTopUp.Json

/-- What is left begins with what no reader goes on with: a digit, or a byte that is no character. -/
def Stuck : Source → Prop
  | [] => False
  | .ok c :: _ => c.isDigit = true
  | .error _ :: _ => True

/-- The reading ended where nothing goes on, or in a string, or in `k` more brackets than at its beginning. -/
def Astray (k : Int) (src left : Source) : Prop :=
  Stuck left ∨ ∀ n, ∃ q, Leads (.outside, n) src q left ∧ (q.1 = .quoted ∨ q.1 = .outside ∧ n + k ≤ q.2)

section
variable {k j : Int} {c : Char} {fuel : Nat} {src middle rest left : Source} {ps : List Piece}

theorem skipSpace_of_stuck (h : Stuck left) : skipSpace left = left := by
  match left, h with
  | .ok c :: rest, h => rw [skipSpace, if_neg (Bool.eq_false_iff.mp (isSpace_of_numeric (.inr h)))]
  | .error _ :: _, _ => rfl

theorem Stuck.ne (h : Stuck left) (hc : c.isDigit = false) : skipSpace left ≠ .ok c :: rest := by
  rw [skipSpace_of_stuck h]
  rintro rfl
  exact Bool.eq_false_iff.mp hc h

theorem Astray.mono (h : Astray k src left) (hle : j ≤ k) : Astray j src left := by
  refine h.imp_right fun h n => ?_
  obtain ⟨q, hq, hplace⟩ := h n
  refine ⟨q, hq, hplace.imp_right fun ⟨hphase, hdepth⟩ => ⟨hphase, ?_⟩⟩
  omega

theorem Astray.after (h : Astray k middle left) (hfront : ∀ n, Leads (.outside, n) src (.outside, n + j) middle) :
    Astray (j + k) src left := by
  refine h.imp_right fun h n => ?_
  obtain ⟨q, hq, hplace⟩ := h (n + j)
  refine ⟨q, (hfront n).trans hq, hplace.imp_right fun ⟨hphase, hdepth⟩ => ⟨hphase, ?_⟩⟩
  omega

/-- Outside strings, from one place to another in the same brackets. -/
def Level (src left : Source) : Prop := ∀ n, Leads (.outside, n) src (.outside, n) left

theorem Level.trans (h : Level src middle) (h' : Level middle left) : Level src left :=
  fun n => (h n).trans (h' n)

theorem Level.next (h : Level src middle) (hc : isMark c = true) (hskip : skipSpace middle = .ok c :: rest) :
    Level src rest :=
  fun n => (h n).trans (leads_next (outside_ne n) hskip (advance_mark (outside_ne n) hc))

theorem Level.astray (h : Level src left) : Astray 0 src left :=
  .inr fun n => ⟨_, h n, .inr ⟨rfl, by simp⟩⟩

theorem Astray.behind (h : Astray k middle left) (hfront : Level src middle) : Astray k src left := by
  have hshifted : ∀ n, Leads (.outside, n) src (.outside, n + 0) middle := by
    intro n
    rw [Int.add_zero]
    exact hfront n
  have hafter := h.after hshifted
  rwa [Int.zero_add] at hafter

theorem Spelled.level {d : Draft} (h : Spelled (.value d) src left) : Level src left := fun n => by
  have hvalue := h.leads n
  rwa [Part.closes, Int.sub_zero] at hvalue

theorem astray_of_quoted (h : ∀ n, Leads (.outside, n) src (.quoted, n) left) : Astray k src left :=
  .inr fun n => ⟨_, h n, .inl rfl⟩

theorem Astray.next (h : Astray (k + 1) src left) (hclose : c = ']' ∨ c = '\x7d' ∨ c = ',')
    (hskip : skipSpace left = .ok c :: rest) : Astray k src rest := by
  have hdigit : c.isDigit = false := by rcases hclose with rfl | rfl | rfl <;> rfl
  rcases h with hstuck | h
  · exact absurd hskip (hstuck.ne hdigit)
  refine .inr fun n => ?_
  obtain ⟨⟨phase, m⟩, hq, hplace⟩ := h n
  rcases hplace with rfl | ⟨rfl, hdepth⟩
  · refine ⟨(.quoted, m), hq.trans (leads_next (quoted_ne _) hskip (advance_quoted ?_ ?_)), .inl rfl⟩
    · rcases hclose with rfl | rfl | rfl <;> decide
    · rcases hclose with rfl | rfl | rfl <;> decide
  · simp only at hdepth
    rcases hclose with rfl | rfl | rfl
    · exact ⟨(.outside, m - 1), hq.trans (leads_next (outside_ne m) hskip rfl), .inr ⟨rfl, by simp only; omega⟩⟩
    · exact ⟨(.outside, m - 1), hq.trans (leads_next (outside_ne m) hskip rfl), .inr ⟨rfl, by simp only; omega⟩⟩
    · exact ⟨(.outside, m), hq.trans (leads_next (outside_ne m) hskip rfl), .inr ⟨rfl, by simp only; omega⟩⟩

theorem leaveArray_cases (left : Source) :
    skipSpace left = .ok ']' :: leaveArray left ∨ skipSpace left = .ok ',' :: leaveArray left ∨
      leaveArray left = left := by
  unfold leaveArray
  split
  · next h => exact .inl h
  · next h => exact .inr (.inl h)
  · exact .inr (.inr rfl)

theorem leaveObject_cases (left : Source) :
    skipSpace left = .ok '\x7d' :: leaveObject left ∨ leaveObject left = left := by
  unfold leaveObject
  split
  · next h => exact .inl h
  · exact .inr rfl

theorem Astray.leaveArray (h : Astray (k + 1) src left) : Astray k src (leaveArray left) := by
  rcases leaveArray_cases left with hskip | hskip | hsame
  · exact h.next (.inl rfl) hskip
  · exact h.next (.inr (.inr rfl)) hskip
  · rw [hsame]
    exact h.mono (by omega)

theorem Astray.leaveObject (h : Astray (k + 1) src left) : Astray k src (leaveObject left) := by
  rcases leaveObject_cases left with hskip | hsame
  · exact h.next (.inr (.inl rfl)) hskip
  · rw [hsame]
    exact h.mono (by omega)

/-! ## Strings -/

theorem dropByte_cons (s : Text.Symbol) (src : Source) : dropByte (s :: src) = src ∨ Stuck (dropByte (s :: src)) := by
  rcases s with b | c
  · exact .inl rfl
  · rcases hbytes : (Text.bytes (String.singleton c)).drop 1 with _ | ⟨b, bytes⟩
    · exact .inl (by simp [dropByte, hbytes])
    · exact .inr (by simp [dropByte, hbytes, Stuck])

/-- The reading of a string was given up inside it, or where nothing goes on. -/
def Abandoned (src left : Source) : Prop := Stuck left ∨ ∀ n, Leads (.quoted, n) src (.quoted, n) left

theorem Abandoned.after (hfront : ∀ n, Leads (.quoted, n) src (.quoted, n) middle) (h : Abandoned middle left) :
    Abandoned src left :=
  h.imp_right fun h n => (hfront n).trans (h n)

theorem leads_escape {d : Char} (h : escape src = .ok (d, rest)) (n : Int) :
    Leads (.quoted, n) (.ok '\\' :: src) (.quoted, n) rest := by
  rcases escape_cases h with ⟨c, rfl, -⟩ | ⟨k, tail, rfl, hk, -⟩ | ⟨k, m, tail, low, rfl, hk, -, hm, -⟩
  · exact .step rfl (.step rfl (.here _ _))
  · exact .step rfl (.step rfl (leads_fourDigits hk))
  · exact .step rfl (.step rfl ((leads_fourDigits hk).trans (.step rfl (.step rfl (leads_fourDigits hm)))))

/-- The end of a reading that gave up: inside the string, or with the closing quote behind. -/
def Dropped (src left : Source) : Prop :=
  Abandoned src left ∨ ∃ ps, Pieces ps src left ∧ charsOf? ps = none

theorem salvagePair_cases {high : Nat} {c? : Option Char} (hhigh : isHighSurrogate high = true)
    (hunit : fourDigits src = .ok (high, middle)) (h : salvagePair high middle = .ok (c?, left)) :
    (∃ d, c? = some d ∧ escape (.ok 'u' :: src) = .ok (d, left)) ∨
      c? = none ∧ Dropped (.ok '\\' :: .ok 'u' :: src) left := by
  have hfront : ∀ n, Leads (.quoted, n) (.ok '\\' :: .ok 'u' :: src) (.quoted, n) middle :=
    fun n => .step rfl (.step rfl (leads_fourDigits hunit))
  unfold salvagePair at h
  split at h
  · cases h
  · cases h
  · next low =>
    rcases hm : fourDigits low with failure | ⟨m, tail⟩ <;> simp only [hm, bind, Except.bind] at h
    · cases h
    obtain ⟨rfl, rfl⟩ := Prod.mk.inj (Except.ok.inj h)
    split_ifs with hlow
    · exact .inl ⟨_, rfl, escape_pair hhigh hlow hunit hm⟩
    · exact .inr ⟨rfl, .inl (.inr fun n => (hfront n).trans (.step rfl (.step rfl (leads_fourDigits hm))))⟩
  · next tail hne hu =>
    obtain ⟨rfl, rfl⟩ := Prod.mk.inj (Except.ok.inj h)
    refine .inr ⟨rfl, .inl ?_⟩
    rcases tail with _ | ⟨s, tail⟩
    · exact absurd rfl hne
    rcases dropByte_cons s tail with hdrop | hstuck
    · rw [hdrop]
      exact .inr fun n => (hfront n).trans (.step rfl (.step rfl (.here _ _)))
    · exact .inl hstuck
  · next hnil hbackslash _ hother =>
    obtain ⟨rfl, rfl⟩ := Prod.mk.inj (Except.ok.inj h)
    refine .inr ⟨rfl, ?_⟩
    rcases middle with _ | ⟨s, tail⟩
    · exact absurd rfl hnil
    rcases dropByte_cons s tail with hdrop | hstuck
    · rw [hdrop]
      by_cases hquote : s = .ok '"'
      · subst hquote
        exact .inr ⟨[.unit high], .unit hunit (.closed tail), charsOf?_lone hhigh nofun⟩
      · refine .inl (.inr fun n => (hfront n).trans (.step ?_ (.here _ _)))
        rcases s with b | c
        · rfl
        · refine advance_quoted (fun hc => hquote (congrArg _ hc)) ?_
          rintro rfl
          exact hother tail rfl
    · exact .inl (.inl hstuck)

theorem salvageEscape_cases {c? : Option Char} (h : salvageEscape src = .ok (c?, left)) :
    (∃ d, c? = some d ∧ escape src = .ok (d, left)) ∨ c? = none ∧ Dropped (.ok '\\' :: src) left := by
  rcases src with _ | ⟨b | c, tail⟩
  · cases h
  · cases h
  simp only [salvageEscape] at h
  split_ifs at h with hu
  · subst hu
    rcases hk : fourDigits tail with failure | ⟨k, middle⟩ <;> simp only [hk, bind, Except.bind] at h
    · cases h
    split_ifs at h with hlow hhigh
    · obtain ⟨rfl, rfl⟩ := Prod.mk.inj (Except.ok.inj h)
      exact .inr ⟨rfl, .inl (.inr fun n => .step rfl (.step rfl (leads_fourDigits hk)))⟩
    · exact salvagePair_cases hhigh hk h
    · obtain ⟨rfl, rfl⟩ := Prod.mk.inj (Except.ok.inj h)
      exact .inl ⟨_, rfl, escape_unit (Bool.eq_false_iff.mpr hlow) (Bool.eq_false_iff.mpr hhigh) hk⟩
  · rcases hshort : shortEscape? c with _ | d <;> simp only [hshort] at h
    · cases h
    obtain ⟨rfl, rfl⟩ := Prod.mk.inj (Except.ok.inj h)
    exact .inl ⟨d, rfl, escape_short hshort tail⟩

theorem salvageString_cases {cs? : Option (List Char)} (h : salvageString fuel src = .ok (cs?, left)) :
    (∃ ps, Pieces ps src left ∧ cs? = charsOf? ps) ∨ cs? = none ∧ Abandoned src left := by
  induction fuel generalizing src cs? with
  | zero => cases h
  | succ fuel ih =>
    rcases src with _ | ⟨b | c, src⟩
    · cases h
    · obtain ⟨⟨ds?, left'⟩, hrest, hpair⟩ := exists_of_map_ok h
      cases hpair
      rcases ih hrest with ⟨ps, hps, -⟩ | ⟨-, habandoned⟩
      · exact .inl ⟨.plain (.error b) :: ps, .plain trivial hps, rfl⟩
      · exact .inr ⟨rfl, habandoned.after fun n => .step rfl (.here _ _)⟩
    · unfold salvageString at h
      split_ifs at h with hquote hbackslash hcontrol
      · subst hquote
        cases h
        exact .inl ⟨[], .closed _, rfl⟩
      · subst hbackslash
        obtain ⟨⟨c?, after⟩, hescape, h⟩ := exists_of_bind_ok h
        rcases salvageEscape_cases hescape with ⟨d, rfl, hread⟩ | ⟨rfl, hdropped⟩
        · obtain ⟨⟨ds?, left'⟩, hrest, hpair⟩ := exists_of_map_ok h
          cases hpair
          rcases ih hrest with ⟨ps, hps, rfl⟩ | ⟨rfl, habandoned⟩
          · obtain ⟨more, hmore, hchars⟩ := pieces_of_escape hread hps
            exact .inl ⟨more, hmore, hchars.symm⟩
          · exact .inr ⟨rfl, habandoned.after (leads_escape hread)⟩
        · cases h
          rcases hdropped with habandoned | ⟨ps, hps, hchars⟩
          · exact .inr ⟨rfl, habandoned⟩
          · exact .inl ⟨ps, hps, hchars.symm⟩
      · obtain ⟨⟨ds?, left'⟩, hrest, hpair⟩ := exists_of_map_ok h
        cases hpair
        rcases ih hrest with ⟨ps, hps, rfl⟩ | ⟨rfl, habandoned⟩
        · exact .inl ⟨.plain (.ok c) :: ps, .plain ⟨hquote, hbackslash, hcontrol⟩ hps, (charsOf?_plain c ps).symm⟩
        · exact .inr ⟨rfl, habandoned.after fun n => .step (advance_quoted hquote hbackslash) (.here _ _)⟩

theorem salvageEscape_of_escape {d : Char} (h : escape src = .ok (d, rest)) :
    salvageEscape src = .ok (some d, rest) := by
  rcases escape_cases h with ⟨c, rfl, hshort⟩ | ⟨k, tail, rfl, hk, hlow, hhigh, rfl⟩ |
    ⟨k, m, tail, low, rfl, hk, hhigh, hm, hlow, hpair⟩
  · have hu : c ≠ 'u' := by
      rintro rfl
      cases hshort
    simp only [salvageEscape, if_neg hu, hshort]
  · simp only [salvageEscape, if_true, hk, bind, Except.bind, hlow, hhigh, Bool.false_eq_true, if_false]
    rfl
  · rw [hpair]
    simp only [salvageEscape, if_true, hk, bind, Except.bind, not_isLowSurrogate_of_high hhigh, hhigh,
      Bool.false_eq_true, if_false, salvagePair, hm, hlow]
    rfl

theorem salvageString_of_pieces {cs : List Char} (h : Pieces ps src rest) (hcs : charsOf? ps = some cs)
    (hfuel : src.length < fuel) : salvageString fuel src = .ok (some cs, rest) := by
  have hbody := stringBody_of_pieces h hcs
  clear h hcs
  induction src using stringBody.induct generalizing cs fuel with
  | case1 =>
    rw [stringBody] at hbody
    cases hbody
  | case2 b src =>
    rw [stringBody] at hbody
    cases hbody
  | case3 src =>
    obtain ⟨fuel, rfl⟩ := Nat.exists_eq_add_one.mpr (Nat.zero_lt_of_lt hfuel)
    rw [stringBody_quote] at hbody
    cases hbody
    rfl
  | case4 src failure hescape =>
    rw [stringBody, if_neg (by decide), if_pos rfl] at hbody
    split at hbody
    · cases hbody
    · next hok =>
      rw [hescape] at hok
      cases hok
  | case5 src d after hescape hlength ih =>
    obtain ⟨fuel, rfl⟩ := Nat.exists_eq_add_one.mpr (Nat.zero_lt_of_lt hfuel)
    rw [stringBody_of_escape hescape] at hbody
    obtain ⟨⟨ds, left⟩, hbody, hcons⟩ := exists_of_map_ok hbody
    cases hcons
    have hshorter : after.length < fuel := by
      have hescaped := length_of_escape hescape
      rw [List.length_cons] at hfuel
      omega
    rw [salvageString, if_neg (by decide), if_pos rfl, salvageEscape_of_escape hescape]
    simp only [bind, Except.bind, ih hshorter hbody, Except.map, Option.map_some]
  | case6 c src hquote hbackslash hcontrol =>
    rw [stringBody, if_neg hquote, if_neg hbackslash, if_pos hcontrol] at hbody
    cases hbody
  | case7 c src hquote hbackslash hcontrol ih =>
    obtain ⟨fuel, rfl⟩ := Nat.exists_eq_add_one.mpr (Nat.zero_lt_of_lt hfuel)
    rw [stringBody_plain hquote hbackslash hcontrol] at hbody
    obtain ⟨⟨ds, left⟩, hbody, hcons⟩ := exists_of_map_ok hbody
    cases hcons
    rw [List.length_cons] at hfuel
    rw [salvageString, if_neg hquote, if_neg hbackslash, if_neg hcontrol, ih (by omega) hbody]
    simp only [Except.map, Option.map_some]

/-! ## Numbers and other scalars -/

theorem salvageNumber_cases {v? : Option Number} (h : salvageNumber src = .ok (v?, left)) :
    ∃ l, (readLiteral src = .ok (l, left) ∧ v? = l.value?) ∨ v? = none ∧ Stuck left := by
  obtain ⟨⟨l, rest⟩, hliteral, h⟩ := exists_of_bind_ok h
  refine ⟨l, ?_⟩
  rcases hvalue : l.value? with _ | v <;> simp only [hvalue] at h
  · cases h
    rcases hunread : l.unread with _ | ⟨c, cs⟩
    · exact .inl ⟨hliteral, rfl⟩
    · have hdigits := (readLiteral_eq hliteral).2.1
      rw [hunread] at hdigits
      exact .inr ⟨rfl, hdigits c List.mem_cons_self⟩
  · cases h
    exact .inl ⟨hliteral, rfl⟩

theorem salvageScalar_cases {v? : Option Json} (h : salvageScalar src = .ok (v?, left)) :
    (∃ d, Spelled (.value d) src left ∧ v? = d.value?) ∨ v? = none ∧ ∀ k, Astray k src left := by
  unfold salvageScalar at h
  rcases hskip : skipSpace src with _ | ⟨b | c, tail⟩ <;> simp only [hskip] at h
  · cases h
  · cases h
  split_ifs at h with hquote hnumber hn ht hf
  · subst hquote
    obtain ⟨⟨cs?, left'⟩, hstring, hpair⟩ := exists_of_map_ok h
    cases hpair
    rcases salvageString_cases hstring with ⟨ps, hps, rfl⟩ | ⟨rfl, habandoned⟩
    · refine .inl ⟨.text ps, .text hskip hps, ?_⟩
      simp only [Draft.value?, textOf?, Option.map_map]
      rfl
    · refine .inr ⟨rfl, fun k => ?_⟩
      rcases habandoned with hstuck | hquoted
      · exact .inl hstuck
      · exact astray_of_quoted fun n => (leads_next (outside_ne n) hskip rfl).trans (hquoted n)
  · obtain ⟨⟨v?, left'⟩, hread, hpair⟩ := exists_of_map_ok h
    cases hpair
    rcases salvageNumber_cases hread with ⟨l, (⟨hliteral, rfl⟩ | ⟨rfl, hstuck⟩)⟩
    · exact .inl ⟨.number l, .number (hskip ▸ hliteral), rfl⟩
    · exact .inr ⟨rfl, fun k => .inl hstuck⟩
  · subst hn
    obtain ⟨left', hword, hpair⟩ := exists_of_map_ok h
    cases hpair
    exact .inl ⟨.null, .null (by rw [hskip, expectWord_eq_ok_iff.mp hword]; rfl), rfl⟩
  · subst ht
    obtain ⟨left', hword, hpair⟩ := exists_of_map_ok h
    cases hpair
    exact .inl ⟨.flag true, .yes (by rw [hskip, expectWord_eq_ok_iff.mp hword]; rfl), rfl⟩
  · subst hf
    obtain ⟨left', hword, hpair⟩ := exists_of_map_ok h
    cases hpair
    exact .inl ⟨.flag false, .no (by rw [hskip, expectWord_eq_ok_iff.mp hword]; rfl), rfl⟩

/-! ## Arrays and objects -/

/-- A part of some kind is taken as it is spelled, with the value that it stands for, or it is given up: then the
brackets are at least `k` more than at its beginning, and one more if there was such a part to begin with. -/
def Salvages {δ α : Type} (k : Int) (part : δ → Part) (value : δ → Option α) (src : Source) (v? : Option α)
    (left : Source) : Prop :=
  (∃ d, Spelled (part d) src left ∧ v? = value d) ∨
    v? = none ∧ Astray k src left ∧ ((∃ d rest, Spelled (part d) src rest) → Astray (k + 1) src left)

/-- A reader of values that reads on after a failure. -/
def SalvagesValues (item : Source → Except Failure (Salvaged Json)) : Prop :=
  ∀ {src v? left}, item src = .ok (v?, left) → Salvages 0 .value Draft.value? src v? left

/-- How an item and those behind it are read. -/
inductive ItemSalvaged (item : Source → Except Failure (Salvaged Json)) (fuel : Nat) (src : Source) :
    Option (List Json) → Source → Prop
  | givenUp {middle : Source} (h : item src = .ok (none, middle)) : ItemSalvaged item fuel src none (leaveArray middle)
  | read {middle left : Source} {a : Json} {as? : Option (List Json)} (h : item src = .ok (some a, middle))
      (hmore : salvageItems item fuel false middle = .ok (as?, left)) :
      ItemSalvaged item fuel src (as?.map (a :: ·)) left

/-- How a member and those behind it are read, from behind the opening quote of its key. -/
inductive MemberSalvaged (item : Source → Except Failure (Salvaged Json)) (fuel : Nat) (key : Source) :
    Option (List (String × Json)) → Source → Prop
  | noKey {colon : Source} (hkey : salvageString (key.length + 2) key = .ok (none, colon)) :
      MemberSalvaged item fuel key none (leaveObject colon)
  | givenUp {colon value middle : Source} {cs : List Char}
      (hkey : salvageString (key.length + 2) key = .ok (some cs, colon)) (hcolon : skipSpace colon = .ok ':' :: value)
      (h : item value = .ok (none, middle)) : MemberSalvaged item fuel key none (leaveObject middle)
  | read {colon value middle left : Source} {cs : List Char} {a : Json} {more? : Option (List (String × Json))}
      (hkey : salvageString (key.length + 2) key = .ok (some cs, colon)) (hcolon : skipSpace colon = .ok ':' :: value)
      (h : item value = .ok (some a, middle)) (hmore : salvageMembers item fuel false middle = .ok (more?, left)) :
      MemberSalvaged item fuel key (more?.map ((String.ofList cs, a) :: ·)) left

section
variable {item : Source → Except Failure (Salvaged Json)} {first : Bool}

theorem itemSalvaged_of_bind {vs? : Option (List Json)}
    (h : ((item src).bind fun
      | (none, rest) => .ok (none, leaveArray rest)
      | (some a, rest) => (salvageItems item fuel false rest).map fun (as, left) => (as.map (a :: ·), left)) =
        .ok (vs?, left)) : ItemSalvaged item fuel src vs? left := by
  obtain ⟨⟨_ | a, middle⟩, hread, h⟩ := exists_of_bind_ok h
  · cases h
    exact .givenUp hread
  · obtain ⟨⟨as?, left'⟩, hmore, hpair⟩ := exists_of_map_ok h
    cases hpair
    exact .read hread hmore

theorem salvageItems_cases {vs? : Option (List Json)} (h : salvageItems item (fuel + 1) first src = .ok (vs?, left)) :
    (skipSpace src = .ok ']' :: left ∧ vs? = some []) ∨
      ∃ body start, Separated first src body ∧ (∀ tail, skipSpace src ≠ .ok ']' :: tail) ∧
        (start = body ∨ start = skipSpace body) ∧ ItemSalvaged item fuel start vs? left := by
  unfold salvageItems at h
  split at h
  · cases h
  · next tail _ hskip =>
    cases h
    exact .inl ⟨hskip, rfl⟩
  · next hskip =>
    refine .inr ⟨_, _, hskip, ?_, .inl rfl, itemSalvaged_of_bind h⟩
    simp [hskip]
  · cases h
  · next hclosing =>
    exact .inr ⟨src, _, rfl, fun tail hskip => hclosing tail hskip, .inr rfl, itemSalvaged_of_bind h⟩

theorem memberSalvaged_of_bind {ms? : Option (List (String × Json))}
    (h : ((expectWord ['"'] src).bind fun key => (salvageString (src.length + 1) key).bind fun
      | (none, rest) => .ok (none, leaveObject rest)
      | (some cs, rest) => (expect ':' rest).bind fun value => (item value).bind fun
        | (none, rest) => .ok (none, leaveObject rest)
        | (some a, rest) => (salvageMembers item fuel false rest).map fun (members, left) =>
          (members.map ((String.ofList cs, a) :: ·), left)) = .ok (ms?, left)) :
    ∃ key, src = .ok '"' :: key ∧ MemberSalvaged item fuel key ms? left := by
  obtain ⟨key, hquote, h⟩ := exists_of_bind_ok h
  obtain rfl := expectWord_eq_ok_iff.mp hquote
  obtain ⟨⟨_ | cs, colon⟩, hkey, h⟩ := exists_of_bind_ok h
  · cases h
    exact ⟨key, rfl, .noKey hkey⟩
  obtain ⟨value, hcolon, h⟩ := exists_of_bind_ok h
  have hcolon := expect_eq_ok_iff.mp hcolon
  obtain ⟨⟨_ | a, middle⟩, hread, h⟩ := exists_of_bind_ok h
  · cases h
    exact ⟨key, rfl, .givenUp hkey hcolon hread⟩
  · obtain ⟨⟨more?, left'⟩, hmore, hpair⟩ := exists_of_map_ok h
    cases hpair
    exact ⟨key, rfl, .read hkey hcolon hread hmore⟩

theorem salvageMembers_cases {ms? : Option (List (String × Json))}
    (h : salvageMembers item (fuel + 1) first src = .ok (ms?, left)) :
    (skipSpace src = .ok '\x7d' :: left ∧ ms? = some []) ∨
      ∃ body key, Separated first src body ∧ skipSpace body = .ok '"' :: key ∧
        MemberSalvaged item fuel key ms? left := by
  unfold salvageMembers at h
  split at h
  · cases h
  · next tail _ hskip =>
    cases h
    exact .inl ⟨hskip, rfl⟩
  · next hskip =>
    obtain ⟨key, hkey, hmember⟩ := memberSalvaged_of_bind h
    exact .inr ⟨_, key, hskip, hkey, hmember⟩
  · cases h
  · obtain ⟨key, hkey, hmember⟩ := memberSalvaged_of_bind h
    exact .inr ⟨src, key, rfl, hkey, hmember⟩

/-! ### Values in brackets -/

theorem Spelled.items_of_separated {body rest : Source} {ds : List Draft} (h : Spelled (.items first ds) src rest)
    (hsep : Separated first src body) (hclosing : ∀ tail, skipSpace src ≠ .ok ']' :: tail) :
    ∃ d ds' middle, ds = d :: ds' ∧ Spelled (.value d) body middle ∧ Spelled (.items false ds') middle rest := by
  cases h with
  | noItem h => exact absurd h (hclosing _)
  | item hsep' hd hds =>
    obtain rfl := hsep.unique hsep'
    exact ⟨_, _, _, rfl, hd, hds⟩

theorem Spelled.members_of_separated {body key rest : Source} {ms : Draft.Members}
    (h : Spelled (.members first ms) src rest) (hsep : Separated first src body)
    (hkey : skipSpace body = .ok '"' :: key) :
    ∃ ps colon value d ms' middle, ms = (ps, d) :: ms' ∧ Pieces ps key colon ∧ skipSpace colon = .ok ':' :: value ∧
      Spelled (.value d) value middle ∧ Spelled (.members false ms') middle rest := by
  cases h with
  | noMember h => exact absurd h (hsep.not_closing hkey)
  | member hsep' hkey' hps hcolon hd hms =>
    obtain rfl := hsep.unique hsep'
    rw [hkey] at hkey'
    cases hkey'
    exact ⟨_, _, _, _, _, _, rfl, hps, hcolon, hd, hms⟩

theorem Salvages.of_skipSpace {v? : Option Json} (h : Salvages 0 .value Draft.value? (skipSpace src) v? left) :
    Salvages 0 .value Draft.value? src v? left := by
  have hfront : Level src (skipSpace src) := fun n => leads_skipSpace (outside_ne n) src
  rcases h with ⟨d, hd, rfl⟩ | ⟨rfl, hastray, hdeep⟩
  · exact .inl ⟨d, hd.congr (skipSpace_skipSpace src), rfl⟩
  · refine .inr ⟨rfl, hastray.behind hfront, fun ⟨d, rest, hd⟩ => ?_⟩
    exact (hdeep ⟨d, rest, hd.congr (skipSpace_skipSpace src).symm⟩).behind hfront

theorem salvageItems_sound (hitem : SalvagesValues item) {vs? : Option (List Json)}
    (h : salvageItems item fuel first src = .ok (vs?, left)) :
    Salvages (-1) (.items first) itemValues? src vs? left := by
  induction fuel generalizing first src vs? left with
  | zero => cases h
  | succ fuel ih =>
    rcases salvageItems_cases h with ⟨hclosing, rfl⟩ | ⟨body, start, hsep, hclosing, hstart, hread⟩
    · exact .inl ⟨[], .noItem hclosing, rfl⟩
    have hbody : Level src body := fun n => leads_separated (outside_ne n) hsep
    have hsalvages : ∀ {v? middle}, item start = .ok (v?, middle) → Salvages 0 .value Draft.value? body v? middle := by
      intro v? middle h
      rcases hstart with rfl | rfl
      · exact hitem h
      · exact (hitem h).of_skipSpace
    cases hread with
    | @givenUp middle hgiven =>
      rcases hsalvages hgiven with ⟨d, hd, hnone⟩ | ⟨-, hastray, hdeep⟩
      · have hmiddle : Level src middle := hbody.trans hd.level
        rcases leaveArray_cases middle with hskip | hskip | hsame
        · exact .inl ⟨[d], .item hsep hd (.noItem hskip), by rw [itemValues?, ← hnone]⟩
        · have hnext := (hmiddle.next (by decide) hskip).astray
          exact .inr ⟨rfl, hnext.mono (by decide), fun _ => hnext⟩
        · rw [hsame]
          exact .inr ⟨rfl, hmiddle.astray.mono (by decide), fun _ => hmiddle.astray⟩
      · refine .inr ⟨rfl, Astray.leaveArray (hastray.behind hbody), fun ⟨ds, rest, hds⟩ => ?_⟩
        obtain ⟨d, ds', last, rfl, hd, -⟩ := hds.items_of_separated hsep hclosing
        exact Astray.leaveArray ((hdeep ⟨d, last, hd⟩).behind hbody)
    | @read middle left a as? hread hmore =>
      rcases hsalvages hread with ⟨d, hd, hsome⟩ | ⟨hnone, -⟩
      · have hmiddle : Level src middle := hbody.trans hd.level
        rcases ih hmore with ⟨ds, hds, rfl⟩ | ⟨rfl, hastray, hdeep⟩
        · exact .inl ⟨d :: ds, .item hsep hd hds, by rw [itemValues?, ← hsome]⟩
        · refine .inr ⟨rfl, hastray.behind hmiddle, fun ⟨ds, rest, hds⟩ => ?_⟩
          obtain ⟨d', ds', last, rfl, hd', hds'⟩ := hds.items_of_separated hsep hclosing
          obtain ⟨-, rfl⟩ := hd.unique hd' trivial
          exact (hdeep ⟨ds', rest, hds'⟩).behind hmiddle
      · cases hnone

theorem salvageMembers_sound (hitem : SalvagesValues item) {ms? : Option (List (String × Json))}
    (h : salvageMembers item fuel first src = .ok (ms?, left)) :
    Salvages (-1) (.members first) memberValues? src ms? left := by
  induction fuel generalizing first src ms? left with
  | zero => cases h
  | succ fuel ih =>
    rcases salvageMembers_cases h with ⟨hclosing, rfl⟩ | ⟨body, key, hsep, hkey, hread⟩
    · exact .inl ⟨[], .noMember hclosing, rfl⟩
    have hquote : ∀ n, Leads (.outside, n) src (.quoted, n) key :=
      fun n => (leads_separated (outside_ne n) hsep).trans (leads_next (outside_ne n) hkey rfl)
    cases hread with
    | @noKey colon hnoKey =>
      rcases salvageString_cases hnoKey with ⟨ps, hps, -⟩ | ⟨-, habandoned⟩
      · have hcolon : Level src colon := fun n => (hquote n).trans (hps.leads n)
        refine .inr ⟨rfl, Astray.leaveObject hcolon.astray, fun ⟨ms, rest, hms⟩ => ?_⟩
        obtain ⟨ps', colon', value, d, ms', last, rfl, hps', hvalue, -⟩ := hms.members_of_separated hsep hkey
        obtain ⟨-, rfl⟩ := hps.unique hps'
        -- a key is followed by a colon, so nothing is passed behind it
        rcases leaveObject_cases colon with hskip | hsame
        · rw [hvalue] at hskip
          cases hskip
        · rw [hsame]
          exact hcolon.astray
      · have hastray : ∀ k, Astray k src colon := by
          intro k
          rcases habandoned with hstuck | hquoted
          · exact .inl hstuck
          · exact astray_of_quoted fun n => (hquote n).trans (hquoted n)
        exact .inr ⟨rfl, (hastray _).leaveObject, fun _ => (hastray _).leaveObject⟩
    | @givenUp colon value middle cs hstring hcolon hgiven =>
      rcases salvageString_cases hstring with ⟨ps, hps, hcs⟩ | ⟨hnone, -⟩
      · have hvalue : Level src value := Level.next (fun n => (hquote n).trans (hps.leads n)) (by decide) hcolon
        rcases hitem hgiven with ⟨d, hd, hnone⟩ | ⟨-, hastray, hdeep⟩
        · rcases leaveObject_cases middle with hskip | hsame
          · refine .inl ⟨[(ps, d)], .member hsep hkey hps hcolon hd (.noMember hskip), ?_⟩
            simp [memberValues?, ← hnone]
          · rw [hsame]
            have hmiddle := (hvalue.trans hd.level).astray
            exact .inr ⟨rfl, hmiddle.mono (by decide), fun _ => hmiddle⟩
        · refine .inr ⟨rfl, Astray.leaveObject (hastray.behind hvalue), fun ⟨ms, rest, hms⟩ => ?_⟩
          obtain ⟨ps', colon', value', d, ms', last, rfl, hps', hcolon', hd, -⟩ := hms.members_of_separated hsep hkey
          obtain ⟨-, rfl⟩ := hps.unique hps'
          rw [hcolon] at hcolon'
          cases hcolon'
          exact Astray.leaveObject ((hdeep ⟨d, last, hd⟩).behind hvalue)
      · cases hnone
    | @read colon value middle left cs a more? hstring hcolon hread hmore =>
      rcases salvageString_cases hstring with ⟨ps, hps, hcs⟩ | ⟨hnone, -⟩
      · have hvalue : Level src value := Level.next (fun n => (hquote n).trans (hps.leads n)) (by decide) hcolon
        rcases hitem hread with ⟨d, hd, hsome⟩ | ⟨hnone, -⟩
        · have hmiddle : Level src middle := hvalue.trans hd.level
          rcases ih hmore with ⟨ms, hms, rfl⟩ | ⟨rfl, hastray, hdeep⟩
          · refine .inl ⟨(ps, d) :: ms, .member hsep hkey hps hcolon hd hms, ?_⟩
            simp [memberValues?, textOf?, ← hcs, ← hsome]
          · refine .inr ⟨rfl, hastray.behind hmiddle, fun ⟨ms, rest, hms⟩ => ?_⟩
            obtain ⟨ps', colon', value', d', ms', last, rfl, hps', hcolon', hd', hms'⟩ :=
              hms.members_of_separated hsep hkey
            obtain ⟨-, rfl⟩ := hps.unique hps'
            rw [hcolon] at hcolon'
            cases hcolon'
            obtain ⟨-, rfl⟩ := hd.unique hd' trivial
            exact (hdeep ⟨ms', rest, hms'⟩).behind hmiddle
        · cases hnone
      · cases hnone

theorem Spelled.of_bracket {body rest : Source} {d : Draft} (h : Spelled (.value d) src rest)
    (hopen : skipSpace src = .ok '[' :: body) : ∃ ds, d = .array ds ∧ Spelled (.items true ds) body rest := by
  cases h with
  | array hopen' h =>
    rw [hopen] at hopen'
    cases hopen'
    exact ⟨_, rfl, h⟩
  | number h => exact absurd (numeric_head h hopen) (by decide)
  | _ => simp_all

theorem Spelled.of_brace {body rest : Source} {d : Draft} (h : Spelled (.value d) src rest)
    (hopen : skipSpace src = .ok '\x7b' :: body) : ∃ ms, d = .object ms ∧ Spelled (.members true ms) body rest := by
  cases h with
  | object hopen' h =>
    rw [hopen] at hopen'
    cases hopen'
    exact ⟨_, rfl, h⟩
  | number h => exact absurd (numeric_head h hopen) (by decide)
  | _ => simp_all

end

theorem salvageScalar_skipSpace (src : Source) : salvageScalar (skipSpace src) = salvageScalar src := by
  unfold salvageScalar
  rw [skipSpace_skipSpace]

theorem salvageScalar_sound {v? : Option Json} (h : salvageScalar src = .ok (v?, left)) :
    Salvages 0 .value Draft.value? src v? left := by
  rcases salvageScalar_cases h with hspelled | ⟨rfl, hastray⟩
  · exact .inl hspelled
  · exact .inr ⟨rfl, hastray 0, fun _ => hastray _⟩

theorem Salvages.of_contents {δ α : Type} {part : δ → Part} {value : δ → Option α} (draft : δ → Draft)
    {result : α → Json} {vs? : Option α} {body : Source} (h : Salvages (-1) part value body vs? left)
    (hfront : ∀ n, Leads (.outside, n) src (.outside, n + 1) body)
    (hspelled : ∀ d, Spelled (part d) body left → Spelled (.value (draft d)) src left)
    (hcontents : ∀ d rest, Spelled (.value d) src rest → ∃ ds, Spelled (part ds) body rest)
    (hvalue : ∀ ds, (draft ds).value? = (value ds).map result) :
    Salvages 0 .value Draft.value? src (vs?.map result) left := by
  rcases h with ⟨ds, hds, rfl⟩ | ⟨rfl, hastray, hdeep⟩
  · exact .inl ⟨draft ds, hspelled ds hds, (hvalue ds).symm⟩
  · refine .inr ⟨rfl, hastray.after hfront, fun ⟨d, rest, hd⟩ => ?_⟩
    obtain ⟨ds, hds⟩ := hcontents d rest hd
    exact (hdeep ⟨ds, rest, hds⟩).after hfront

/-- A value is taken as it is spelled, or it is given up. -/
theorem salvageTree_sound (depth : Nat) : SalvagesValues (salvageTree depth) := by
  induction depth with
  | zero => exact salvageScalar_sound
  | succ depth ih =>
    intro src v? left h
    unfold salvageTree at h
    split at h
    · next body hopen =>
      obtain ⟨⟨vs?, left'⟩, hitems, hpair⟩ := exists_of_map_ok h
      cases hpair
      refine (salvageItems_sound ih hitems).of_contents .array (fun n => ?_) (fun ds => .array hopen)
        (fun d rest hd => ?_) fun ds => (by rw [Draft.value?])
      · exact leads_next (outside_ne n) hopen rfl
      · obtain ⟨ds, -, hds⟩ := hd.of_bracket hopen
        exact ⟨ds, hds⟩
    · next body hopen =>
      obtain ⟨⟨ms?, left'⟩, hmembers, hpair⟩ := exists_of_map_ok h
      cases hpair
      refine (salvageMembers_sound ih hmembers).of_contents .object (fun n => ?_) (fun ms => .object hopen)
        (fun d rest hd => ?_) fun ms => (by rw [Draft.value?])
      · exact leads_next (outside_ne n) hopen rfl
      · obtain ⟨ms, -, hms⟩ := hd.of_brace hopen
        exact ⟨ms, hms⟩
    · rw [salvageScalar_skipSpace] at h
      exact salvageScalar_sound h

/-! ### Values that stand for something -/

theorem salvageTree_skipSpace (depth : Nat) (src : Source) :
    salvageTree depth (skipSpace src) = salvageTree depth src := by
  cases depth with
  | zero => exact salvageScalar_skipSpace src
  | succ depth =>
    unfold salvageTree
    rw [skipSpace_skipSpace]

/-- Reading on takes the part and gives the value that it stands for, in brackets of a bounded depth. -/
def Part.Read (src rest : Source) : Part → Prop
  | .value d => ∀ {depth v}, d.value? = some v → d.depth ≤ depth → salvageTree depth src = .ok (some v, rest)
  | .items first ds => ∀ {depth fuel vs}, itemValues? ds = some vs → itemsDepth ds ≤ depth → src.length < fuel →
    salvageItems (salvageTree depth) fuel first src = .ok (some vs, rest)
  | .members first ms => ∀ {depth fuel vs}, memberValues? ms = some vs → membersDepth ms ≤ depth → src.length < fuel →
    salvageMembers (salvageTree depth) fuel first src = .ok (some vs, rest)

theorem salvageTree_of_scalar {v : Json} {depth : Nat} (h : salvageScalar src = .ok (some v, rest))
    (hskip : skipSpace src = .ok c :: middle) (hbracket : c ≠ '[') (hbrace : c ≠ '\x7b') :
    salvageTree depth src = .ok (some v, rest) := by
  cases depth with
  | zero => exact h
  | succ depth =>
    unfold salvageTree
    rw [hskip]
    split
    · next heq => exact absurd (Except.ok.inj (List.cons.inj heq).1) hbracket
    · next heq => exact absurd (Except.ok.inj (List.cons.inj heq).1) hbrace
    · rw [← hskip, salvageScalar_skipSpace]
      exact h

theorem salvageItems_closing {item : Source → Except Failure (Salvaged Json)} {first : Bool}
    (h : skipSpace src = .ok ']' :: rest) : salvageItems item (fuel + 1) first src = .ok (some [], rest) := by
  simp only [salvageItems, h]
  rfl

theorem salvageItems_cons {depth : Nat} {first : Bool} {body : Source} {a : Json} (hsep : Separated first src body)
    (hbody : skipSpace body = .ok c :: rest) (hc : c ≠ ']')
    (hitem : salvageTree depth body = .ok (some a, middle)) :
    salvageItems (salvageTree depth) (fuel + 1) first src =
      (salvageItems (salvageTree depth) fuel false middle).map fun (as, left) => (as.map (a :: ·), left) := by
  cases first with
  | true =>
    obtain rfl : body = src := hsep
    rw [salvageItems.eq_def]
    dsimp only
    split
    · next hskip =>
      rw [hbody] at hskip
      cases hskip
    · next hskip =>
      rw [hbody] at hskip
      cases hskip
      exact absurd rfl hc
    · next hfirst => cases hfirst
    · next hfirst _ _ _ => cases hfirst
    · simp only [salvageTree_skipSpace, hitem, bind, Except.bind]
  | false =>
    have hcomma : skipSpace src = .ok ',' :: body := hsep
    simp only [salvageItems, hcomma, hitem, bind, Except.bind]

theorem salvageMembers_closing {item : Source → Except Failure (Salvaged Json)} {first : Bool}
    (h : skipSpace src = .ok '\x7d' :: rest) : salvageMembers item (fuel + 1) first src = .ok (some [], rest) := by
  simp only [salvageMembers, h]
  rfl

theorem salvageMembers_cons {item : Source → Except Failure (Salvaged Json)} {first : Bool}
    {body key colon value : Source} {cs : List Char} {a : Json} (hsep : Separated first src body)
    (hkey : skipSpace body = .ok '"' :: key) (hstring : salvageString (key.length + 2) key = .ok (some cs, colon))
    (hcolon : skipSpace colon = .ok ':' :: value) (hitem : item value = .ok (some a, middle)) :
    salvageMembers item (fuel + 1) first src = (salvageMembers item fuel false middle).map fun (members, left) =>
      (members.map ((String.ofList cs, a) :: ·), left) := by
  have hexpect : expect ':' colon = .ok value := expect_eq_ok_iff.mpr hcolon
  have hword : expectWord ['"'] (.ok '"' :: key) = .ok key := expectWord_eq_ok_iff.mpr rfl
  cases first with
  | true =>
    obtain rfl : body = src := hsep
    rw [salvageMembers.eq_def]
    dsimp only
    split
    · next hskip =>
      rw [hkey] at hskip
      cases hskip
    · next hskip =>
      rw [hkey] at hskip
      cases hskip
    · next hfirst => cases hfirst
    · next hfirst _ _ _ => cases hfirst
    · simp only [hkey, hword, List.length_cons, hstring, hexpect, hitem, bind, Except.bind]
  | false =>
    have hcomma : skipSpace src = .ok ',' :: body := hsep
    simp only [salvageMembers, hcomma, hkey, hword, List.length_cons, hstring, hexpect, hitem, bind, Except.bind]

theorem Part.Read.array {ds : List Draft} (hopen : skipSpace src = .ok '[' :: body)
    (h : (Part.items true ds).Read body rest) : (Part.value (.array ds)).Read src rest := by
  intro depth v hv hdepth
  rw [Draft.value?] at hv
  obtain ⟨vs, hvs, rfl⟩ := Option.map_eq_some_iff.mp hv
  rw [Draft.depth] at hdepth
  obtain ⟨depth, rfl⟩ := Nat.exists_eq_add_one.mpr (Nat.lt_of_lt_of_le (Nat.zero_lt_succ _) hdepth)
  rw [salvageTree, hopen]
  simp only [h hvs (Nat.le_of_succ_le_succ hdepth) (Nat.lt_succ_self _), Except.map, Option.map_some]

theorem Part.Read.object {ms : Draft.Members} (hopen : skipSpace src = .ok '\x7b' :: body)
    (h : (Part.members true ms).Read body rest) : (Part.value (.object ms)).Read src rest := by
  intro depth v hv hdepth
  rw [Draft.value?] at hv
  obtain ⟨vs, hvs, rfl⟩ := Option.map_eq_some_iff.mp hv
  rw [Draft.depth] at hdepth
  obtain ⟨depth, rfl⟩ := Nat.exists_eq_add_one.mpr (Nat.lt_of_lt_of_le (Nat.zero_lt_succ _) hdepth)
  rw [salvageTree, hopen]
  simp only [h hvs (Nat.le_of_succ_le_succ hdepth) (Nat.lt_succ_self _), Except.map, Option.map_some]

/-- Every item takes symbols away, so there is fuel for the next one. -/
theorem Part.Read.item {first : Bool} {d : Draft} {ds : List Draft} (hsep : Separated first src body)
    (hspelled : Spelled (.value d) body middle) (hd : (Part.value d).Read body middle)
    (hds : (Part.items false ds).Read middle rest) : (Part.items first (d :: ds)).Read src rest := by
  intro depth fuel vs hvs hdepth hfuel
  obtain ⟨fuel, rfl⟩ := Nat.exists_eq_add_one.mpr (Nat.zero_lt_of_lt hfuel)
  obtain ⟨c, tail, hc, hclosing, -⟩ := hspelled.head
  rw [itemsDepth, Nat.max_le] at hdepth
  rw [itemValues?] at hvs
  rcases hvalue : d.value? with _ | a <;> simp only [hvalue] at hvs
  · cases hvs
  obtain ⟨as, has, rfl⟩ := Option.map_eq_some_iff.mp hvs
  have hshorter : middle.length < fuel := by
    have hseparated := length_of_separated hsep
    have hpassed := hspelled.length_lt
    omega
  rw [salvageItems_cons hsep hc hclosing (hd hvalue hdepth.1), hds has hdepth.2 hshorter]
  rfl

theorem Part.Read.member {first : Bool} {key colon value : Source} {ps : List Piece} {d : Draft} {ms : Draft.Members}
    (hsep : Separated first src body) (hkey : skipSpace body = .ok '"' :: key) (hps : Pieces ps key colon)
    (hcolon : skipSpace colon = .ok ':' :: value) (hspelled : Spelled (.value d) value middle)
    (hd : (Part.value d).Read value middle) (hms : (Part.members false ms).Read middle rest) :
    (Part.members first ((ps, d) :: ms)).Read src rest := by
  intro depth fuel vs hvs hdepth hfuel
  obtain ⟨fuel, rfl⟩ := Nat.exists_eq_add_one.mpr (Nat.zero_lt_of_lt hfuel)
  rw [membersDepth, Nat.max_le] at hdepth
  rw [memberValues?] at hvs
  split at hvs
  · next name a hname hvalue =>
    obtain ⟨cs, hcs, rfl⟩ := Option.map_eq_some_iff.mp hname
    obtain ⟨as, has, rfl⟩ := Option.map_eq_some_iff.mp hvs
    have hshorter : middle.length < fuel := by
      have hseparated := length_of_separated hsep
      have hquote := length_of_skipSpace hkey
      have hpieces := length_of_pieces hps
      have hmark := length_of_skipSpace hcolon
      have hpassed := hspelled.length_lt
      omega
    have hstring : salvageString (key.length + 2) key = .ok (some cs, colon) :=
      salvageString_of_pieces hps hcs (by omega)
    rw [salvageMembers_cons hsep hkey hstring hcolon (hd hvalue hdepth.1), hms has hdepth.2 hshorter]
    rfl
  · cases hvs

theorem Spelled.read {part : Part} (h : Spelled part src rest) : part.Read src rest := by
  induction h with
  | null h | yes h | no h =>
    intro depth v hv _
    cases hv
    exact salvageTree_of_scalar (by simp [salvageScalar, h, expectWord, Except.map]) h (by decide) (by decide)
  | @number src rest l h =>
    intro depth v hv _
    obtain ⟨c, tail, hskip, hc⟩ := readLiteral_head h
    obtain ⟨x, hx, rfl⟩ := Option.map_eq_some_iff.mp hv
    refine salvageTree_of_scalar ?_ hskip ?_ ?_
    · rw [hskip] at h
      simp only [salvageScalar, hskip, if_neg (ne_of_numeric hc (d := '"') (by decide) (by decide)), if_pos hc,
        salvageNumber, h, hx, bind, Except.bind]
      rfl
    · exact ne_of_numeric hc (by decide) (by decide)
    · exact ne_of_numeric hc (by decide) (by decide)
  | text hopen h =>
    intro depth v hv _
    obtain ⟨s, hs, rfl⟩ := Option.map_eq_some_iff.mp hv
    obtain ⟨cs, hcs, rfl⟩ := Option.map_eq_some_iff.mp hs
    refine salvageTree_of_scalar ?_ hopen (by decide) (by decide)
    simp only [salvageScalar, hopen, if_true, salvageString_of_pieces h hcs (Nat.lt_succ_self _), Except.map]
    rfl
  | array hopen h ih => exact Part.Read.array hopen ih
  | object hopen h ih => exact Part.Read.object hopen ih
  | noItem h =>
    intro depth fuel vs hvs _ hfuel
    obtain ⟨fuel, rfl⟩ := Nat.exists_eq_add_one.mpr (Nat.zero_lt_of_lt hfuel)
    cases hvs
    exact salvageItems_closing h
  | item hsep hd hds ihd ihds => exact Part.Read.item hsep hd ihd ihds
  | noMember h =>
    intro depth fuel vs hvs _ hfuel
    obtain ⟨fuel, rfl⟩ := Nat.exists_eq_add_one.mpr (Nat.zero_lt_of_lt hfuel)
    cases hvs
    exact salvageMembers_closing h
  | member hsep hkey hps hcolon hd hms ihd ihms => exact Part.Read.member hsep hkey hps hcolon hd ihd ihms

theorem salvageTree_of_spelled {d : Draft} {v : Json} {depth : Nat} (h : Spelled (.value d) src rest)
    (hvalue : d.value? = some v) (hdepth : d.depth ≤ depth) : salvageTree depth src = .ok (some v, rest) :=
  h.read hvalue hdepth

end

end WalletTopUp.Json
