import WalletTopUp.Proofs.Json.Members
import WalletTopUp.Proofs.Json.Salvage
import WalletTopUp.Subject.Claims

/-!
# What a payload claims

The claims of a payload are read twice, and the second reading goes on behind what it cannot make sense of. Both
readings agree on the members: a payload that is accepted is an object, with each registered claim at most once, and
the claims are what its members say (`claims_of_ofSource`). The second reading may lose its way, but then it does not
come to the end of the payload (`level_of_moreMembers`). An object with claims that stand for something is accepted
(`ofSource_of_claims`).
-/

namespace WalletTopUp.Subject

open Json

/-- The source is an object with these members, and nothing follows it. -/
def IsObject (src : Source) (ms : Draft.Members) : Prop :=
  ∃ rest, Spelled (.value (.object ms)) src rest ∧ skipSpace rest = []

section
variable {src rest value body : Source} {ms : Draft.Members}

theorem IsObject.unique {ms' : Draft.Members} (h : IsObject src ms) (h' : IsObject src ms') : ms = ms' := by
  obtain ⟨rest, hspelled, -⟩ := h
  obtain ⟨rest', hspelled', -⟩ := h'
  obtain ⟨hobject, -⟩ := hspelled.unique hspelled' trivial
  cases hobject
  rfl

theorem expectEnd_eq_ok_iff : expectEnd src = .ok () ↔ skipSpace src = [] := by
  unfold expectEnd
  rcases skipSpace src with _ | ⟨s, tail⟩ <;> simp

/-! ## The subject -/

/-- What the first reading does with a member: the subject has to be a text and comes once. -/
def SubjectStep (name : String) (d : Draft) (s t : Option String × Unit) : Prop :=
  if name = "sub" then s.1 = none ∧ ∃ ps text, d = .text ps ∧ textOf? ps = some text ∧ t = (some text, ())
  else t = s

def subjectMember (key : String) (slots : Option String × Unit) (src : Source) :
    Except Failure ((Option String × Unit) × Source) :=
  ((Fields.field "sub" (.scalar .text) .done).readMember (maxDepth - 1) key slots src).getD
    ((expect ':' src).bind fun src => (skipValue src).map fun rest => (slots, rest))

theorem read_text_eq_ok_iff {depth : Nat} {text : String} :
    (Shape.scalar .text).read depth src = .ok (text, rest) ↔
      ∃ ps, Spelled (.value (.text ps)) src rest ∧ textOf? ps = some text := by
  rw [← readLexeme_text_iff]
  unfold Shape.read
  rcases readLexeme src with failure | ⟨found, left⟩
  · simp [bind, Except.bind]
  · cases found <;> simp [bind, Except.bind, Scalar.ofLexeme, pure, Except.pure]

theorem subjectMember_faithful : Faithful subjectMember SubjectStep := by
  intro name slots next src rest h
  obtain ⟨slot, ⟨⟩⟩ := slots
  by_cases hname : name = "sub"
  · subst hname
    cases slot with
    | some found => cases h
    | none =>
      obtain ⟨value, hcolon, h⟩ := exists_of_bind_ok h
      obtain ⟨⟨text, left⟩, hread, hpair⟩ := exists_of_bind_ok h
      cases hpair
      obtain ⟨ps, hps, htext⟩ := read_text_eq_ok_iff.mp (mapError_eq_ok_iff.mp hread)
      refine ⟨value, .text ps, expect_eq_ok_iff.mp hcolon, hps, ?_⟩
      rw [SubjectStep, if_pos rfl]
      exact ⟨rfl, ps, text, rfl, htext, rfl⟩
  · simp only [subjectMember, Fields.readMember, if_neg hname, Option.map_none, Option.getD_none] at h
    obtain ⟨value, hcolon, h⟩ := exists_of_bind_ok h
    obtain ⟨left, hskip, hpair⟩ := exists_of_map_ok h
    cases hpair
    obtain ⟨d, hd⟩ := exists_spelled_of_skipValue hskip
    refine ⟨value, d, expect_eq_ok_iff.mp hcolon, hd, ?_⟩
    rw [SubjectStep, if_neg hname]

theorem subjectMember_ready : Ready subjectMember SubjectStep := by
  intro name slots next src rest value d hcolon hd hstep
  obtain ⟨slot, ⟨⟩⟩ := slots
  have hexpect : expect ':' src = .ok value := expect_eq_ok_iff.mpr hcolon
  by_cases hname : name = "sub"
  · subst hname
    rw [SubjectStep, if_pos rfl] at hstep
    obtain ⟨rfl, ps, text, rfl, htext, rfl⟩ := hstep
    have hread : under (.field "sub") ((Shape.scalar .text).read (maxDepth - 1) value) = .ok (text, rest) :=
      mapError_eq_ok_iff.mpr (read_text_eq_ok_iff.mpr ⟨ps, hd, htext⟩)
    simp only [subjectMember, Fields.readMember, if_true, Option.isSome_none, Bool.false_eq_true, if_false,
      Option.getD_some, hexpect, hread, bind, Except.bind]
    rfl
  · rw [SubjectStep, if_neg hname] at hstep
    subst hstep
    simp only [subjectMember, Fields.readMember, if_neg hname, Option.map_none, Option.getD_none, hexpect,
      skipValue_of_spelled hd, Except.bind, Except.map]

/-- Walking along the members finds the subject where it is: in the one member of its name. -/
theorem walk_subject_iff {text : String} {found : Option String} :
    Walk SubjectStep ms (found, ()) (some text, ()) ↔ Named ms ∧
      ((valuesNamed "sub" ms = [] ∧ found = some text) ∨
        found = none ∧ ∃ ps, valuesNamed "sub" ms = [.text ps] ∧ textOf? ps = some text) := by
  induction ms generalizing found with
  | nil =>
    constructor
    · intro h
      cases h
      exact ⟨nofun, .inl ⟨rfl, rfl⟩⟩
    · rintro ⟨-, ⟨-, rfl⟩ | ⟨-, ps, hnone, -⟩⟩
      · exact .nil _
      · cases hnone
  | cons m ms ih =>
    obtain ⟨ps, d⟩ := m
    rw [walk_cons_iff, named_cons_iff]
    constructor
    · rintro ⟨name, ⟨next, ⟨⟩⟩, hname, hstep, hwalk⟩
      obtain ⟨hnamed, hfound⟩ := ih.mp hwalk
      refine ⟨⟨⟨name, hname⟩, hnamed⟩, ?_⟩
      by_cases hsub : name = "sub"
      · subst hsub
        rw [SubjectStep, if_pos rfl] at hstep
        obtain ⟨hnone, pieces, found', rfl, htext, hnext⟩ := hstep
        cases hnext
        rw [valuesNamed_cons_self hname]
        rcases hfound with ⟨hnil, hsome⟩ | ⟨hsome, -⟩
        · cases hsome
          exact .inr ⟨hnone, pieces, by rw [hnil], htext⟩
        · cases hsome
      · rw [SubjectStep, if_neg hsub] at hstep
        cases hstep
        rw [valuesNamed_cons_of_ne hname hsub]
        exact hfound
    · rintro ⟨⟨⟨name, hname⟩, hnamed⟩, hfound⟩
      by_cases hsub : name = "sub"
      · subst hsub
        rw [valuesNamed_cons_self hname] at hfound
        rcases hfound with ⟨hnil, -⟩ | ⟨rfl, pieces, hone, htext⟩
        · cases hnil
        obtain ⟨rfl, hnil⟩ := List.cons.inj hone
        refine ⟨"sub", (some text, ()), hname, ?_, ih.mpr ⟨hnamed, .inl ⟨hnil, rfl⟩⟩⟩
        rw [SubjectStep, if_pos rfl]
        exact ⟨rfl, pieces, text, rfl, htext, rfl⟩
      · rw [valuesNamed_cons_of_ne hname hsub] at hfound
        refine ⟨name, (found, ()), hname, ?_, ih.mpr ⟨hnamed, hfound⟩⟩
        rw [SubjectStep, if_neg hsub]

theorem read_of_brace (hopen : skipSpace src = .ok '\x7b' :: body) :
    subjectShape.read maxDepth src = (members subjectMember (none, ()) body).bind fun (slots, rest) =>
      ((Fields.field "sub" (.scalar .text) .done).complete slots).bind fun claims => .ok (claims, rest) := by
  have hlexeme : readLexeme src = .ok (.mapping, body) := by simp [readLexeme, hopen]
  rw [Shape.read, hlexeme]
  rfl

theorem whole_of_brace (hopen : skipSpace src = .ok '\x7b' :: body) :
    subjectShape.whole src = (members subjectMember (none, ()) body).bind fun (slots, rest) =>
      ((Fields.field "sub" (.scalar .text) .done).complete slots).bind fun claims =>
        (expectEnd rest).bind fun _ => .ok claims := by
  rw [Shape.whole, read_of_brace hopen]
  rcases members subjectMember (none, ()) body with failure | ⟨slots, rest⟩
  · rfl
  · simp only [Except.bind]
    rcases (Fields.field "sub" (.scalar .text) .done).complete slots with failure | claims <;> rfl

theorem whole_eq_ok_iff {text : String} (hopen : skipSpace src = .ok '\x7b' :: body) :
    subjectShape.whole src = .ok (text, ()) ↔
      ∃ ms, IsObject src ms ∧ Named ms ∧ ∃ ps, valuesNamed "sub" ms = [.text ps] ∧ textOf? ps = some text := by
  rw [whole_of_brace hopen]
  constructor
  · intro h
    obtain ⟨⟨⟨slot, ⟨⟩⟩, rest⟩, hmembers, h⟩ := exists_of_bind_ok h
    obtain ⟨claims, hcomplete, h⟩ := exists_of_bind_ok h
    obtain ⟨⟨⟩, hend, hclaims⟩ := exists_of_bind_ok h
    cases hclaims
    obtain rfl : slot = some text := by
      cases slot with
      | none => cases hcomplete
      | some found =>
        cases hcomplete
        rfl
    obtain ⟨ms, hms, hwalk⟩ := exists_walk_of_members subjectMember_faithful hmembers
    obtain ⟨hnamed, ⟨-, hnone⟩ | ⟨-, hsubject⟩⟩ := walk_subject_iff.mp hwalk
    · cases hnone
    · exact ⟨ms, ⟨rest, .object hopen hms, expectEnd_eq_ok_iff.mp hend⟩, hnamed, hsubject⟩
  · rintro ⟨ms, ⟨rest, hobject, hend⟩, hnamed, hsubject⟩
    obtain ⟨ms', hobject', hms⟩ := hobject.of_brace hopen
    cases hobject'
    have hwalk : Walk SubjectStep ms (none, ()) (some text, ()) := walk_subject_iff.mpr ⟨hnamed, .inr ⟨rfl, hsubject⟩⟩
    rw [members_of_walk subjectMember_ready hms hwalk]
    simp only [Except.bind, expectEnd_eq_ok_iff.mpr hend]
    rfl

/-! ## The registered claims -/

/-- The value that a claim has from a member. Brackets stand for no moment. -/
def Registered.valueOf? (claim : Registered) : Draft → Option Json
  | .array ds => if claim.isMoment then none else (Draft.array ds).value?
  | .object ms => if claim.isMoment then none else (Draft.object ms).value?
  | d => d.value?

section
variable {claim : Registered} {d : Draft} {v? : Option Json} {left : Source}

theorem valueOf?_of_name (h : claim.isMoment = false) (d : Draft) : claim.valueOf? d = d.value? := by
  cases d <;> simp [Registered.valueOf?, h]

theorem valueOf?_of_scalar (hd : Spelled (.value d) src left) (harray : ∀ body, skipSpace src ≠ .ok '[' :: body)
    (hobject : ∀ body, skipSpace src ≠ .ok '\x7b' :: body) : claim.valueOf? d = d.value? := by
  cases hd with
  | array hopen _ => exact absurd hopen (harray _)
  | object hopen _ => exact absurd hopen (hobject _)
  | _ => rfl

theorem salvageMoment_sound (hmoment : claim.isMoment = true) (h : salvageMoment src = .ok (v?, left)) :
    Salvages 0 .value claim.valueOf? src v? left := by
  have hdeep : ∀ {body : Source} {c : Char}, skipSpace src = .ok c :: body → (c = '[' ∨ c = '\x7b') →
      Astray 1 src body := by
    intro body c hskip hc
    refine .inr fun n => ⟨(.outside, n + 1), leads_next (outside_ne n) hskip ?_, .inr ⟨rfl, Int.le_refl _⟩⟩
    rcases hc with rfl | rfl <;> rfl
  unfold salvageMoment at h
  split at h
  · next body hopen =>
    cases h
    have hinside := hdeep hopen (.inl rfl)
    rcases leaveArray_cases body with hskip | hskip | hsame
    · exact .inl ⟨.array [], .array hopen (.noItem hskip), by rw [Registered.valueOf?, if_pos hmoment]⟩
    · have hnext : Astray 1 src (leaveArray body) := by
        refine .inr fun n => ⟨(.outside, n + 1), ?_, .inr ⟨rfl, Int.le_refl _⟩⟩
        exact (leads_next (outside_ne n) hopen rfl).trans (leads_next (outside_ne (n + 1)) hskip rfl)
      exact .inr ⟨rfl, hnext.mono (by decide), fun _ => hnext⟩
    · rw [hsame]
      exact .inr ⟨rfl, hinside.mono (by decide), fun _ => hinside⟩
  · next body hopen =>
    cases h
    have hinside := hdeep hopen (.inr rfl)
    rcases leaveObject_cases body with hskip | hsame
    · exact .inl ⟨.object [], .object hopen (.noMember hskip), by rw [Registered.valueOf?, if_pos hmoment]⟩
    · rw [hsame]
      exact .inr ⟨rfl, hinside.mono (by decide), fun _ => hinside⟩
  · next harray hobject =>
    rw [salvageScalar_skipSpace] at h
    rcases salvageScalar_cases h with ⟨d, hd, rfl⟩ | ⟨rfl, hastray⟩
    · exact .inl ⟨d, hd, (valueOf?_of_scalar hd harray hobject).symm⟩
    · exact .inr ⟨rfl, hastray 0, fun _ => hastray _⟩

theorem Registered.salvage_sound (h : claim.salvage src = .ok (v?, left)) :
    Salvages 0 .value claim.valueOf? src v? left := by
  unfold Registered.salvage at h
  cases hmoment : claim.isMoment with
  | true =>
    rw [if_pos hmoment] at h
    exact salvageMoment_sound hmoment h
  | false =>
    rw [if_neg (Bool.eq_false_iff.mp hmoment)] at h
    have hvalue : claim.valueOf? = Draft.value? := funext (valueOf?_of_name hmoment)
    rw [hvalue]
    exact salvageTree_sound claimDepth h

end

/-- What the second reading does with a member: a registered claim comes once, and it is kept. -/
def RegisteredStep (name : String) (d : Draft) (found next : FoundClaims) : Prop :=
  match Registered.ofName? name with
  | none => next = found
  | some claim => found.any (·.1 = claim) = false ∧ next = (claim, claim.valueOf? d) :: found

section
variable {name : String} {found next : FoundClaims} {fuel : Nat}

theorem readClaim_cases (h : readClaim name found src = .ok (next, rest)) :
    ∃ value, skipSpace src = .ok ':' :: value ∧
      ((Registered.ofName? name = none ∧ next = found ∧ skipValue value = .ok rest) ∨
        ∃ claim v?, Registered.ofName? name = some claim ∧ found.any (·.1 = claim) = false ∧
          claim.salvage value = .ok (v?, rest) ∧ next = (claim, v?) :: found) := by
  unfold readClaim at h
  cases hname : Registered.ofName? name with
  | none =>
    simp only [hname] at h
    obtain ⟨value, hcolon, h⟩ := exists_of_bind_ok h
    obtain ⟨left, hskip, hpair⟩ := exists_of_bind_ok h
    cases hpair
    exact ⟨value, expect_eq_ok_iff.mp hcolon, .inl ⟨rfl, rfl, hskip⟩⟩
  | some claim =>
    simp only [hname] at h
    cases hany : found.any (·.1 = claim) with
    | true =>
      rw [if_pos hany] at h
      cases h
    | false =>
      rw [if_neg (Bool.eq_false_iff.mp hany)] at h
      obtain ⟨value, hcolon, h⟩ := exists_of_bind_ok h
      obtain ⟨⟨v?, left⟩, hsalvage, hpair⟩ := exists_of_bind_ok h
      cases hpair
      exact ⟨value, expect_eq_ok_iff.mp hcolon, .inr ⟨claim, v?, rfl, hany, hsalvage, rfl⟩⟩

theorem name_of_ofName? {claim : Registered} (h : Registered.ofName? name = some claim) : claim.name = name := by
  have hfound := List.find?_some h
  exact of_decide_eq_true hfound

/-- Each registered name has a letter that stands in strings only. -/
theorem exists_letter (claim : Registered) :
    ∃ c ∈ claim.name.toList, ∀ n, advance (.outside, n) (.ok c) = none := by
  cases claim with
  | expiry => exact ⟨'x', by decide, fun n => rfl⟩
  | start => exact ⟨'b', by decide, fun n => rfl⟩
  | subject => exact ⟨'b', by decide, fun n => rfl⟩
  | issuer => exact ⟨'i', by decide, fun n => rfl⟩
  | audience => exact ⟨'d', by decide, fun n => rfl⟩

theorem ofName?_of_outside {ps : List Piece} (hname : textOf? ps = some name)
    (h : ∀ cs, charsOf? ps = some cs → ∀ c ∈ cs, ∃ n q, advance (.outside, n) (.ok c) = some q) :
    Registered.ofName? name = none := by
  obtain ⟨cs, hcs, rfl⟩ := Option.map_eq_some_iff.mp hname
  by_contra hsome
  obtain ⟨claim, hclaim⟩ := Option.ne_none_iff_exists'.mp hsome
  obtain ⟨c, hc, hnowhere⟩ := exists_letter claim
  rw [name_of_ofName? hclaim, String.toList_ofList] at hc
  obtain ⟨n, q, hq⟩ := h cs hcs c hc
  rw [hnowhere] at hq
  cases hq

theorem moreMembers_of_stuck {σ : Type} {member : String → σ → Source → Except Failure (σ × Source)} {s t : σ}
    (h : Stuck src) : moreMembers member fuel s src ≠ .ok (t, rest) := by
  intro hread
  rcases fuel with _ | fuel
  · cases hread
  rcases moreMembers_cases hread with ⟨hskip, -⟩ | ⟨body, key, hsep, -⟩
  · exact h.ne rfl hskip
  · exact h.ne rfl hsep

/-- Where the reading goes on to the end of the payload, it stands in one bracket, outside strings. -/
theorem level_of_moreMembers {phase : Phase} {m : Int} (h : moreMembers readClaim fuel found src = .ok (next, rest))
    (hrest : skipSpace rest = []) (hend : Leads (phase, m) src (.outside, 0) [])
    (hplace : phase = .quoted ∨ phase = .outside ∧ 1 ≤ m) : phase = .outside ∧ m = 1 := by
  induction fuel generalizing found src phase m with
  | zero => cases h
  | succ fuel ih =>
    have hclear : (phase, m).1 ≠ .escaped := by
      rcases hplace with rfl | ⟨rfl, -⟩
      · exact quoted_ne m
      · exact outside_ne m
    have hspaces : ∀ {p : Place}, p.1 ≠ .escaped → Leads p rest p [] := by
      intro p hp
      have hskip := leads_skipSpace hp rest
      rwa [hrest] at hskip
    rcases moreMembers_cases h with ⟨hclosing, rfl⟩ |
      ⟨body, key, hsep, hkey, name, colon, found', middle, hname, hmember, hmore⟩
    · rcases hplace with rfl | ⟨rfl, hm⟩
      · have hleads := (leads_next (q := (.quoted, m)) hclear hclosing rfl).trans (hspaces (quoted_ne m))
        cases (hleads.onward hend).eq_of_nil
      · have hleads := (leads_next (q := (.outside, m - 1)) hclear hclosing rfl).trans (hspaces (outside_ne (m - 1)))
        have hlast := congrArg Prod.snd (hleads.onward hend).eq_of_nil
        simp only at hlast
        exact ⟨rfl, by omega⟩
    · obtain ⟨ps, hps, htext⟩ := readKey_eq_ok_iff.mp hname
      obtain ⟨value, hcolon, hread⟩ := readClaim_cases hmember
      rcases hplace with rfl | ⟨rfl, hm⟩
      · -- what is taken for a name stands outside strings, so it is none of the registered ones
        have hquote := (leads_separated hclear hsep).trans (leads_next (q := (.outside, m)) hclear hkey rfl)
        obtain ⟨⟨m', hinverted⟩, hchars⟩ := hps.inverted (hquote.onward hend)
        rcases hread with ⟨-, rfl, hskip⟩ | ⟨claim, v?, hclaim, -⟩
        · obtain ⟨d, hd⟩ := exists_spelled_of_skipValue hskip
          have hfront := (hquote.trans hinverted).trans
            (leads_next (quoted_ne m') hcolon (advance_mark (quoted_ne m') (by decide)))
          obtain ⟨m'', hvalue⟩ := hd.inverted (hfront.onward hend)
          obtain ⟨hphase, -⟩ := ih hmore ((hfront.trans hvalue).onward hend) (.inl rfl)
          cases hphase
        · rw [ofName?_of_outside htext hchars] at hclaim
          cases hclaim
      · have hfront : Level src value := by
          refine Level.next (fun n => ?_) (by decide) hcolon
          exact ((leads_separated (outside_ne n) hsep).trans (leads_next (outside_ne n) hkey rfl)).trans (hps.leads n)
        have hlevel : ∀ {d : Draft}, Spelled (.value d) value middle → Phase.outside = .outside ∧ m = 1 := by
          intro d hd
          exact ih hmore (((hfront.trans hd.level) m).onward hend) (.inr ⟨rfl, hm⟩)
        rcases hread with ⟨-, rfl, hskip⟩ | ⟨claim, v?, -, -, hsalvage, -⟩
        · obtain ⟨d, hd⟩ := exists_spelled_of_skipValue hskip
          exact hlevel hd
        · rcases Registered.salvage_sound hsalvage with ⟨d, hd, -⟩ | ⟨-, hastray, -⟩
          · exact hlevel hd
          · rcases hastray with hstuck | hastray
            · exact absurd hmore (moreMembers_of_stuck hstuck)
            · obtain ⟨⟨phase, m'⟩, hleads, hplace⟩ := hastray m
              have hplace' : phase = .quoted ∨ phase = .outside ∧ 1 ≤ m' := by
                refine hplace.imp_right fun ⟨hphase, hdepth⟩ => ⟨hphase, ?_⟩
                simp only at hdepth
                omega
              obtain ⟨rfl, rfl⟩ := ih hmore (((hfront m).trans hleads).onward hend) hplace'
              rcases hplace with hphase | ⟨-, hdepth⟩
              · cases hphase
              · simp only at hdepth
                exact ⟨rfl, by omega⟩

theorem step_of_memberRead {ps : List Piece} {key colon middle last : Source} {d : Draft} (hps : Pieces ps key colon)
    (hcolon : skipSpace colon = .ok ':' :: value) (hd : Spelled (.value d) value middle)
    (hms : Spelled (.members false ms) middle last) (hlast : skipSpace last = [])
    (h : MemberRead readClaim fuel key found next rest) (hrest : skipSpace rest = []) :
    ∃ name found', textOf? ps = some name ∧ RegisteredStep name d found found' ∧
      moreMembers readClaim fuel found' middle = .ok (next, rest) := by
  obtain ⟨name, colon', found', middle', hname, hmember, hmore⟩ := h
  obtain ⟨ps', hps', htext⟩ := readKey_eq_ok_iff.mp hname
  obtain ⟨rfl, rfl⟩ := hps.unique hps'
  obtain ⟨value', hcolon', hread⟩ := readClaim_cases hmember
  rw [hcolon] at hcolon'
  cases hcolon'
  refine ⟨name, found', htext, ?_⟩
  rcases hread with ⟨hnone, rfl, hskip⟩ | ⟨claim, v?, hclaim, hnew, hsalvage, rfl⟩
  · rw [skipValue_of_spelled hd] at hskip
    cases hskip
    exact ⟨by rw [RegisteredStep, hnone], hmore⟩
  · rcases Registered.salvage_sound hsalvage with ⟨d', hd', rfl⟩ | ⟨-, -, hdeep⟩
    · obtain ⟨hsame, rfl⟩ := hd.unique hd' trivial
      cases hsame
      refine ⟨?_, hmore⟩
      rw [RegisteredStep, hclaim]
      exact ⟨hnew, rfl⟩
    · exfalso
      have hend : Leads (.outside, 1) value (.outside, 0) [] := by
        have hspaces := leads_skipSpace (outside_ne 0) last
        rw [hlast] at hspaces
        exact ((hd.level 1).trans (hms.leads 1)).trans hspaces
      rcases hdeep ⟨d, middle, hd⟩ with hstuck | hastray
      · exact moreMembers_of_stuck hstuck hmore
      · obtain ⟨⟨phase, m⟩, hleads, hplace⟩ := hastray 1
        have hplace' : phase = .quoted ∨ phase = .outside ∧ 1 ≤ m := by
          refine hplace.imp_right fun ⟨hphase, hdepth⟩ => ⟨hphase, ?_⟩
          simp only at hdepth
          omega
        obtain ⟨rfl, rfl⟩ := level_of_moreMembers hmore hrest (hleads.onward hend) hplace'
        rcases hplace with hphase | ⟨-, hdepth⟩
        · cases hphase
        · simp only at hdepth
          omega

theorem walk_of_moreMembers {last : Source} (hms : Spelled (.members false ms) src last) (hlast : skipSpace last = [])
    (h : moreMembers readClaim fuel found src = .ok (next, rest)) (hrest : skipSpace rest = []) :
    Walk RegisteredStep ms found next := by
  induction fuel generalizing ms found src with
  | zero => cases h
  | succ fuel ih =>
    rcases moreMembers_cases h with ⟨hclosing, rfl⟩ | ⟨body, key, hsep, hkey, hread⟩
    · cases hms with
      | noMember => exact .nil _
      | member hsep hkey => exact absurd hclosing (hsep.not_closing hkey)
    · obtain ⟨ps, colon, value, d, ms', middle, rfl, hps, hcolon, hd, hms'⟩ := hms.members_of_separated hsep hkey
      obtain ⟨name, found', htext, hstep, hmore⟩ := step_of_memberRead hps hcolon hd hms' hlast hread hrest
      exact .cons htext hstep (ih hms' hmore)

/-- The second reading takes the members of an object as they are spelled. -/
theorem walk_of_readRegistered (hobject : IsObject src ms) (h : readRegistered src = .ok found) :
    Walk RegisteredStep ms [] found := by
  obtain ⟨last, hspelled, hlast⟩ := hobject
  obtain ⟨body, hopen, h⟩ := exists_of_bind_ok h
  obtain ⟨⟨found', rest⟩, hmembers, h⟩ := exists_of_bind_ok h
  obtain ⟨⟨⟩, hrest, hfound⟩ := exists_of_bind_ok h
  cases hfound
  obtain ⟨ms', hobject, hms⟩ := hspelled.of_brace (expect_eq_ok_iff.mp hopen)
  cases hobject
  have hrest : skipSpace rest = [] := expectEnd_eq_ok_iff.mp hrest
  rcases members_cases hmembers with ⟨hclosing, rfl⟩ | ⟨key, fuel, hkey, hread⟩
  · cases hms with
    | noMember => exact .nil _
    | member hsep hkey => exact absurd hclosing (hsep.not_closing hkey)
  · obtain ⟨ps, colon, value, d, ms', middle, rfl, hps, hcolon, hd, hms'⟩ := hms.members_of_separated rfl hkey
    obtain ⟨name, found', htext, hstep, hmore⟩ := step_of_memberRead hps hcolon hd hms' hlast hread hrest
    exact .cons htext hstep (walk_of_moreMembers hms' hlast hmore hrest)

/-! ## What is found -/

theorem ofName?_name (claim : Registered) : Registered.ofName? claim.name = some claim := by
  cases claim <;> rfl

theorem valueOf?_cons (claim other : Registered) (v? : Option Json) (found : FoundClaims) :
    Subject.valueOf? claim ((other, v?) :: found) = if other = claim then v? else Subject.valueOf? claim found := by
  by_cases h : other = claim <;> simp [Subject.valueOf?, h]

theorem valueOf?_eq_none {claim : Registered} (h : found.any (·.1 = claim) = false) :
    Subject.valueOf? claim found = none := by
  have hnone : found.find? (·.1 = claim) = none := by
    rw [List.find?_eq_none]
    intro entry hentry
    exact Bool.eq_false_iff.mp (List.any_eq_false.mp h entry hentry |> Bool.eq_false_iff.mpr)
  rw [Subject.valueOf?, hnone]
  rfl

theorem name_inj {claim other : Registered} (h : claim.name = other.name) : claim = other := by
  have hsome := ofName?_name claim
  rw [h, ofName?_name other] at hsome
  exact (Option.some.inj hsome).symm

theorem found_of_walk (h : Walk RegisteredStep ms found next) (claim : Registered) :
    (found.any (·.1 = claim) = true →
      valuesNamed claim.name ms = [] ∧ Subject.valueOf? claim next = Subject.valueOf? claim found) ∧
    (found.any (·.1 = claim) = false → (valuesNamed claim.name ms).length ≤ 1 ∧
      Subject.valueOf? claim next = (valuesNamed claim.name ms).head?.bind claim.valueOf?) := by
  induction h with
  | nil found =>
    refine ⟨fun _ => ⟨rfl, rfl⟩, fun hnew => ⟨Nat.zero_le _, ?_⟩⟩
    rw [valueOf?_eq_none hnew]
    rfl
  | @cons name ps d ms found middle next hname hstep hwalk ih =>
    cases hother : Registered.ofName? name with
    | none =>
      have hne : name ≠ claim.name := by
        rintro rfl
        rw [ofName?_name] at hother
        cases hother
      rw [RegisteredStep, hother] at hstep
      obtain rfl : middle = found := hstep
      rw [valuesNamed_cons_of_ne hname hne]
      exact ih
    | some other =>
      rw [RegisteredStep, hother] at hstep
      obtain ⟨hnew, rfl⟩ := hstep
      obtain rfl := name_of_ofName? hother
      by_cases hsame : other = claim
      · subst hsame
        obtain ⟨hnil, hvalue⟩ := ih.1 (by simp)
        rw [valuesNamed_cons_self hname, hnil, hvalue, valueOf?_cons, if_pos rfl]
        refine ⟨fun hany => ?_, fun _ => ⟨Nat.le_refl _, rfl⟩⟩
        rw [hnew] at hany
        cases hany
      · have hne : other.name ≠ claim.name := fun hnames => hsame (name_inj hnames)
        have hany : List.any ((other, other.valueOf? d) :: found) (·.1 = claim) = found.any (·.1 = claim) := by
          simp [hsame]
        rw [hany, valueOf?_cons, if_neg hsame] at ih
        rw [valuesNamed_cons_of_ne hname hne]
        exact ih

/-! ## Claims that stand for something -/

/-- The claim can be read from the value: a name stands for something and is not too deep, and a moment is a scalar that
stands for something, or empty brackets. -/
def Registered.Legible (claim : Registered) (d : Draft) : Prop :=
  if claim.isMoment then d = .array [] ∨ d = .object [] ∨ d.depth = 0 ∧ d.value?.isSome = true
  else d.depth ≤ claimDepth ∧ d.value?.isSome = true

theorem salvageMoment_of_legible {claim : Registered} {d : Draft} (hmoment : claim.isMoment = true)
    (hd : Spelled (.value d) src rest) (h : claim.Legible d) : salvageMoment src = .ok (claim.valueOf? d, rest) := by
  rw [Registered.Legible, if_pos hmoment] at h
  rcases h with rfl | rfl | ⟨hdepth, hvalue⟩
  · cases hd with
    | array hopen hcontents =>
      cases hcontents with
      | noItem hclosing =>
        rw [Registered.valueOf?, if_pos hmoment]
        simp only [salvageMoment, hopen, leaveArray, hclosing]
  · cases hd with
    | object hopen hcontents =>
      cases hcontents with
      | noMember hclosing =>
        rw [Registered.valueOf?, if_pos hmoment]
        simp only [salvageMoment, hopen, leaveObject, hclosing]
  · obtain ⟨v, hv⟩ := Option.isSome_iff_exists.mp hvalue
    have hscalar : salvageScalar src = .ok (some v, rest) := salvageTree_of_spelled hd hv (Nat.le_of_eq hdepth)
    unfold salvageMoment
    split
    · next hopen =>
      obtain ⟨ds, rfl, -⟩ := hd.of_bracket hopen
      rw [Draft.depth] at hdepth
      cases hdepth
    · next hopen =>
      obtain ⟨ms, rfl, -⟩ := hd.of_brace hopen
      rw [Draft.depth] at hdepth
      cases hdepth
    · next harray hobject =>
      rw [salvageScalar_skipSpace, hscalar, valueOf?_of_scalar hd harray hobject, hv]

theorem Registered.salvage_of_legible {claim : Registered} {d : Draft} (hd : Spelled (.value d) src rest)
    (h : claim.Legible d) : claim.salvage src = .ok (claim.valueOf? d, rest) := by
  unfold Registered.salvage
  cases hmoment : claim.isMoment with
  | true => exact salvageMoment_of_legible hmoment hd h
  | false =>
    rw [Registered.Legible, if_neg (Bool.eq_false_iff.mp hmoment)] at h
    obtain ⟨v, hv⟩ := Option.isSome_iff_exists.mp h.2
    rw [if_neg (by decide), valueOf?_of_name hmoment, hv]
    exact salvageTree_of_spelled hd hv h.1

/-- The step of the second reading, with a claim that can be read. -/
def LegibleStep (name : String) (d : Draft) (found next : FoundClaims) : Prop :=
  RegisteredStep name d found next ∧ ∀ claim, Registered.ofName? name = some claim → claim.Legible d

theorem readClaim_ready : Ready readClaim LegibleStep := by
  intro name found next src rest value d hcolon hd hstep
  obtain ⟨hstep, hlegible⟩ := hstep
  have hexpect : expect ':' src = .ok value := expect_eq_ok_iff.mpr hcolon
  cases hclaim : Registered.ofName? name with
  | none =>
    rw [RegisteredStep, hclaim] at hstep
    obtain rfl : next = found := hstep
    simp only [readClaim, hclaim, hexpect, skipValue_of_spelled hd, bind, Except.bind]
    rfl
  | some claim =>
    rw [RegisteredStep, hclaim] at hstep
    obtain ⟨hnew, rfl⟩ := hstep
    have hsalvage := Registered.salvage_of_legible hd (hlegible claim hclaim)
    simp only [readClaim, hclaim, hnew, Bool.false_eq_true, if_false, hexpect, hsalvage, bind, Except.bind]
    rfl

theorem exists_walk (hnamed : Named ms)
    (hfound : ∀ claim : Registered, found.any (·.1 = claim) = true → valuesNamed claim.name ms = [])
    (honce : ∀ claim : Registered, (valuesNamed claim.name ms).length ≤ 1)
    (hlegible : ∀ claim : Registered, ∀ d ∈ valuesNamed claim.name ms, claim.Legible d) :
    ∃ next, Walk LegibleStep ms found next := by
  induction ms generalizing found with
  | nil => exact ⟨found, .nil found⟩
  | cons m ms ih =>
    obtain ⟨ps, d⟩ := m
    obtain ⟨⟨name, hname⟩, hnamed⟩ := named_cons_iff.mp hnamed
    have hothers : ∀ claim : Registered, claim.name ≠ name →
        valuesNamed claim.name ((ps, d) :: ms) = valuesNamed claim.name ms :=
      fun claim hne => valuesNamed_cons_of_ne hname hne.symm d
    cases hname' : Registered.ofName? name with
    | none =>
      have hne : ∀ claim : Registered, claim.name ≠ name := by
        rintro claim rfl
        rw [ofName?_name] at hname'
        cases hname'
      obtain ⟨next, hwalk⟩ := ih hnamed
        (fun claim hany => hothers claim (hne claim) ▸ hfound claim hany)
        (fun claim => hothers claim (hne claim) ▸ honce claim)
        (fun claim => hothers claim (hne claim) ▸ hlegible claim)
      refine ⟨next, .cons hname ⟨?_, fun claim hclaim => ?_⟩ hwalk⟩
      · rw [RegisteredStep, hname']
      · rw [hname'] at hclaim
        cases hclaim
    | some claim =>
      obtain rfl := name_of_ofName? hname'
      have hself : valuesNamed claim.name ((ps, d) :: ms) = d :: valuesNamed claim.name ms :=
        valuesNamed_cons_self hname d
      have hnil : valuesNamed claim.name ms = [] := by
        have hlength := honce claim
        rw [hself, List.length_cons] at hlength
        exact List.length_eq_zero_iff.mp (by omega)
      have hnew : found.any (·.1 = claim) = false := by
        refine Bool.eq_false_iff.mpr fun hany => ?_
        have hnone := hfound claim hany
        rw [hself] at hnone
        cases hnone
      have htransfer : ∀ {property : Registered → Prop}, property claim →
          (∀ other : Registered, other.name ≠ claim.name → property other) → ∀ other, property other := by
        intro property hclaim hrest other
        by_cases hsame : other = claim
        · exact hsame ▸ hclaim
        · exact hrest other fun hnames => hsame (name_inj hnames)
      have hnext : ∃ next, Walk LegibleStep ms ((claim, claim.valueOf? d) :: found) next := ih hnamed
        (htransfer (fun _ => hnil) fun other hne hany => hothers other hne ▸ hfound other (by
          have hdiffers : claim ≠ other := by
            rintro rfl
            exact hne rfl
          simpa [hdiffers] using hany))
        (htransfer (by rw [hnil]; exact Nat.zero_le _) fun other hne => hothers other hne ▸ honce other)
        (htransfer (by rw [hnil]; exact nofun) fun other hne => hothers other hne ▸ hlegible other)
      obtain ⟨next, hwalk⟩ := hnext
      refine ⟨next, .cons hname ⟨?_, fun other hother => ?_⟩ hwalk⟩
      · rw [RegisteredStep, hname']
        exact ⟨hnew, rfl⟩
      · rw [hname'] at hother
        cases hother
        exact hlegible claim d (hself ▸ List.mem_cons_self)

/-- What the members of a payload claim about its subject. -/
def claimsOf (subject : String) (ms : Draft.Members) : Claims where
  subject := subject
  expiry := (valuesNamed "exp" ms).head?.bind fun d => d.value?.bind moment?
  hasAudience := (valuesNamed "aud" ms).head?.any fun d => d.value?.any isNames

theorem valueOf?_bind_moment? (d : Draft) : (Registered.valueOf? .expiry d).bind moment? = d.value?.bind moment? := by
  cases d with
  | array ds =>
    rw [Registered.valueOf?, Draft.value?]
    cases itemValues? ds <;> rfl
  | object ms =>
    rw [Registered.valueOf?, Draft.value?]
    cases memberValues? ms <;> rfl
  | _ => rfl

theorem claims_of_walk (h : Walk RegisteredStep ms [] found) (text : String) :
    (∀ claim : Registered, (valuesNamed claim.name ms).length ≤ 1) ∧
      Claims.mk text ((Subject.valueOf? .expiry found).bind moment?) ((Subject.valueOf? .audience found).any isNames) =
        claimsOf text ms := by
  have hfound : ∀ claim : Registered, _ := fun claim => (found_of_walk h claim).2 rfl
  refine ⟨fun claim => (hfound claim).1, ?_⟩
  have hexpiry : (Subject.valueOf? .expiry found).bind moment? =
      (valuesNamed "exp" ms).head?.bind fun d => d.value?.bind moment? := by
    rw [(hfound .expiry).2, Registered.name]
    cases (valuesNamed "exp" ms).head? with
    | none => rfl
    | some d => exact valueOf?_bind_moment? d
  have haudience : (Subject.valueOf? .audience found).any isNames =
      (valuesNamed "aud" ms).head?.any fun d => d.value?.any isNames := by
    rw [(hfound .audience).2, Registered.name]
    cases (valuesNamed "aud" ms).head? with
    | none => rfl
    | some d =>
      have hvalue : Registered.valueOf? .audience d = d.value? := valueOf?_of_name rfl d
      exact congrArg (·.any isNames) hvalue
  rw [hexpiry, haudience, claimsOf]

/-- The claims of a payload that is accepted are those of an object, where each registered claim comes at most once. -/
theorem claims_of_ofSource {claims : Claims} (h : Claims.ofSource src = .ok claims) :
    ∃ ms ps, IsObject src ms ∧ Named ms ∧ (∀ claim : Registered, (valuesNamed claim.name ms).length ≤ 1) ∧
      valuesNamed "sub" ms = [.text ps] ∧ textOf? ps = some claims.subject ∧ claims = claimsOf claims.subject ms := by
  obtain ⟨⟨text, ⟨⟩⟩, hwhole, h⟩ := exists_of_bind_ok h
  obtain ⟨found, hregistered, hclaims⟩ := exists_of_bind_ok h
  cases hclaims
  obtain ⟨body, hopen, -⟩ := exists_of_bind_ok hregistered
  obtain ⟨ms, hobject, hnamed, ps, hsubject, htext⟩ := (whole_eq_ok_iff (expect_eq_ok_iff.mp hopen)).mp hwhole
  obtain ⟨honce, hclaims⟩ := claims_of_walk (walk_of_readRegistered hobject hregistered) text
  exact ⟨ms, ps, hobject, hnamed, honce, hsubject, htext, hclaims⟩

/-- An object with names that are texts, where each registered claim comes at most once and can be read, is accepted. -/
theorem ofSource_of_claims {ps : List Piece} {text : String} (hobject : IsObject src ms) (hnamed : Named ms)
    (honce : ∀ claim : Registered, (valuesNamed claim.name ms).length ≤ 1)
    (hlegible : ∀ claim : Registered, ∀ d ∈ valuesNamed claim.name ms, claim.Legible d)
    (hsubject : valuesNamed "sub" ms = [.text ps]) (htext : textOf? ps = some text) :
    Claims.ofSource src = .ok (claimsOf text ms) := by
  obtain ⟨found, hwalk⟩ : ∃ found, Walk LegibleStep ms [] found := exists_walk hnamed nofun honce hlegible
  have hclaims := (claims_of_walk (hwalk.imp fun _ _ _ _ hstep => hstep.1) text).2
  obtain ⟨rest, hspelled, hrest⟩ := hobject
  cases hspelled with
  | object hopen hms =>
    have hwhole : subjectShape.whole src = .ok (text, ()) :=
      (whole_eq_ok_iff hopen).mpr ⟨ms, ⟨rest, .object hopen hms, hrest⟩, hnamed, ps, hsubject, htext⟩
    have hregistered : readRegistered src = .ok found := by
      simp only [readRegistered, expect_eq_ok_iff.mpr hopen, members_of_walk readClaim_ready hms hwalk,
        expectEnd_eq_ok_iff.mpr hrest, bind, Except.bind]
      rfl
    rw [← hclaims]
    simp only [Claims.ofSource, hwhole, hregistered, bind, Except.bind]
    rfl

end

end

end WalletTopUp.Subject
