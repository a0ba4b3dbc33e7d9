import WalletTopUp.Proofs.Subject.Claims
import WalletTopUp.Proofs.Subject.Moment
import WalletTopUp.Proofs.Text.Base64Url
import WalletTopUp.Subject.Verifier

/-!
# What a token says

The parts of a token, its header and its payload, apart from the readers: `Opened` says what a token is made of, and
`SubjectIs`, `ExpiresAt` and `NamesAudience` say what its payload claims. A token with claims that are accepted is
opened so (`opened_of_claims`); the checks of a token that is opened so, with claims that can be read, are those of
its signature, its expiry and its audience (`claims_of_opened`).
-/

namespace WalletTopUp

open Json Subject

/-! ## Parts -/

/-- The token is these parts with dots between them. Split from the right, only the header may have more of them. -/
def TokenParts.Of (parts : TokenParts) (token : String) : Prop :=
  token.toList = parts.header ++ '.' :: parts.claims ++ '.' :: parts.signature ∧
    '.' ∉ parts.claims ∧ '.' ∉ parts.signature

/-- The part of a token is the text of bytes, which are this source. -/
def Encodes (part : List Char) (src : Source) : Prop :=
  ∃ bytes, part = Text.Base64Url.encode bytes ∧ Text.decode bytes = src

section
variable {token : String} {parts : TokenParts} {part : List Char} {src : Source}

theorem ofText?_eq_some_iff : TokenParts.ofText? token = some parts ↔ parts.Of token := by
  unfold TokenParts.Of
  constructor
  · intro h
    obtain ⟨⟨signed, signature⟩, houter, h⟩ := Option.bind_eq_some_iff.mp h
    obtain ⟨⟨header, claims⟩, hinner, h⟩ := Option.bind_eq_some_iff.mp h
    cases h
    obtain ⟨htoken, hsignature⟩ := Text.eq_of_splitLast? houter
    obtain ⟨rfl, hclaims⟩ := Text.eq_of_splitLast? hinner
    exact ⟨htoken, hclaims, hsignature⟩
  · rintro ⟨htoken, hclaims, hsignature⟩
    have hinner := Text.splitLast?_append parts.header hclaims
    simp only [TokenParts.ofText?, htoken, Text.splitLast?_append _ hsignature, Option.bind_eq_bind, Option.bind_some,
      hinner]
    rfl

theorem decodePart_eq_ok_iff : SubjectVerifier.decodePart part = .ok src ↔ Encodes part src := by
  unfold SubjectVerifier.decodePart Encodes
  constructor
  · intro h
    split at h
    · next bytes hbytes =>
      cases h
      exact ⟨bytes, Text.Base64Url.decode?_eq_some_iff.mp hbytes, rfl⟩
    · cases h
  · rintro ⟨bytes, hpart, rfl⟩
    rw [Text.Base64Url.decode?_eq_some_iff.mpr hpart]

end

/-! ## Claims -/

/-- A string that stands for a text. -/
def Json.Draft.IsText (d : Draft) : Prop := ∃ ps, d = .text ps ∧ ∃ text, textOf? ps = some text

/-- A text or a list of texts. -/
def Json.Draft.IsNames (d : Draft) : Prop := d.IsText ∨ ∃ ds, d = .array ds ∧ ∀ e ∈ ds, e.IsText

namespace Json.Draft

variable {d : Draft}

theorem value?_eq_text_iff {text : String} :
    d.value? = some (.text text) ↔ ∃ ps, d = .text ps ∧ textOf? ps = some text := by
  cases d <;> simp [Draft.value?]

theorem value?_eq_number_iff {x : Number} : d.value? = some (.number x) ↔ ∃ l, d = .number l ∧ l.value? = some x := by
  cases d <;> simp [Draft.value?]

theorem value?_eq_array_iff {vs : List Json} :
    d.value? = some (.array vs) ↔ ∃ ds, d = .array ds ∧ itemValues? ds = some vs := by
  cases d <;> simp [Draft.value?]

end Json.Draft

namespace Subject

variable {ms : Draft.Members} {username text : String} {e : Nat}

/-- The payload has one subject, and this is it. -/
def SubjectIs (ms : Draft.Members) (username : String) : Prop :=
  ∃ ps, valuesNamed "sub" ms = [.text ps] ∧ textOf? ps = some username

/-- The payload has one expiry. It is a number that is not negative, and this is the number rounded to a whole second.
-/
def ExpiresAt (ms : Draft.Members) (e : Nat) : Prop :=
  ∃ l x q, valuesNamed "exp" ms = [.number l] ∧ l.value? = some x ∧ x.rational? = some q ∧ 0 ≤ q ∧ round q = e ∧
    e < 2 ^ 64

/-- The payload is meant for somebody in particular. -/
def NamesAudience (ms : Draft.Members) : Prop := ∃ d ∈ valuesNamed "aud" ms, d.IsNames

/-- The names of the claims are texts, and each registered claim comes at most once and can be read. -/
structure Orderly (ms : Draft.Members) : Prop where
  named : Named ms
  once : ∀ claim : Registered, (valuesNamed claim.name ms).length ≤ 1
  legible : ∀ claim : Registered, ∀ d ∈ valuesNamed claim.name ms, claim.Legible d

theorem isString_value_iff {d : Draft} : d.value?.any isString = true ↔ d.IsText := by
  unfold Draft.IsText
  rw [Option.any_eq_true]
  constructor
  · rintro ⟨v, hv, hstring⟩
    cases v with
    | text text =>
      obtain ⟨ps, rfl, htext⟩ := Draft.value?_eq_text_iff.mp hv
      exact ⟨ps, rfl, text, htext⟩
    | _ => cases hstring
  · rintro ⟨ps, rfl, text, htext⟩
    exact ⟨.text text, Draft.value?_eq_text_iff.mpr ⟨ps, rfl, htext⟩, rfl⟩

theorem all_isString_iff {ds : List Draft} :
    (itemValues? ds).any (·.all isString) = true ↔ ∀ d ∈ ds, d.IsText := by
  induction ds with
  | nil => simp [itemValues?]
  | cons d ds ih =>
    rw [List.forall_mem_cons, ← ih, ← isString_value_iff, itemValues?]
    cases d.value? with
    | none => simp
    | some v => cases itemValues? ds <;> simp

theorem isNames_value_iff {d : Draft} : d.value?.any isNames = true ↔ d.IsNames := by
  have hsplit : d.value?.any isNames = (d.value?.any isString || d.value?.any isTexts) := by
    cases d.value? <;> rfl
  rw [hsplit, Bool.or_eq_true, isString_value_iff]
  apply or_congr_right
  rw [Option.any_eq_true]
  constructor
  · rintro ⟨v, hv, htexts⟩
    cases v with
    | array vs =>
      obtain ⟨ds, rfl, hitems⟩ := Draft.value?_eq_array_iff.mp hv
      exact ⟨ds, rfl, all_isString_iff.mp ((Option.any_eq_true _ _).mpr ⟨vs, hitems, htexts⟩)⟩
    | _ => cases htexts
  · rintro ⟨ds, rfl, htexts⟩
    obtain ⟨vs, hitems, hall⟩ := (Option.any_eq_true _ _).mp (all_isString_iff.mpr htexts)
    exact ⟨.array vs, Draft.value?_eq_array_iff.mpr ⟨ds, rfl, hitems⟩, hall⟩

theorem moment?_value_iff {d : Draft} : d.value?.bind moment? = some e ↔
    ∃ l x q, d = .number l ∧ l.value? = some x ∧ x.rational? = some q ∧ 0 ≤ q ∧ round q = e ∧ e < 2 ^ 64 := by
  rw [Option.bind_eq_some_iff]
  constructor
  · rintro ⟨v, hv, hmoment⟩
    cases v with
    | number x =>
      obtain ⟨l, rfl, hx⟩ := Draft.value?_eq_number_iff.mp hv
      obtain ⟨q, hq⟩ := (moment?_eq_some_iff (Literal.value?_canonical hx)).mp hmoment
      exact ⟨l, x, q, rfl, hx, hq⟩
    | _ => cases hmoment
  · rintro ⟨l, x, q, rfl, hx, hq⟩
    refine ⟨.number x, Draft.value?_eq_number_iff.mpr ⟨l, rfl, hx⟩, ?_⟩
    exact (moment?_eq_some_iff (Literal.value?_canonical hx)).mpr ⟨q, hq⟩

theorem head?_eq_some_iff {α : Type} {xs : List α} (h : xs.length ≤ 1) {x : α} : xs.head? = some x ↔ xs = [x] := by
  rcases xs with _ | ⟨y, _ | ⟨z, xs⟩⟩
  · simp
  · simp
  · simp at h

section
variable (honce : ∀ claim : Registered, (valuesNamed claim.name ms).length ≤ 1)
include honce

theorem expiry_claimsOf_iff : (claimsOf text ms).expiry = some e ↔ ExpiresAt ms e := by
  have hone : (valuesNamed "exp" ms).length ≤ 1 := honce .expiry
  unfold claimsOf ExpiresAt
  rw [Option.bind_eq_some_iff]
  simp only [head?_eq_some_iff hone, moment?_value_iff]
  constructor
  · rintro ⟨d, hd, l, x, q, rfl, hq⟩
    exact ⟨l, x, q, hd, hq⟩
  · rintro ⟨l, x, q, hd, hq⟩
    exact ⟨.number l, hd, l, x, q, rfl, hq⟩

theorem hasAudience_claimsOf_iff : (claimsOf text ms).hasAudience = true ↔ NamesAudience ms := by
  have hone : (valuesNamed "aud" ms).length ≤ 1 := honce .audience
  unfold claimsOf NamesAudience
  rw [Option.any_eq_true]
  simp only [head?_eq_some_iff hone, isNames_value_iff]
  constructor
  · rintro ⟨d, hd, hnames⟩
    exact ⟨d, hd ▸ List.mem_singleton_self d, hnames⟩
  · rintro ⟨d, hd, hnames⟩
    obtain ⟨d', hd'⟩ := List.length_eq_one_iff.mp (Nat.le_antisymm hone (List.length_pos_of_mem hd))
    rw [hd', List.mem_singleton] at hd
    exact ⟨d, by rw [hd', hd], hnames⟩

end

end Subject

/-! ## Tokens -/

/-- What a token is made of: its parts, the algorithm that its header names and the claims of its payload. -/
structure Opened (token : String) (parts : TokenParts) (algorithm : Algorithm) (ms : Draft.Members) : Prop where
  split : parts.Of token
  header : ∃ src, Encodes parts.header src ∧ algorithmOf? src = some algorithm
  payload : ∃ src, Encodes parts.claims src ∧ IsObject src ms

theorem Encodes.unique {part : List Char} {src src' : Source} (h : Encodes part src) (h' : Encodes part src') :
    src = src' := by
  have hread := decodePart_eq_ok_iff.mpr h
  rw [decodePart_eq_ok_iff.mpr h'] at hread
  exact (Except.ok.inj hread).symm

theorem Opened.unique {token : String} {parts parts' : TokenParts} {algorithm algorithm' : Algorithm}
    {ms ms' : Draft.Members} (h : Opened token parts algorithm ms) (h' : Opened token parts' algorithm' ms') :
    parts = parts' ∧ algorithm = algorithm' ∧ ms = ms' := by
  have hparts := ofText?_eq_some_iff.mpr h.split
  rw [ofText?_eq_some_iff.mpr h'.split] at hparts
  obtain rfl := Option.some.inj hparts
  obtain ⟨header, hheader, halgorithm⟩ := h.header
  obtain ⟨header', hheader', halgorithm'⟩ := h'.header
  obtain ⟨payload, hpayload, hobject⟩ := h.payload
  obtain ⟨payload', hpayload', hobject'⟩ := h'.payload
  obtain rfl := hheader.unique hheader'
  obtain rfl := hpayload.unique hpayload'
  rw [halgorithm'] at halgorithm
  exact ⟨rfl, (Option.some.inj halgorithm).symm, hobject.unique hobject'⟩

namespace SubjectVerifier

section
variable {v : SubjectVerifier} {now : Int} {token : String} {parts : TokenParts} {algorithm : Algorithm}
    {ms : Draft.Members}

theorem claims_of_parts {header payload : Source} {claims : Claims} (hsplit : parts.Of token)
    (hheader : Encodes parts.header header) (halgorithm : algorithmOf? header = some algorithm)
    (hpayload : Encodes parts.claims payload) (hclaims : Claims.ofSource payload = .ok claims) :
    v.claims now token = (v.checkSignature algorithm parts).bind fun _ =>
      (v.checkExpiry now claims).bind fun _ => if claims.hasAudience then .error .audience else .ok claims := by
  simp only [SubjectVerifier.claims, ofText?_eq_some_iff.mpr hsplit, decodePart_eq_ok_iff.mpr hheader,
    decodePart_eq_ok_iff.mpr hpayload, halgorithm, hclaims, bind, Except.bind, Except.mapError]
  rfl

theorem claims_eq_ok_iff {claims : Claims} : v.claims now token = .ok claims ↔
    ∃ parts header algorithm payload, parts.Of token ∧ Encodes parts.header header ∧
      algorithmOf? header = some algorithm ∧ Encodes parts.claims payload ∧ Claims.ofSource payload = .ok claims ∧
      v.checkSignature algorithm parts = .ok () ∧ v.checkExpiry now claims = .ok () ∧
      claims.hasAudience = false := by
  constructor
  · intro h
    unfold SubjectVerifier.claims at h
    split at h
    · next parts hparts =>
      obtain ⟨header, hheader, h⟩ := exists_of_bind_ok h
      split at h
      · next algorithm halgorithm =>
        obtain ⟨⟨⟩, hsignature, h⟩ := exists_of_bind_ok h
        obtain ⟨payload, hpayload, h⟩ := exists_of_bind_ok h
        obtain ⟨claims', hclaims, h⟩ := exists_of_bind_ok h
        obtain ⟨⟨⟩, hexpiry, h⟩ := exists_of_bind_ok h
        split at h
        · cases h
        · next haudience =>
          cases h
          exact ⟨parts, header, algorithm, payload, ofText?_eq_some_iff.mp hparts, decodePart_eq_ok_iff.mp hheader,
            halgorithm, decodePart_eq_ok_iff.mp hpayload, mapError_eq_ok_iff.mp hclaims, hsignature, hexpiry,
            Bool.eq_false_iff.mpr haudience⟩
      · cases h
    · cases h
  · rintro ⟨parts, header, algorithm, payload, hsplit, hheader, halgorithm, hpayload, hclaims, hsignature, hexpiry,
      haudience⟩
    rw [claims_of_parts hsplit hheader halgorithm hpayload hclaims, hsignature, hexpiry]
    exact if_neg (Bool.eq_false_iff.mp haudience)

theorem opened_of_claims {claims : Claims} (h : v.claims now token = .ok claims) :
    ∃ parts algorithm ms, Opened token parts algorithm ms ∧ v.checkSignature algorithm parts = .ok () ∧
      v.checkExpiry now claims = .ok () ∧ claims.hasAudience = false ∧
      (∀ claim : Registered, (valuesNamed claim.name ms).length ≤ 1) ∧ SubjectIs ms claims.subject ∧
      claims = claimsOf claims.subject ms := by
  obtain ⟨parts, header, algorithm, payload, hsplit, hheader, halgorithm, hpayload, hclaims, hsignature, hexpiry,
    haudience⟩ := claims_eq_ok_iff.mp h
  obtain ⟨ms, ps, hobject, -, honce, hps, htext, heq⟩ := claims_of_ofSource hclaims
  exact ⟨parts, algorithm, ms, ⟨hsplit, ⟨header, hheader, halgorithm⟩, ⟨payload, hpayload, hobject⟩⟩, hsignature,
    hexpiry, haudience, honce, ⟨ps, hps, htext⟩, heq⟩

theorem claims_of_opened {username : String} (hopened : Opened token parts algorithm ms) (horderly : Orderly ms)
    (hsubject : SubjectIs ms username) :
    v.claims now token = (v.checkSignature algorithm parts).bind fun _ =>
      (v.checkExpiry now (claimsOf username ms)).bind fun _ =>
        if (claimsOf username ms).hasAudience then .error .audience else .ok (claimsOf username ms) := by
  obtain ⟨header, hheader, halgorithm⟩ := hopened.header
  obtain ⟨payload, hpayload, hobject⟩ := hopened.payload
  obtain ⟨ps, hps, htext⟩ := hsubject
  exact claims_of_parts hopened.split hheader halgorithm hpayload
    (ofSource_of_claims hobject horderly.named horderly.once horderly.legible hps htext)

end

end SubjectVerifier

end WalletTopUp
