import Mathlib.Data.List.Nodup
import WalletTopUp.Proofs.Subject.Token

/-!
# Tokens that are accepted

With a secret, a token is accepted only if it is signed with the secret, has not expired, is meant for nobody in
particular and has a subject that is not blank; and it is accepted if, beyond that, its other claims are simple
(`subject_verified`). Without a secret the subject of every token is taken as it stands, unless the token is meant for
somebody in particular (`subject_unverified`).
-/

namespace WalletTopUp

open Json Subject

/-- A secret admits the token at a moment, for this subject. -/
structure Admissible (secret : List UInt8) (now : Int) (token : String) (parts : TokenParts) (ms : Draft.Members)
    (username : String) : Prop where
  opened : Opened token parts hs256 ms
  signature : parts.signature = Text.Base64Url.encode (Hmac.sha256 secret parts.signed)
  expiry : ∃ e : Nat, ExpiresAt ms e ∧ now - 60 ≤ e
  audience : ¬ NamesAudience ms
  subject : SubjectIs ms username
  notBlank : ∃ c ∈ username.toList, Text.isBlank c = false

/-- A text, a number, `true`, `false` or `null`. -/
def Json.Draft.IsSimple : Draft → Prop
  | .text ps => ∃ text, textOf? ps = some text
  | .number l => ∃ x, l.value? = some x
  | .flag _ | .null => True
  | _ => False

/-- The names of the claims are texts and differ, and the claims that are not checked are simple. An audience can be any
value, as long as it can be read. -/
structure Plain (ms : Draft.Members) : Prop where
  named : Named ms
  nodup : (ms.map fun m => textOf? m.1).Nodup
  audience : ∀ d ∈ valuesNamed "aud" ms, d.depth ≤ 126 ∧ ∃ value, d.value? = some value
  others : ∀ m ∈ ms, textOf? m.1 ∉ [some "exp", some "aud", some "sub"] → m.2.IsSimple

section
variable {ms : Draft.Members} {username : String} {claim : Registered} {d : Draft}

theorem legible_of_simple (h : d.IsSimple) : claim.Legible d := by
  have hscalar : d.depth = 0 ∧ d.value?.isSome = true := by
    cases d with
    | text ps =>
      obtain ⟨text, htext⟩ := h
      simp [Draft.depth, Draft.value?, htext]
    | number l =>
      obtain ⟨x, hx⟩ := h
      simp [Draft.depth, Draft.value?, hx]
    | array ds => cases h
    | object ms => cases h
    | _ => simp [Draft.depth, Draft.value?]
  unfold Registered.Legible
  split
  · exact .inr (.inr hscalar)
  · exact ⟨by rw [hscalar.1]; exact Nat.zero_le _, hscalar.2⟩

theorem length_valuesNamed_le (h : (ms.map fun m => textOf? m.1).Nodup) (name : String) :
    (valuesNamed name ms).length ≤ 1 := by
  rw [valuesNamed, List.length_map, ← List.countP_eq_length_filter]
  calc ms.countP (fun m => textOf? m.1 = some name)
      = (ms.map fun m => textOf? m.1).count (some name) := by
        rw [List.count, List.countP_map]
        exact List.countP_congr fun m _ => by simp
    _ ≤ 1 := List.nodup_iff_count_le_one.mp h (some name)

theorem orderly_of_plain {e : Nat} (h : Plain ms) (hexpiry : ExpiresAt ms e) (hsubject : SubjectIs ms username) :
    Orderly ms := by
  refine ⟨h.named, fun claim => length_valuesNamed_le h.nodup _, fun claim d hd => ?_⟩
  have hother : claim.name ∉ ["exp", "aud", "sub"] → claim.Legible d := by
    intro hname
    obtain ⟨ps, hmem, htext⟩ := mem_valuesNamed.mp hd
    apply legible_of_simple
    apply h.others _ hmem
    rw [htext]
    simpa using hname
  cases claim with
  | expiry =>
    obtain ⟨l, x, -, hone, hx, -⟩ := hexpiry
    obtain rfl : d = .number l := List.mem_singleton.mp (hone ▸ hd)
    exact legible_of_simple ⟨x, hx⟩
  | subject =>
    obtain ⟨ps, hone, htext⟩ := hsubject
    obtain rfl : d = .text ps := List.mem_singleton.mp (hone ▸ hd)
    exact legible_of_simple ⟨username, htext⟩
  | audience => exact ⟨(h.audience d hd).1, Option.isSome_iff_exists.mpr (h.audience d hd).2⟩
  | start => exact hother (by decide)
  | issuer => exact hother (by decide)

end

namespace SubjectVerifier

section
variable {v : SubjectVerifier} {secret : List UInt8} {now : Int} {token username : String} {parts : TokenParts}
variable {algorithm : Algorithm} {ms : Draft.Members} {claims : Claims}

theorem checkSignature_eq_ok_iff : (mk (some secret)).checkSignature algorithm parts = .ok () ↔
    algorithm = hs256 ∧ parts.signature = Text.Base64Url.encode (Hmac.sha256 secret parts.signed) := by
  simp only [checkSignature, TokenParts.isSignedWith, beq_iff_eq]
  by_cases halgorithm : algorithm = hs256
  · by_cases hsignature : parts.signature = Text.Base64Url.encode (Hmac.sha256 secret parts.signed)
    · simp [halgorithm, hsignature]
    · simp [halgorithm, hsignature]
  · simp [halgorithm]

theorem checkExpiry_eq_ok_iff : (mk (some secret)).checkExpiry now claims = .ok () ↔
    ∃ e : Nat, claims.expiry = some e ∧ now - 60 ≤ e := by
  unfold checkExpiry leeway
  cases claims.expiry with
  | none => simp
  | some e =>
    by_cases hexpired : (e : Int) < now - 60
    · simp only [if_pos hexpired, reduceCtorEq, Option.some.injEq, exists_eq_left', false_iff]
      omega
    · simp only [if_neg hexpired, Option.some.injEq, exists_eq_left', true_iff]
      omega

theorem isAllBlank_eq_false_iff : Text.isAllBlank username = false ↔ ∃ c ∈ username.toList, Text.isBlank c = false := by
  simp [Text.isAllBlank]

theorem subject_eq_ok_iff : v.subject now token = .ok username ↔
    ∃ claims, v.claims now token = .ok claims ∧ claims.subject = username ∧
      ∃ c ∈ username.toList, Text.isBlank c = false := by
  rw [← isAllBlank_eq_false_iff]
  unfold subject
  cases v.claims now token with
  | error fault => simp
  | ok claims =>
    by_cases hblank : Text.isAllBlank claims.subject = true
    · simp only [if_pos hblank, reduceCtorEq, Except.ok.injEq, exists_eq_left', false_iff]
      rintro ⟨rfl, hfalse⟩
      rw [hblank] at hfalse
      cases hfalse
    · simp only [if_neg hblank, Except.ok.injEq, exists_eq_left']
      constructor
      · rintro rfl
        exact ⟨rfl, Bool.eq_false_iff.mpr hblank⟩
      · rintro ⟨rfl, -⟩
        rfl

theorem unauthenticated_of_subject_error {fault : Fault} (h : v.subject now token = .error fault) :
    ∃ cause, fault = .unauthenticated cause := by
  unfold subject at h
  split at h
  · cases h
    exact ⟨_, rfl⟩
  · split at h
    · cases h
      exact ⟨_, rfl⟩
    · cases h

theorem admissible_of_subject (h : (mk (some secret)).subject now token = .ok username) :
    ∃ parts ms, Admissible secret now token parts ms username := by
  obtain ⟨claims, hclaims, rfl, hblank⟩ := subject_eq_ok_iff.mp h
  obtain ⟨parts, algorithm, ms, hopened, hsignature, hexpiry, haudience, honce, hsubject, heq⟩ :=
    opened_of_claims hclaims
  obtain ⟨rfl, hsigned⟩ := checkSignature_eq_ok_iff.mp hsignature
  obtain ⟨e, he, hnow⟩ := checkExpiry_eq_ok_iff.mp hexpiry
  rw [heq] at he haudience
  refine ⟨parts, ms, hopened, hsigned, ⟨e, (expiry_claimsOf_iff honce).mp he, hnow⟩, ?_, hsubject, hblank⟩
  intro hnames
  rw [(hasAudience_claimsOf_iff honce).mpr hnames] at haudience
  cases haudience

theorem subject_of_admissible (h : Admissible secret now token parts ms username) (horderly : Orderly ms) :
    (mk (some secret)).subject now token = .ok username := by
  obtain ⟨e, hexpiry, hnow⟩ := h.expiry
  have hsignature := checkSignature_eq_ok_iff.mpr ⟨rfl, h.signature⟩
  have hvalid : (mk (some secret)).checkExpiry now (claimsOf username ms) = .ok () :=
    checkExpiry_eq_ok_iff.mpr ⟨e, (expiry_claimsOf_iff horderly.once).mpr hexpiry, hnow⟩
  refine subject_eq_ok_iff.mpr ⟨claimsOf username ms, ?_, rfl, h.notBlank⟩
  rw [claims_of_opened h.opened horderly h.subject, hsignature, hvalid]
  exact if_neg fun haudience => h.audience ((hasAudience_claimsOf_iff horderly.once).mp haudience)

/-- **Tokens under a secret.** -/
theorem subject_verified (secret : List UInt8) (now : Int) (token : String) :
    (∀ username, (mk (some secret)).subject now token = .ok username →
      ∃ parts ms, Admissible secret now token parts ms username) ∧
    (∀ username parts ms, Admissible secret now token parts ms username → Plain ms →
      (mk (some secret)).subject now token = .ok username) ∧
    ∀ fault, (mk (some secret)).subject now token = .error fault →
      (∃ cause, fault = .unauthenticated cause) ∧ fault.status = 401 := by
  refine ⟨fun username h => admissible_of_subject h, fun username parts ms h hplain => ?_, fun fault h => ?_⟩
  · obtain ⟨e, hexpiry, -⟩ := h.expiry
    exact subject_of_admissible h (orderly_of_plain hplain hexpiry h.subject)
  · obtain ⟨cause, rfl⟩ := unauthenticated_of_subject_error h
    exact ⟨⟨cause, rfl⟩, rfl⟩

end

/-! ## Tokens for one user -/

namespace Sample

def ascii (cs : List Char) : List UInt8 := cs.map fun c => UInt8.ofNat c.toNat

theorem decode_ascii {cs : List Char} (h : cs.all (·.toNat < 128) = true) : Text.decode (ascii cs) = written cs := by
  induction cs with
  | nil =>
    show Text.decode [] = []
    rw [Text.decode]
  | cons c cs ih =>
    rw [List.all_cons, Bool.and_eq_true, decide_eq_true_eq] at h
    have hbyte : (UInt8.ofNat c.toNat).toNat = c.toNat := by
      rw [UInt8.toNat_ofNat']
      exact Nat.mod_eq_of_lt (by omega)
    have hlt : UInt8.ofNat c.toNat < 0x80 := by
      rw [UInt8.lt_iff_toNat_lt, hbyte]
      exact h.1
    show Text.decode (UInt8.ofNat c.toNat :: ascii cs) = .ok c :: written cs
    rw [Text.decode, if_pos hlt, ih h.2, hbyte, Char.ofNat_toNat]

def quoted (cs rest : List Char) : List Char := '"' :: (cs ++ '"' :: rest)

def plainPieces (cs : List Char) : List Piece := cs.map fun c => .plain (.ok c)

/-- The character stands for itself in a string. -/
def isPlain (c : Char) : Bool := c ≠ '"' ∧ c ≠ '\\' ∧ ¬ c.toNat < 0x20

theorem textOf?_plain (cs : List Char) : textOf? (plainPieces cs) = some (String.ofList cs) := by
  have hchars : charsOf? (plainPieces cs) = some cs := by
    induction cs with
    | nil => rfl
    | cons c cs ih =>
      show charsOf? (.plain (.ok c) :: plainPieces cs) = some (c :: cs)
      rw [charsOf?_plain, ih]
      rfl
  rw [textOf?, hchars]
  rfl

section
variable {cs rest value middle : List Char} {d : Draft} {ms : Draft.Members}

theorem pieces_plain (h : cs.all isPlain = true) :
    Pieces (plainPieces cs) (written (cs ++ '"' :: rest)) (written rest) := by
  induction cs with
  | nil => exact .closed _
  | cons c cs ih =>
    rw [List.all_cons, Bool.and_eq_true] at h
    have hc : c ≠ '"' ∧ c ≠ '\\' ∧ ¬ c.toNat < 0x20 := of_decide_eq_true h.1
    exact .plain hc (ih h.2)

theorem spelled_quoted (h : cs.all isPlain = true) :
    Spelled (.value (.text (plainPieces cs))) (written (quoted cs rest)) (written rest) :=
  .text rfl (pieces_plain h)

theorem spelled_first (h : cs.all isPlain = true) (hd : Spelled (.value d) (written value) (written middle))
    (hms : Spelled (.members false ms) (written middle) []) :
    Spelled (.members true ((plainPieces cs, d) :: ms)) (written (quoted cs (':' :: value))) [] :=
  .member rfl rfl (pieces_plain h) rfl hd hms

theorem spelled_next (h : cs.all isPlain = true) (hd : Spelled (.value d) (written value) (written middle))
    (hms : Spelled (.members false ms) (written middle) []) :
    Spelled (.members false ((plainPieces cs, d) :: ms)) (written (',' :: quoted cs (':' :: value))) [] :=
  .member rfl rfl (pieces_plain h) rfl hd hms

end

/-- A payload with a subject, an expiry in the year 2100 and an audience. -/
def payload (audience : List Char) : List Char :=
  '\x7b' :: quoted "sub".toList (':' :: quoted "johndoe".toList (',' :: quoted "exp".toList (':' ::
    ("4102444800".toList ++ ',' :: quoted "aud".toList (':' :: (audience ++ ['\x7d']))))))

def expiry : Literal := ⟨false, "4102444800".toList, none, none⟩

def members (audience : Draft) : Draft.Members :=
  [(plainPieces "sub".toList, .text (plainPieces "johndoe".toList)), (plainPieces "exp".toList, .number expiry),
    (plainPieces "aud".toList, audience)]

theorem spelled_expiry (rest : List Char) :
    Spelled (.value (.number expiry)) (written ("4102444800".toList ++ ',' :: rest)) (written (',' :: rest)) :=
  .number rfl

section
variable {audience : Draft} {value : List Char}

theorem isObject_payload (h : Spelled (.value audience) (written (value ++ ['\x7d'])) (written ['\x7d'])) :
    IsObject (written (payload value)) (members audience) := by
  have hsub : "sub".toList.all isPlain = true := by decide
  have hexp : "exp".toList.all isPlain = true := by decide
  have haud : "aud".toList.all isPlain = true := by decide
  have hname : "johndoe".toList.all isPlain = true := by decide
  have haudience := spelled_next haud h (.noMember rfl)
  have hexpiry := spelled_next hexp (spelled_expiry _) haudience
  have hsubject := spelled_first hsub (spelled_quoted hname) hexpiry
  exact ⟨[], .object rfl hsubject, rfl⟩

theorem valuesNamed_members (audience : Draft) (name : String) : valuesNamed name (members audience) =
    if name = "sub" then [.text (plainPieces "johndoe".toList)]
    else if name = "exp" then [.number expiry] else if name = "aud" then [audience] else [] := by
  by_cases hsub : name = "sub"
  · subst hsub
    simp [valuesNamed, members, textOf?_plain]
  by_cases hexp : name = "exp"
  · subst hexp
    simp [valuesNamed, members, textOf?_plain]
  by_cases haud : name = "aud"
  · subst haud
    simp [valuesNamed, members, textOf?_plain]
  · simp [valuesNamed, members, textOf?_plain, hsub, hexp, haud, Ne.symm hsub, Ne.symm hexp, Ne.symm haud]

theorem once_members (audience : Draft) (claim : Registered) :
    (valuesNamed claim.name (members audience)).length ≤ 1 := by
  rw [valuesNamed_members]
  split_ifs <;> simp

theorem subjectIs_members (audience : Draft) : SubjectIs (members audience) "johndoe" := by
  refine ⟨plainPieces "johndoe".toList, ?_, ?_⟩
  · rw [valuesNamed_members, if_pos rfl]
  · rw [textOf?_plain, String.ofList_toList]

theorem expiresAt_members (audience : Draft) : ExpiresAt (members audience) 4102444800 := by
  have hexpiry : (claimsOf "johndoe" (members audience)).expiry = some 4102444800 ↔ _ :=
    expiry_claimsOf_iff (once_members audience)
  apply hexpiry.mp
  rw [claimsOf, valuesNamed_members, if_neg (by decide), if_pos rfl]
  rfl

theorem namesAudience_members : NamesAudience (members audience) ↔ audience.IsNames := by
  unfold NamesAudience
  rw [valuesNamed_members, if_neg (by decide), if_neg (by decide), if_pos rfl]
  simp

/-- The names of these claims are texts that differ, and no claim is left that is not checked. -/
theorem names_members (audience : Draft) : Named (members audience) ∧
    ((members audience).map fun m => textOf? m.1).Nodup ∧
    ∀ m ∈ members audience, textOf? m.1 ∉ [some "exp", some "aud", some "sub"] → m.2.IsSimple := by
  simp [Named, members, textOf?_plain]

theorem plain_members (hdepth : audience.depth ≤ 126) {v : Json} (hvalue : audience.value? = some v) :
    Plain (members audience) := by
  obtain ⟨hnamed, hnodup, hothers⟩ := names_members audience
  refine ⟨hnamed, hnodup, fun d hd => ?_, hothers⟩
  rw [valuesNamed_members, if_neg (by decide), if_neg (by decide), if_pos rfl, List.mem_singleton] at hd
  subst hd
  exact ⟨hdepth, v, hvalue⟩

def key : List UInt8 := Text.bytes "s3cret"

def header : List Char := "\x7b\"alg\":\"HS256\"\x7d".toList

def unsigned (audience : List Char) : TokenParts where
  header := Text.Base64Url.encode (ascii header)
  claims := Text.Base64Url.encode (ascii (payload audience))
  signature := []

/-- The token with this payload, signed with the secret. -/
def signed (audience : List Char) : TokenParts :=
  { unsigned audience with signature := Text.Base64Url.encode (Hmac.sha256 key (unsigned audience).signed) }

def token (parts : TokenParts) : String :=
  String.ofList (parts.header ++ '.' :: parts.claims ++ '.' :: parts.signature)

theorem of_signed (value : List Char) : (signed value).Of (token (signed value)) :=
  ⟨String.toList_ofList, Text.Base64Url.dot_not_mem_encode _, Text.Base64Url.dot_not_mem_encode _⟩

theorem signature_signed (value : List Char) :
    (signed value).signature = Text.Base64Url.encode (Hmac.sha256 key (signed value).signed) := rfl

theorem encodes_header (value : List Char) : Encodes (signed value).header (written header) :=
  ⟨ascii header, rfl, decode_ascii (by decide)⟩

theorem encodes_payload (h : (payload value).all (·.toNat < 128) = true) :
    Encodes (signed value).claims (written (payload value)) :=
  ⟨ascii (payload value), rfl, decode_ascii h⟩

theorem algorithmOf?_header : algorithmOf? (written header) = some hs256 := by
  decide +kernel

theorem opened_signed (hascii : (payload value).all (·.toNat < 128) = true)
    (h : Spelled (.value audience) (written (value ++ ['\x7d'])) (written ['\x7d'])) :
    Opened (token (signed value)) (signed value) hs256 (members audience) :=
  ⟨of_signed value, ⟨_, encodes_header value, algorithmOf?_header⟩, ⟨_, encodes_payload hascii, isObject_payload h⟩⟩

theorem notBlank_johndoe : ∃ c ∈ "johndoe".toList, Text.isBlank c = false := ⟨'j', by decide, rfl⟩

theorem not_isNames_null : ¬ Draft.null.IsNames := by
  rintro (⟨ps, htext, -⟩ | ⟨ds, harray, -⟩)
  · cases htext
  · cases harray

theorem spelled_null : Spelled (.value .null) (written ("null".toList ++ ['\x7d'])) (written ['\x7d']) := .null rfl

theorem ascii_null : (payload "null".toList).all (·.toNat < 128) = true := by
  decide

theorem plain_null : Plain (members .null) := plain_members (Nat.zero_le _) rfl

theorem admissible_signed (hascii : (payload value).all (·.toNat < 128) = true)
    (h : Spelled (.value audience) (written (value ++ ['\x7d'])) (written ['\x7d'])) (hnobody : ¬ audience.IsNames) :
    Admissible key 1700000000 (token (signed value)) (signed value) (members audience) "johndoe" :=
  ⟨opened_signed hascii h, signature_signed value, ⟨4102444800, expiresAt_members audience, by decide⟩,
    fun hnames => hnobody (namesAudience_members.mp hnames), subjectIs_members audience, notBlank_johndoe⟩

end

def nest : Nat → Draft
  | 0 => .array []
  | n + 1 => .array [nest n]

def brackets (n : Nat) : List Char := List.replicate n '[' ++ List.replicate n ']'

theorem spelled_nest (n : Nat) (rest : List Char) :
    Spelled (.value (nest n)) (written (brackets (n + 1) ++ rest)) (written rest) := by
  induction n generalizing rest with
  | zero => exact .array rfl (.noItem rfl)
  | succ n ih =>
    have hbrackets : brackets (n + 2) ++ rest = '[' :: (brackets (n + 1) ++ ']' :: rest) := by
      rw [brackets, brackets, List.replicate_succ, List.replicate_succ' (n := n + 1)]
      simp
    rw [hbrackets]
    exact .array rfl (.item rfl (ih (']' :: rest)) (.noItem rfl))

theorem not_isNames_nest (n : Nat) : ¬ (nest (n + 1)).IsNames := by
  rintro (⟨ps, htext, -⟩ | ⟨ds, harray, hall⟩)
  · cases htext
  · cases harray
    obtain ⟨ps, htext, -⟩ := hall (nest n) List.mem_cons_self
    cases n <;> cases htext

def half : List Char := "\"\\ud800\"".toList

theorem ascii_half : (payload half).all (·.toNat < 128) = true := by
  decide

theorem ascii_brackets : (payload (brackets 127)).all (·.toNat < 128) = true := by
  decide +kernel

theorem ofSource_half : Claims.ofSource (written (payload half)) = .ok ⟨"johndoe", some 4102444800, false⟩ := by
  decide +kernel

theorem ofSource_brackets : (Claims.ofSource (written (payload (brackets 127)))).toOption = none := by
  decide +kernel

end Sample

section
open Sample

/-- A token with an audience that is none is accepted, and a text that is no token is refused. -/
theorem subject_verified_johndoe :
    Admissible key 1700000000 (token (signed "null".toList)) (signed "null".toList) (members .null) "johndoe" ∧
      Plain (members .null) ∧
      (mk (some key)).subject 1700000000 (token (signed "null".toList)) = .ok "johndoe" ∧
      (∃ parts ms, Admissible key 1700000000 (token (signed "null".toList)) parts ms "johndoe") ∧
      (mk (some key)).subject 1700000000 "" = .error (refuse "Invalid token: InvalidToken") ∧
      (refuse "Invalid token: InvalidToken").status = 401 := by
  have hadmissible := admissible_signed ascii_null spelled_null not_isNames_null
  obtain ⟨hforward, hconverse, -⟩ := subject_verified key 1700000000 (token (signed "null".toList))
  have haccepted := hconverse "johndoe" _ _ hadmissible plain_null
  have hrefused : (mk (some key)).subject 1700000000 "" = .error (refuse "Invalid token: InvalidToken") := rfl
  exact ⟨hadmissible, plain_null, haccepted, hforward "johndoe" haccepted, hrefused,
    ((subject_verified key 1700000000 "").2.2 _ hrefused).2⟩

/-- A token is accepted with an audience that is a string by the grammar but stands for no text. One that meets every
condition is refused, because its audience, which is no name, has too many brackets inside one another. -/
theorem subject_verified_limits :
    (Opened (token (signed half)) (signed half) hs256 (members (.text [.unit 0xd800])) ∧
      (mk (some key)).subject 1700000000 (token (signed half)) = .ok "johndoe") ∧
    Admissible key 1700000000 (token (signed (brackets 127))) (signed (brackets 127)) (members (nest 126)) "johndoe" ∧
      (Named (members (nest 126)) ∧ ((members (nest 126)).map fun m => textOf? m.1).Nodup ∧
        ∀ m ∈ members (nest 126), textOf? m.1 ∉ [some "exp", some "aud", some "sub"] → m.2.IsSimple) ∧
      ∀ username, (mk (some key)).subject 1700000000 (token (signed (brackets 127))) ≠ .ok username := by
  refine ⟨⟨opened_signed ascii_half (.text rfl (.unit rfl (.closed _))), ?_⟩,
    admissible_signed ascii_brackets (spelled_nest 126 _) (not_isNames_nest 125), names_members _, ?_⟩
  · have hsignature := checkSignature_eq_ok_iff.mpr ⟨rfl, signature_signed half⟩
    have hexpiry : (mk (some key)).checkExpiry 1700000000 ⟨"johndoe", some 4102444800, false⟩ = .ok () :=
      checkExpiry_eq_ok_iff.mpr ⟨4102444800, rfl, by decide⟩
    refine subject_eq_ok_iff.mpr ⟨⟨"johndoe", some 4102444800, false⟩, claims_eq_ok_iff.mpr ?_, rfl, notBlank_johndoe⟩
    exact ⟨_, _, _, _, of_signed half, encodes_header half, algorithmOf?_header, encodes_payload ascii_half,
      ofSource_half, hsignature, hexpiry, rfl⟩
  · intro username h
    obtain ⟨claims, hclaims, -⟩ := subject_eq_ok_iff.mp h
    obtain ⟨parts, -, -, payload, hsplit, -, -, hpayload, hread, -⟩ := claims_eq_ok_iff.mp hclaims
    have hparts := ofText?_eq_some_iff.mpr hsplit
    rw [ofText?_eq_some_iff.mpr (of_signed _)] at hparts
    obtain rfl := Option.some.inj hparts
    obtain rfl := hpayload.unique (encodes_payload ascii_brackets)
    have hnone := ofSource_brackets
    rw [hread] at hnone
    cases hnone

end

/-! ## Without a secret -/

section
variable {secret : List UInt8} {now : Int} {token username : String} {parts : TokenParts}
variable {algorithm : Algorithm} {ms : Draft.Members} {v : SubjectVerifier}

theorem claims_unverified (hopened : Opened token parts algorithm ms) (horderly : Orderly ms)
    (hsubject : SubjectIs ms username) : (mk none).claims now token =
      if (claimsOf username ms).hasAudience then .error .audience else .ok (claimsOf username ms) := by
  rw [claims_of_opened hopened horderly hsubject]
  rfl

theorem subject_of_unmeant (hopened : Opened token parts algorithm ms) (horderly : Orderly ms)
    (hsubject : SubjectIs ms username) (hblank : ∃ c ∈ username.toList, Text.isBlank c = false)
    (hnobody : ¬ NamesAudience ms) : (mk none).subject now token = .ok username := by
  refine subject_eq_ok_iff.mpr ⟨claimsOf username ms, ?_, rfl, hblank⟩
  rw [claims_unverified hopened horderly hsubject]
  exact if_neg fun haudience => hnobody ((hasAudience_claimsOf_iff horderly.once).mp haudience)

theorem subject_of_meant (hopened : Opened token parts algorithm ms) (horderly : Orderly ms)
    (hsubject : SubjectIs ms username) (hsomebody : NamesAudience ms) :
    (mk none).subject now token = .error (refuse "Invalid token: InvalidAudience") := by
  have haudience : (claimsOf username ms).hasAudience = true := (hasAudience_claimsOf_iff horderly.once).mpr hsomebody
  have hclaims : (mk none).claims now token = _ := claims_unverified hopened horderly hsubject
  rw [if_pos haudience] at hclaims
  simp only [subject, hclaims]
  rfl

theorem subject_unique (hopened : Opened token parts algorithm ms) (hsubject : SubjectIs ms username) {other : String}
    (h : v.subject now token = .ok other) : other = username := by
  obtain ⟨claims, hclaims, rfl, -⟩ := subject_eq_ok_iff.mp h
  obtain ⟨parts', algorithm', ms', hopened', -, -, -, -, hsubject', -⟩ := opened_of_claims hclaims
  obtain ⟨-, -, rfl⟩ := hopened.unique hopened'
  obtain ⟨ps, hps, htext⟩ := hsubject
  obtain ⟨ps', hps', htext'⟩ := hsubject'
  rw [hps] at hps'
  cases hps'
  rw [htext] at htext'
  exact (Option.some.inj htext').symm

/-- **Tokens without a secret.** -/
theorem subject_unverified (now : Int) (hopened : Opened token parts algorithm ms) (hsubject : SubjectIs ms username)
    (hblank : ∃ c ∈ username.toList, Text.isBlank c = false) :
    (Orderly ms → ¬ NamesAudience ms → (mk none).subject now token = .ok username) ∧
    (Orderly ms → NamesAudience ms →
      (mk none).subject now token = .error (refuse "Invalid token: InvalidAudience")) ∧
    (∀ other, (mk none).subject now token = .ok other → other = username) ∧
    ∀ (now' : Int) (token' : String) parts' algorithm' ms', Opened token' parts' algorithm' ms' →
      SubjectIs ms' username → Orderly ms → Orderly ms' → (NamesAudience ms ↔ NamesAudience ms') →
      (mk none).subject now token = (mk none).subject now' token' := by
  refine ⟨fun horderly hnobody => subject_of_unmeant hopened horderly hsubject hblank hnobody,
    fun horderly hsomebody => subject_of_meant hopened horderly hsubject hsomebody,
    fun other h => subject_unique hopened hsubject h, ?_⟩
  intro now' token' parts' algorithm' ms' hopened' hsubject' horderly horderly' hsame
  by_cases hsomebody : NamesAudience ms
  · rw [subject_of_meant hopened horderly hsubject hsomebody,
      subject_of_meant hopened' horderly' hsubject' (hsame.mp hsomebody)]
  · rw [subject_of_unmeant hopened horderly hsubject hblank hsomebody,
      subject_of_unmeant hopened' horderly' hsubject' hblank fun h => hsomebody (hsame.mpr h)]


end

namespace Sample

theorem spelled_letter : Spelled (.value (.text (plainPieces ['x']))) (written ("\"x\"".toList ++ ['\x7d']))
    (written ['\x7d']) := by
  have hletter : ['x'].all isPlain = true := by decide
  exact spelled_quoted hletter

theorem ascii_letter : (payload "\"x\"".toList).all (·.toNat < 128) = true := by
  decide

theorem opened_unsigned : Opened (token (unsigned "null".toList)) (unsigned "null".toList) hs256 (members .null) :=
  ⟨⟨String.toList_ofList, Text.Base64Url.dot_not_mem_encode _, nofun⟩,
    ⟨_, encodes_header "null".toList, algorithmOf?_header⟩,
    ⟨_, encodes_payload ascii_null, isObject_payload spelled_null⟩⟩

end Sample

section
open Sample

theorem subject_unverified_johndoe :
    (mk none).subject 1700000000 (token (signed "null".toList)) = .ok "johndoe" ∧
      (mk none).subject 1700000000 (token (signed "null".toList)) =
        (mk none).subject 5000000000 (token (unsigned "null".toList)) := by
  have hopened := opened_signed ascii_null spelled_null
  have horderly := orderly_of_plain plain_null (expiresAt_members .null) (subjectIs_members .null)
  obtain ⟨hunmeant, -, -, hsame⟩ := subject_unverified 1700000000 hopened (subjectIs_members .null) notBlank_johndoe
  refine ⟨hunmeant horderly fun hnames => not_isNames_null (namesAudience_members.mp hnames), ?_⟩
  exact hsame 5000000000 _ _ _ _ opened_unsigned (subjectIs_members .null) horderly horderly Iff.rfl

/-- A token with the same subject is refused because it is meant for somebody in particular. -/
theorem subject_unverified_letter :
    Opened (token (signed "\"x\"".toList)) (signed "\"x\"".toList) hs256 (members (.text (plainPieces ['x']))) ∧
      SubjectIs (members (.text (plainPieces ['x']))) "johndoe" ∧
      (mk none).subject 1700000000 (token (signed "\"x\"".toList)) ≠ .ok "johndoe" ∧
      (mk none).subject 1700000000 (token (signed "\"x\"".toList)) ≠
        (mk none).subject 1700000000 (token (signed "null".toList)) := by
  have hopened := opened_signed ascii_letter spelled_letter
  have hsubject := subjectIs_members (.text (plainPieces ['x']))
  have htext : textOf? (plainPieces ['x']) = some "x" := textOf?_plain ['x']
  have hplain : Plain (members (.text (plainPieces ['x']))) :=
    plain_members (Nat.zero_le _) (Draft.value?_eq_text_iff.mpr ⟨_, rfl, htext⟩)
  have horderly := orderly_of_plain hplain (expiresAt_members _) hsubject
  have hrefused : (mk none).subject 1700000000 (token (signed "\"x\"".toList)) = _ :=
    subject_of_meant hopened horderly hsubject (namesAudience_members.mpr (.inl ⟨_, rfl, "x", htext⟩))
  have haccepted : (mk none).subject 1700000000 (token (signed "null".toList)) = .ok "johndoe" :=
    subject_of_unmeant (opened_signed ascii_null spelled_null)
      (orderly_of_plain plain_null (expiresAt_members .null) (subjectIs_members .null)) (subjectIs_members .null)
      notBlank_johndoe fun hnames => not_isNames_null (namesAudience_members.mp hnames)
  rw [hrefused, haccepted]
  exact ⟨hopened, hsubject, nofun, nofun⟩

end

end SubjectVerifier

end WalletTopUp
