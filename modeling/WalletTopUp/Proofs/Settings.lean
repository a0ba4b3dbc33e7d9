import Mathlib.Logic.Function.Basic
import Mathlib.Tactic.SplitIfs
import WalletTopUp.Proofs.Results
import WalletTopUp.Proofs.Text.Digits
import WalletTopUp.Proofs.Text.Utf8
import WalletTopUp.Settings

/-!
# What settings an environment gives

An environment is read variable by variable (`Variable`), each by a rule (`Rule`) that says what it may be set to
(`Rule.Sound`) and which setting that means (`Rule.Means`). The first unsound variable is what an environment fails
on, and when there is none every setting is what its own variable means, whatever the others are set to
(`ofEnvironment_decided`).
-/

namespace WalletTopUp

/-! ## Numerals -/

/-- Digits, perhaps after a plus sign, of a number below the bound. -/
def IsNumeral (bound : Nat) (s : String) (n : Nat) : Prop :=
  ∃ ds : List Char, (s.toList = ds ∨ s.toList = '+' :: ds) ∧ ds ≠ [] ∧ (∀ c ∈ ds, c.isDigit = true) ∧
    Nat.ofDigitChars 10 ds 0 = n ∧ n < bound

section
variable {bound m n : Nat} {s : String} {ds : List Char}

theorem nextDigit_eq_ok_iff {c : Char} :
    nextDigit bound m c = .ok n ↔ c.isDigit = true ∧ 10 * m + (c.toNat - '0'.toNat) = n ∧ n < bound := by
  unfold nextDigit
  dsimp only
  rw [Nat.mul_comm 10]
  split_ifs with hdigit hlt
  · constructor
    · rintro ⟨⟩
      exact ⟨hdigit, rfl, hlt⟩
    · rintro ⟨-, rfl, -⟩
      rfl
  · constructor
    · nofun
    · rintro ⟨-, rfl, hlt'⟩
      exact absurd hlt' hlt
  · exact ⟨nofun, fun h => absurd h.1 hdigit⟩

theorem foldlM_nextDigit_eq_ok_iff (hm : ds = [] → m < bound) : ds.foldlM (nextDigit bound) m = .ok n ↔
    (∀ c ∈ ds, c.isDigit = true) ∧ Nat.ofDigitChars 10 ds m = n ∧ n < bound := by
  induction ds generalizing m with
  | nil =>
    rw [List.foldlM_nil, Nat.ofDigitChars_nil]
    constructor
    · rintro ⟨⟩
      exact ⟨nofun, rfl, hm rfl⟩
    · rintro ⟨-, rfl, -⟩
      rfl
  | cons c ds ih =>
    rw [List.foldlM_cons, Nat.ofDigitChars_cons, List.forall_mem_cons]
    constructor
    · intro h
      cases hnext : nextDigit bound m c with
      | error fault =>
        rw [hnext] at h
        cases h
      | ok next =>
        rw [hnext] at h
        obtain ⟨hdigit, rfl, hlt⟩ := nextDigit_eq_ok_iff.mp hnext
        obtain ⟨hdigits, hvalue⟩ := (ih fun _ => hlt).mp h
        exact ⟨⟨hdigit, hdigits⟩, hvalue⟩
    · rintro ⟨⟨hdigit, hdigits⟩, hvalue, hlt⟩
      -- the number never gets smaller, so no digit takes it past the bound
      have hnext : 10 * m + (c.toNat - '0'.toNat) < bound :=
        Nat.lt_of_le_of_lt (hvalue ▸ Text.le_ofDigitChars ds _) hlt
      rw [nextDigit_eq_ok_iff.mpr ⟨hdigit, rfl, hnext⟩]
      exact (ih fun _ => hnext).mpr ⟨hdigits, hvalue, hlt⟩

theorem numeral_eq_ok_iff : numeral bound s = .ok n ↔ IsNumeral bound s n := by
  have hdigits (ds : List Char) : (if ds.isEmpty then .error .invalidDigit else ds.foldlM (nextDigit bound) 0) = .ok n ↔
      ds ≠ [] ∧ (∀ c ∈ ds, c.isDigit = true) ∧ Nat.ofDigitChars 10 ds 0 = n ∧ n < bound := by
    cases ds with
    | nil => exact ⟨nofun, fun h => absurd rfl h.1⟩
    | cons c ds =>
      have hne := List.cons_ne_nil c ds
      rw [List.isEmpty_cons, if_neg Bool.false_ne_true, foldlM_nextDigit_eq_ok_iff (absurd · hne), and_iff_right hne]
  unfold numeral IsNumeral
  dsimp only
  split
  · next rest hplus =>
    rw [hdigits]
    constructor
    · exact fun h => ⟨rest, .inr hplus, h⟩
    · rintro ⟨ds, hds | hds, hne, hdigit, hvalue⟩
      · rw [hplus] at hds
        exact absurd (hdigit '+' (hds ▸ List.mem_cons_self)) (by decide)
      · obtain rfl : rest = ds := (List.cons.inj (hplus.symm.trans hds)).2
        exact ⟨hne, hdigit, hvalue⟩
  · next hplus =>
    rw [hdigits]
    constructor
    · exact fun h => ⟨s.toList, .inl rfl, h⟩
    · rintro ⟨ds, rfl | hds, h⟩
      · exact h
      · exact absurd hds (hplus ds)

end

theorem ProviderSettings.eq_of_fields {p p' : ProviderSettings} (hurl : p.baseUrl = p'.baseUrl) (hid : p.id = p'.id)
    (hsecret : p.secret = p'.secret) (hsignature : p.signature = p'.signature) : p = p' := by
  cases p
  cases p'
  exact ProviderSettings.mk.injEq .. ▸ ⟨hurl, hid, hsecret, hsignature⟩

namespace Settings

/-! ## Variables -/

inductive Rule where
  | required
  | textOr (default : String)
  | textIfAny
  | numberOr (bound default : Nat)
  deriving DecidableEq

inductive Variable where
  | host | httpPort | databaseUrl | maxConnections | redisUrl
  | gopayBaseUrl | gopayId | gopaySecret | gopaySignature
  | shopeePayBaseUrl | shopeePayId | shopeePaySecret | shopeePaySignature
  | requestTimeout | connectTimeout | topic | jwtSecret | logLevel | otlpEndpoint
  deriving DecidableEq

inductive Setting where
  | text (s : String)
  | textIfAny (s? : Option String)
  | number (n : Nat)
  deriving DecidableEq

namespace Variable

def name : Variable → String
  | host => "PAYMENT_GATEWAY_HOST"
  | httpPort => "PAYMENT_GATEWAY_PORT"
  | databaseUrl => "PAYMENT_DATABASE_URL"
  | maxConnections => "PAYMENT_DATABASE_MAX_CONNECTIONS"
  | redisUrl => "PAYMENT_REDIS_URL"
  | gopayBaseUrl => "GOPAY_BASE_URL"
  | gopayId => "GOPAY_CLIENT_ID"
  | gopaySecret => "GOPAY_CLIENT_SECRET"
  | gopaySignature => "GOPAY_SIGNATURE"
  | shopeePayBaseUrl => "SHOPEE_PAY_BASE_URL"
  | shopeePayId => "SHOPEE_PAY_MERCHANT_ID"
  | shopeePaySecret => "SHOPEE_PAY_API_KEY"
  | shopeePaySignature => "SHOPEE_PAY_SIGNATURE"
  | requestTimeout => "PROVIDER_TIMEOUT_MS"
  | connectTimeout => "PROVIDER_CONNECT_TIMEOUT_MS"
  | topic => "TRANSACTION_EVENTS_TOPIC"
  | jwtSecret => "JWT_SECRET"
  | logLevel => "LOG_LEVEL"
  | otlpEndpoint => "OTLP_ENDPOINT"

def rule : Variable → Rule
  | host => .textOr "0.0.0.0"
  | httpPort => .numberOr (Nat.pow 2 16) 8080
  | maxConnections => .numberOr (Nat.pow 2 32) 10
  | redisUrl => .textOr "redis://localhost:6379"
  | requestTimeout => .numberOr (Nat.pow 2 64) 10000
  | connectTimeout => .numberOr (Nat.pow 2 64) 3000
  | topic => .textOr "transaction-events"
  | logLevel => .textOr "info,payment_gateway=debug"
  | jwtSecret | otlpEndpoint => .textIfAny
  | databaseUrl | gopayBaseUrl | gopayId | gopaySecret | gopaySignature
  | shopeePayBaseUrl | shopeePayId | shopeePaySecret | shopeePaySignature => .required

/-- The variables that can be unsound, as they are read. -/
def order : List Variable := [
  httpPort, databaseUrl, maxConnections, gopayBaseUrl, gopayId, gopaySecret, gopaySignature,
  shopeePayBaseUrl, shopeePayId, shopeePaySecret, shopeePaySignature, requestTimeout, connectTimeout]

end Variable

def get (c : Settings) : Variable → Setting
  | .host => .text c.host
  | .httpPort => .number c.httpPort
  | .databaseUrl => .text c.databaseUrl
  | .maxConnections => .number c.maxConnections
  | .redisUrl => .text c.redisUrl
  | .gopayBaseUrl => .text c.gopay.baseUrl
  | .gopayId => .text c.gopay.id
  | .gopaySecret => .text c.gopay.secret
  | .gopaySignature => .text c.gopay.signature
  | .shopeePayBaseUrl => .text c.shopeePay.baseUrl
  | .shopeePayId => .text c.shopeePay.id
  | .shopeePaySecret => .text c.shopeePay.secret
  | .shopeePaySignature => .text c.shopeePay.signature
  | .requestTimeout => .number c.requestTimeoutMillis
  | .connectTimeout => .number c.connectTimeoutMillis
  | .topic => .text c.topic
  | .jwtSecret => .textIfAny c.jwtSecret
  | .logLevel => .text c.logLevel
  | .otlpEndpoint => .textIfAny c.otlpEndpoint

/-! ## What a variable means -/

section
variable (given : Option (List UInt8))

def Gives (s : String) : Prop := given = some (Text.bytes s)

/-- A text is given that is not blank. -/
def Filled (s : String) : Prop := Gives given s ∧ Text.isAllBlank s = false

/-- Nothing is given, or something that is blank or no text. -/
def Unset : Prop := ∀ s, Gives given s → Text.isAllBlank s = true

/-- What is given keeps to the rule. -/
def Rule.Sound : Rule → Prop
  | required => ∃ s, Gives given s
  | textOr _ | textIfAny => True
  | numberOr bound _ => Unset given ∨ ∃ s n, Filled given s ∧ IsNumeral bound s n

/-- The setting that the rule makes of what is given. -/
def Rule.Means : Rule → Setting → Prop
  | required, .text s => Gives given s
  | textOr default, .text s => Unset given ∧ s = default ∨ Filled given s
  | textIfAny, .textIfAny s? => Unset given ∧ s? = none ∨ ∃ s, Filled given s ∧ s? = some s
  | numberOr bound default, .number n => Unset given ∧ n = default ∨ ∃ s, Filled given s ∧ IsNumeral bound s n
  | _, _ => False

end

/-- The environment keeps to the rule of the variable. -/
def Variable.Sound (env : Environment) (v : Variable) : Prop := v.rule.Sound (env v.name)

/-- The setting that the environment gives to the variable. -/
def Variable.Means (env : Environment) (v : Variable) (setting : Setting) : Prop := v.rule.Means (env v.name) setting

/-- The fault names the variable and says what is wrong with it. -/
def Variable.Blamed (env : Environment) (v : Variable) : SettingsFault → Prop
  | .notSet name => name = v.name ∧ v.rule = .required ∧ env name = none
  | .notText name value => name = v.name ∧ v.rule = .required ∧ env name = some value ∧ ∀ s, value ≠ Text.bytes s
  | .notNumber name raw fault => name = v.name ∧ Filled (env name) raw ∧
      ∃ bound default, v.rule = .numberOr bound default ∧ numeral bound raw = .error fault

/-! ## Reading one variable -/

section
variable {env env' : Environment} {name s : String} {given : Option (List UInt8)} {bound default n : Nat} {rule : Rule}
  {v : Variable} {x : Setting} {fault : SettingsFault}

theorem Gives.unique {s' : String} (h : Gives given s) (h' : Gives given s') : s = s' :=
  Text.bytes_inj (Option.some.inj (h.symm.trans h'))

theorem unset_or_filled (given : Option (List UInt8)) : Unset given ∨ ∃ s, Filled given s := by
  by_cases hgives : ∃ s, Gives given s
  · obtain ⟨s, hs⟩ := hgives
    cases hblank : Text.isAllBlank s with
    | true => exact .inl fun s' h => hs.unique h ▸ hblank
    | false => exact .inr ⟨s, hs, hblank⟩
  · exact .inl fun s hs => absurd ⟨s, hs⟩ hgives

theorem Unset.not_filled (h : Unset given) : ¬Filled given s := by
  rintro ⟨hs, hblank⟩
  rw [h s hs] at hblank
  cases hblank

theorem Filled.unique {s' : String} (h : Filled given s) (h' : Filled given s') : s = s' := h.1.unique h'.1

theorem bind_ofBytes?_eq_some_iff : given.bind Text.ofBytes? = some s ↔ Gives given s := by
  simp only [Option.bind_eq_some_iff, Text.ofBytes?_eq_some_iff, exists_eq_right, Gives]

theorem required_eq_ok_iff : required env name = .ok s ↔ Gives (env name) s := by
  rw [← bind_ofBytes?_eq_some_iff]
  unfold required
  cases env name with
  | none => exact ⟨nofun, nofun⟩
  | some value =>
    rw [Option.bind_some]
    dsimp only
    cases Text.ofBytes? value with
    | none => exact ⟨nofun, nofun⟩
    | some s' => rw [Except.ok.injEq, Option.some.injEq]

theorem required_eq_error (h : required env name = .error fault) : env name = none ∧ fault = .notSet name ∨
    ∃ value, env name = some value ∧ (∀ s, value ≠ Text.bytes s) ∧ fault = .notText name value := by
  unfold required at h
  split at h
  · next hnone =>
    cases h
    exact .inl ⟨hnone, rfl⟩
  · next value hvalue =>
    split at h
    · cases h
    · next htext =>
      cases h
      refine .inr ⟨value, hvalue, fun s hs => ?_, rfl⟩
      rw [Text.ofBytes?_eq_some_iff.mpr hs] at htext
      cases htext

theorem optional?_eq_some_iff : optional? env name = some s ↔ Filled (env name) s := by
  rw [optional?, Option.filter_eq_some_iff, Bool.not_eq_true', bind_ofBytes?_eq_some_iff]
  rfl

theorem optional?_eq_none_iff : optional? env name = none ↔ Unset (env name) := by
  rw [Option.eq_none_iff_forall_ne_some]
  constructor
  · intro h s hs
    by_contra hblank
    exact h s (optional?_eq_some_iff.mpr ⟨hs, Bool.eq_false_iff.mpr hblank⟩)
  · exact fun h s hs => h.not_filled (optional?_eq_some_iff.mp hs)

theorem optional?_eq_iff {s? : Option String} : optional? env name = s? ↔
    Unset (env name) ∧ s? = none ∨ ∃ s, Filled (env name) s ∧ s? = some s := by
  cases s? with
  | none =>
    rw [optional?_eq_none_iff]
    exact ⟨fun h => .inl ⟨h, rfl⟩, fun h => h.elim And.left nofun⟩
  | some s =>
    rw [optional?_eq_some_iff]
    constructor
    · exact fun h => .inr ⟨s, h, rfl⟩
    · rintro (⟨-, ⟨⟩⟩ | ⟨s', h, ⟨⟩⟩)
      exact h

theorem getD_optional?_eq_iff {default : String} : (optional? env name).getD default = s ↔
    Unset (env name) ∧ s = default ∨ Filled (env name) s := by
  rcases unset_or_filled (env name) with hunset | ⟨s', hs'⟩
  · rw [optional?_eq_none_iff.mpr hunset, Option.getD_none, and_iff_right hunset, or_iff_left hunset.not_filled,
      eq_comm]
  · rw [optional?_eq_some_iff.mpr hs', Option.getD_some, or_iff_right fun h => h.1.not_filled hs']
    exact ⟨fun h => h ▸ hs', hs'.unique⟩

theorem numberOr_eq_ok_iff : numberOr env name bound default = .ok n ↔
    Unset (env name) ∧ n = default ∨ ∃ s, Filled (env name) s ∧ IsNumeral bound s n := by
  unfold numberOr
  rcases unset_or_filled (env name) with hunset | ⟨s, hs⟩
  · rw [optional?_eq_none_iff.mpr hunset]
    dsimp only
    rw [Except.ok.injEq, and_iff_right hunset, eq_comm]
    exact ⟨.inl, fun h => h.resolve_right fun ⟨s, hs, _⟩ => hunset.not_filled hs⟩
  · rw [optional?_eq_some_iff.mpr hs]
    rw [mapError_eq_ok_iff, numeral_eq_ok_iff]
    constructor
    · exact fun h => .inr ⟨s, hs, h⟩
    · rintro (⟨hunset, -⟩ | ⟨s', hs', h⟩)
      · exact absurd hs hunset.not_filled
      · exact hs.unique hs' ▸ h

theorem numberOr_eq_error (h : numberOr env name bound default = .error fault) : ∃ raw reason,
    Filled (env name) raw ∧ numeral bound raw = .error reason ∧ fault = .notNumber name raw reason := by
  unfold numberOr at h
  split at h
  · cases h
  · next raw hraw =>
    cases hnumeral : numeral bound raw with
    | ok n =>
      rw [hnumeral] at h
      cases h
    | error reason =>
      rw [hnumeral] at h
      cases h
      exact ⟨raw, reason, optional?_eq_some_iff.mp hraw, hnumeral, rfl⟩

def Variable.read (env : Environment) (v : Variable) : Except SettingsFault Setting :=
  match v.rule with
  | .required => (required env v.name).map .text
  | .textOr default => .ok (.text ((optional? env v.name).getD default))
  | .textIfAny => .ok (.textIfAny (optional? env v.name))
  | .numberOr bound default => (numberOr env v.name bound default).map .number

theorem Rule.sound_iff : rule.Sound given ↔ ∃ x, rule.Means given x := by
  cases rule with
  | required =>
    constructor
    · rintro ⟨s, hs⟩
      exact ⟨.text s, hs⟩
    · rintro ⟨x, hx⟩
      cases x with
      | text s => exact ⟨s, hx⟩
      | _ => cases hx
  | textOr default =>
    refine iff_of_true trivial ?_
    rcases unset_or_filled given with hunset | ⟨s, hs⟩
    · exact ⟨.text default, .inl ⟨hunset, rfl⟩⟩
    · exact ⟨.text s, .inr hs⟩
  | textIfAny =>
    refine iff_of_true trivial ?_
    rcases unset_or_filled given with hunset | ⟨s, hs⟩
    · exact ⟨.textIfAny none, .inl ⟨hunset, rfl⟩⟩
    · exact ⟨.textIfAny (some s), .inr ⟨s, hs, rfl⟩⟩
  | numberOr bound default =>
    constructor
    · rintro (hunset | ⟨s, n, hs, hn⟩)
      · exact ⟨.number default, .inl ⟨hunset, rfl⟩⟩
      · exact ⟨.number n, .inr ⟨s, hs, hn⟩⟩
    · rintro ⟨x, hx⟩
      cases x with
      | number n => exact hx.imp And.left fun ⟨s, hs, hn⟩ => ⟨s, n, hs, hn⟩
      | _ => cases hx

theorem Variable.read_eq_ok_iff : v.read env = .ok x ↔ v.Means env x := by
  unfold Variable.read Variable.Means
  cases v.rule with
  | required =>
    constructor
    · intro h
      obtain ⟨s, hs, rfl⟩ := exists_of_map_ok h
      exact required_eq_ok_iff.mp hs
    · intro h
      cases x with
      | text s => exact congrArg (Except.map Setting.text) (required_eq_ok_iff.mpr h)
      | _ => cases h
  | textOr default =>
    cases x with
    | text s =>
      rw [Except.ok.injEq, Setting.text.injEq]
      exact getD_optional?_eq_iff
    | _ => exact ⟨nofun, False.elim⟩
  | textIfAny =>
    cases x with
    | textIfAny s? =>
      rw [Except.ok.injEq, Setting.textIfAny.injEq]
      exact optional?_eq_iff
    | _ => exact ⟨nofun, False.elim⟩
  | numberOr bound default =>
    constructor
    · intro h
      obtain ⟨n, hn, rfl⟩ := exists_of_map_ok h
      exact numberOr_eq_ok_iff.mp hn
    · intro h
      cases x with
      | number n => exact congrArg (Except.map Setting.number) (numberOr_eq_ok_iff.mpr h)
      | _ => cases h

theorem Variable.fault?_read_eq_none_iff : fault? (v.read env) = none ↔ v.Sound env := by
  simp only [fault?_eq_none_iff, Variable.read_eq_ok_iff]
  exact Rule.sound_iff.symm

theorem Variable.blamed_of_read (h : v.read env = .error fault) : v.Blamed env fault := by
  rw [← fault?_eq_some_iff] at h
  unfold Variable.read at h
  cases hrule : v.rule with
  | required =>
    rw [hrule] at h
    rcases required_eq_error (fault?_eq_some_iff.mp ((fault?_map _ _).symm.trans h)) with ⟨hnone, rfl⟩ |
      ⟨value, hvalue, htext, rfl⟩
    · exact ⟨rfl, hrule, hnone⟩
    · exact ⟨rfl, hrule, hvalue, htext⟩
  | numberOr bound default =>
    rw [hrule] at h
    obtain ⟨raw, reason, hraw, hnumeral, rfl⟩ :=
      numberOr_eq_error (fault?_eq_some_iff.mp ((fault?_map _ _).symm.trans h))
    exact ⟨rfl, hraw, bound, default, hrule, hnumeral⟩
  | _ =>
    rw [hrule] at h
    cases h

theorem Variable.Blamed.message (h : v.Blamed env fault) : fault.message = v.name ++ " must be set" ∨
    ∃ raw, Filled (env v.name) raw ∧ fault.message = v.name ++ " has an invalid value: " ++ raw := by
  cases fault with
  | notSet name => exact .inl (h.1 ▸ rfl)
  | notText name value => exact .inl (h.1 ▸ rfl)
  | notNumber name raw reason =>
    obtain ⟨rfl, hraw, -⟩ := h
    exact .inr ⟨raw, hraw, rfl⟩

/-! ## Reading all of them -/

/-- What is wrong with the environment is wrong with the first variable that anything is wrong with. -/
theorem fault?_ofEnvironment (env : Environment) :
    fault? (ofEnvironment env) = Variable.order.findSome? fun v => fault? (v.read env) := by
  unfold ofEnvironment Variable.order
  iterate 13 refine fault?_bind (fault?_map _ _) fun _ => ?_
  rfl

variable {c c' : Settings}

theorem read_of_required (hrule : v.rule = .required) (h : required env v.name = .ok s) :
    v.read env = .ok (.text s) := by
  rw [Variable.read, hrule]
  exact congrArg (Except.map Setting.text) h

theorem read_of_numberOr (hrule : v.rule = .numberOr bound default) (h : numberOr env v.name bound default = .ok n) :
    v.read env = .ok (.number n) := by
  rw [Variable.read, hrule]
  exact congrArg (Except.map Setting.number) h

theorem read_of_ofEnvironment (h : ofEnvironment env = .ok c) :
    (∀ v : Variable, v.read env = .ok (c.get v)) ∧ c.serviceName = "payment-gateway" := by
  obtain ⟨httpPort, hport, h⟩ := exists_of_bind_ok h
  obtain ⟨databaseUrl, hdatabase, h⟩ := exists_of_bind_ok h
  obtain ⟨maxConnections, hconnections, h⟩ := exists_of_bind_ok h
  obtain ⟨gopayBaseUrl, hgopay, h⟩ := exists_of_bind_ok h
  obtain ⟨gopayId, hgopayId, h⟩ := exists_of_bind_ok h
  obtain ⟨gopaySecret, hgopaySecret, h⟩ := exists_of_bind_ok h
  obtain ⟨gopaySignature, hgopaySignature, h⟩ := exists_of_bind_ok h
  obtain ⟨shopeePayBaseUrl, hshopeePay, h⟩ := exists_of_bind_ok h
  obtain ⟨shopeePayId, hshopeePayId, h⟩ := exists_of_bind_ok h
  obtain ⟨shopeePaySecret, hshopeePaySecret, h⟩ := exists_of_bind_ok h
  obtain ⟨shopeePaySignature, hshopeePaySignature, h⟩ := exists_of_bind_ok h
  obtain ⟨requestTimeout, hrequest, h⟩ := exists_of_bind_ok h
  obtain ⟨connectTimeout, hconnect, h⟩ := exists_of_bind_ok h
  cases h
  refine ⟨fun v => ?_, rfl⟩
  cases v with
  | httpPort => exact read_of_numberOr rfl hport
  | databaseUrl => exact read_of_required rfl hdatabase
  | maxConnections => exact read_of_numberOr rfl hconnections
  | gopayBaseUrl => exact read_of_required rfl hgopay
  | gopayId => exact read_of_required rfl hgopayId
  | gopaySecret => exact read_of_required rfl hgopaySecret
  | gopaySignature => exact read_of_required rfl hgopaySignature
  | shopeePayBaseUrl => exact read_of_required rfl hshopeePay
  | shopeePayId => exact read_of_required rfl hshopeePayId
  | shopeePaySecret => exact read_of_required rfl hshopeePaySecret
  | shopeePaySignature => exact read_of_required rfl hshopeePaySignature
  | requestTimeout => exact read_of_numberOr rfl hrequest
  | connectTimeout => exact read_of_numberOr rfl hconnect
  | host | redisUrl | topic | jwtSecret | logLevel | otlpEndpoint => rfl

/-- There is nothing to settings but what each variable gives and the name of the service. -/
theorem eq_of_get (h : ∀ v, c.get v = c'.get v) (hservice : c.serviceName = c'.serviceName) : c = c' := by
  have hgopay : c.gopay = c'.gopay :=
    ProviderSettings.eq_of_fields (Setting.text.inj (h .gopayBaseUrl)) (Setting.text.inj (h .gopayId))
      (Setting.text.inj (h .gopaySecret)) (Setting.text.inj (h .gopaySignature))
  have hshopeePay : c.shopeePay = c'.shopeePay :=
    ProviderSettings.eq_of_fields (Setting.text.inj (h .shopeePayBaseUrl)) (Setting.text.inj (h .shopeePayId))
      (Setting.text.inj (h .shopeePaySecret)) (Setting.text.inj (h .shopeePaySignature))
  cases c
  cases c'
  rw [Settings.mk.injEq]
  exact ⟨Setting.text.inj (h .host), Setting.number.inj (h .httpPort), Setting.text.inj (h .databaseUrl),
    Setting.number.inj (h .maxConnections), Setting.text.inj (h .redisUrl), hgopay, hshopeePay,
    Setting.number.inj (h .requestTimeout), Setting.number.inj (h .connectTimeout), Setting.text.inj (h .topic),
    Setting.textIfAny.inj (h .jwtSecret), Setting.text.inj (h .logLevel),
    Setting.textIfAny.inj (h .otlpEndpoint), hservice⟩

theorem ofEnvironment_congr (h : ∀ v : Variable, v.read env = v.read env') :
    ofEnvironment env = ofEnvironment env' := by
  have hfault : fault? (ofEnvironment env) = fault? (ofEnvironment env') := by
    simp only [fault?_ofEnvironment, h]
  cases henv : ofEnvironment env with
  | error fault =>
    rw [henv] at hfault
    exact (fault?_eq_some_iff.mp hfault.symm).symm
  | ok c =>
    rw [henv] at hfault
    obtain ⟨c', henv'⟩ := fault?_eq_none_iff.mp hfault.symm
    obtain ⟨hread, hservice⟩ := read_of_ofEnvironment henv
    obtain ⟨hread', hservice'⟩ := read_of_ofEnvironment henv'
    have hget : ∀ v, c.get v = c'.get v := by
      intro v
      have heq := (hread v).symm.trans ((h v).trans (hread' v))
      exact Except.ok.inj heq
    rw [henv', eq_of_get hget (hservice.trans hservice'.symm)]

theorem Variable.read_congr (h : env v.name = env' v.name) : v.read env = v.read env' := by
  simp only [Variable.read, required, numberOr, optional?, h]

theorem Variable.name_inj : ∀ u v : Variable, u.name = v.name → u = v := by
  intro u v h
  cases u <;> cases v <;> first | rfl | exact absurd h (by decide)

theorem Variable.mem_order_or_sound (env : Environment) (v : Variable) : v ∈ Variable.order ∨ v.Sound env := by
  cases v <;> first | exact .inr trivial | exact .inl (by decide)

theorem read_of_unset (hrule : v.rule ≠ .required) (h : Unset (env v.name)) (h' : Unset (env' v.name)) :
    v.read env = v.read env' := by
  have hnone := optional?_eq_none_iff.mpr h
  have hnone' := optional?_eq_none_iff.mpr h'
  cases hv : v.rule with
  | required => exact absurd hv hrule
  | textOr default => simp only [Variable.read, hv, hnone, hnone']
  | textIfAny => simp only [Variable.read, hv, hnone, hnone']
  | numberOr bound default => simp only [Variable.read, hv, numberOr, hnone, hnone']

/-- **An environment is read variable by variable.** It gives settings if and only if every variable is sound: the
nine required ones are texts, and each of the four numbers is unset, blank, no text, or a numeral below its bound.
When it gives none, the fault is the one of the first unsound variable and names it. When it gives settings, each of
them is what its own variable means. A variable that is not required might as well be unset when it is blank or no
text, and environments that agree on a variable agree on its setting. -/
theorem ofEnvironment_decided (env : Environment) :
    ((∃ c, ofEnvironment env = .ok c) ↔ ∀ v : Variable, v.Sound env) ∧
      (∀ fault, ofEnvironment env = .error fault → ∃ before v after, Variable.order = before ++ v :: after ∧
        (∀ u ∈ before, u.Sound env) ∧ ¬v.Sound env ∧ v.Blamed env fault ∧
          (fault.message = v.name ++ " must be set" ∨
            ∃ raw, Filled (env v.name) raw ∧ fault.message = v.name ++ " has an invalid value: " ++ raw)) ∧
      (∀ c, ofEnvironment env = .ok c → (∀ v : Variable, v.Means env (c.get v)) ∧ c.serviceName = "payment-gateway") ∧
      (∀ v : Variable, v.rule ≠ .required → Unset (env v.name) →
        ofEnvironment (Function.update env v.name none) = ofEnvironment env) ∧
      ∀ (env' : Environment) (c c' : Settings) (v : Variable), ofEnvironment env = .ok c → ofEnvironment env' = .ok c' →
        env v.name = env' v.name → c.get v = c'.get v := by
  refine ⟨?_, fun fault h => ?_, fun c h => ?_, fun v hrule hunset => ?_, fun env' c c' v h h' hsame => ?_⟩
  · simp only [← fault?_eq_none_iff, fault?_ofEnvironment, List.findSome?_eq_none_iff, Variable.fault?_read_eq_none_iff]
    constructor
    · exact fun h v => (Variable.mem_order_or_sound env v).elim (h v) id
    · exact fun h v _ => h v
  · have hfirst : Variable.order.findSome? (fun v => fault? (v.read env)) = some fault := by
      rw [← fault?_ofEnvironment, h]
      rfl
    obtain ⟨before, v, after, horder, hv, hbefore⟩ := List.findSome?_eq_some_iff.mp hfirst
    have hblamed := Variable.blamed_of_read (fault?_eq_some_iff.mp hv)
    refine ⟨before, v, after, horder, fun u hu => Variable.fault?_read_eq_none_iff.mp (hbefore u hu), ?_, hblamed,
      hblamed.message⟩
    rw [← Variable.fault?_read_eq_none_iff, hv]
    nofun
  · obtain ⟨hread, hservice⟩ := read_of_ofEnvironment h
    exact ⟨fun v => Variable.read_eq_ok_iff.mp (hread v), hservice⟩
  · refine ofEnvironment_congr fun u => ?_
    by_cases huv : u = v
    · subst huv
      refine read_of_unset hrule ?_ hunset
      rw [Function.update_self]
      nofun
    · refine Variable.read_congr ?_
      exact Function.update_of_ne (fun hname => huv (Variable.name_inj u v hname)) _ _
  · have hread := (read_of_ofEnvironment h).1 v
    have hread' := (read_of_ofEnvironment h').1 v
    rw [Variable.read_congr hsame, hread'] at hread
    exact (Except.ok.inj hread).symm

end

namespace Sample

/-- The host is blank, the port has a plus sign and what stands for the cache is no text. -/
def deployed : Environment := fun name => [
  ("PAYMENT_GATEWAY_HOST", Text.bytes " "), ("PAYMENT_GATEWAY_PORT", Text.bytes "+08081"),
  ("PAYMENT_DATABASE_URL", Text.bytes "postgres://gateway"), ("PAYMENT_REDIS_URL", [0xff]),
  ("GOPAY_BASE_URL", Text.bytes "https://gopay"), ("GOPAY_CLIENT_ID", Text.bytes "id"),
  ("GOPAY_CLIENT_SECRET", Text.bytes "secret"), ("GOPAY_SIGNATURE", Text.bytes "signature"),
  ("SHOPEE_PAY_BASE_URL", Text.bytes "https://shopee"), ("SHOPEE_PAY_MERCHANT_ID", Text.bytes "merchant"),
  ("SHOPEE_PAY_API_KEY", Text.bytes "key"), ("SHOPEE_PAY_SIGNATURE", Text.bytes ""),
  ("JWT_SECRET", Text.bytes "sécret")].lookup name

def settings : Settings where
  host := "0.0.0.0"
  httpPort := 8081
  databaseUrl := "postgres://gateway"
  maxConnections := 10
  redisUrl := "redis://localhost:6379"
  gopay := ⟨"https://gopay", "id", "secret", "signature"⟩
  shopeePay := ⟨"https://shopee", "merchant", "key", ""⟩
  requestTimeoutMillis := 10000
  connectTimeoutMillis := 3000
  topic := "transaction-events"
  jwtSecret := some "sécret"
  logLevel := "info,payment_gateway=debug"
  otlpEndpoint := none
  serviceName := "payment-gateway"

theorem ofEnvironment_deployed : ofEnvironment deployed = .ok settings := eq_ok_of_toOption (by decide +kernel)

end Sample

open Sample in
theorem ofEnvironment_decided_deployed : ofEnvironment deployed = .ok settings ∧
    (∀ v : Variable, v.Sound deployed) ∧ ∀ v : Variable, v.Means deployed (settings.get v) := by
  obtain ⟨hsound, -, hmeans, -⟩ := ofEnvironment_decided deployed
  exact ⟨ofEnvironment_deployed, hsound.mp ⟨settings, ofEnvironment_deployed⟩,
    (hmeans settings ofEnvironment_deployed).1⟩

end Settings

end WalletTopUp
