import WalletTopUp.Proofs.Json.Passing

/-!
# Members one after another

The members of an object are read one after another, each with the state that the one before it left. When the reader of
one member takes just the symbols of its value, reading them all is walking along the members that are spelled (`Walk`).
-/

namespace WalletTopUp.Json

/-- Along the members, each with its name, from the one state to the other. -/
inductive Walk {σ : Type} (step : String → Draft → σ → σ → Prop) : Draft.Members → σ → σ → Prop
  | nil (s : σ) : Walk step [] s s
  | cons {name : String} {ps : List Piece} {d : Draft} {ms : Draft.Members} {s t u : σ} (hname : textOf? ps = some name)
      (hstep : step name d s t) (h : Walk step ms t u) : Walk step ((ps, d) :: ms) s u

def Named (ms : Draft.Members) : Prop := ∀ m ∈ ms, ∃ name, textOf? m.1 = some name

/-- The values of the members with this name. -/
def valuesNamed (name : String) (ms : Draft.Members) : List Draft :=
  (ms.filter fun m => textOf? m.1 = some name).map (·.2)

section
variable {σ : Type} {step : String → Draft → σ → σ → Prop} {ms : Draft.Members} {s t : σ}

theorem walk_cons_iff {ps : List Piece} {d : Draft} :
    Walk step ((ps, d) :: ms) s t ↔ ∃ name u, textOf? ps = some name ∧ step name d s u ∧ Walk step ms u t := by
  constructor
  · rintro (_ | ⟨hname, hstep, h⟩)
    exact ⟨_, _, hname, hstep, h⟩
  · rintro ⟨name, u, hname, hstep, h⟩
    exact .cons hname hstep h

theorem named_cons_iff {m : List Piece × Draft} : Named (m :: ms) ↔ (∃ name, textOf? m.1 = some name) ∧ Named ms :=
  List.forall_mem_cons

theorem Walk.named (h : Walk step ms s t) : Named ms := by
  induction h with
  | nil => exact fun m hm => by cases hm
  | @cons name ps d ms s t u hname hstep h ih =>
    intro m hm
    rcases List.mem_cons.mp hm with rfl | hm
    · exact ⟨name, hname⟩
    · exact ih m hm

theorem Walk.imp {step' : String → Draft → σ → σ → Prop} (h : Walk step ms s t)
    (himp : ∀ name d s t, step name d s t → step' name d s t) : Walk step' ms s t := by
  induction h with
  | nil => exact .nil _
  | cons hname hstep _ ih => exact .cons hname (himp _ _ _ _ hstep) ih

theorem valuesNamed_cons_self {name : String} {ps : List Piece} (h : textOf? ps = some name) (d : Draft) :
    valuesNamed name ((ps, d) :: ms) = d :: valuesNamed name ms := by
  simp [valuesNamed, h]

theorem valuesNamed_cons_of_ne {name other : String} {ps : List Piece} (h : textOf? ps = some other)
    (hne : other ≠ name) (d : Draft) : valuesNamed name ((ps, d) :: ms) = valuesNamed name ms := by
  simp [valuesNamed, h, hne]

theorem mem_valuesNamed {name : String} {d : Draft} :
    d ∈ valuesNamed name ms ↔ ∃ ps, (ps, d) ∈ ms ∧ textOf? ps = some name := by
  simp only [valuesNamed, List.mem_map, List.mem_filter, decide_eq_true_eq]
  constructor
  · rintro ⟨⟨ps, d⟩, ⟨hmem, hname⟩, rfl⟩
    exact ⟨ps, hmem, hname⟩
  · rintro ⟨ps, hmem, hname⟩
    exact ⟨(ps, d), ⟨hmem, hname⟩, rfl⟩

end

/-! ## Readers -/

section
variable {σ : Type} {member : String → σ → Source → Except Failure (σ × Source)}
variable {step : String → Draft → σ → σ → Prop} {src rest key : Source} {s t : σ} {fuel : Nat}

/-- A member is read from its key on, and those behind it. -/
def MemberRead (member : String → σ → Source → Except Failure (σ × Source)) (fuel : Nat) (key : Source) (s t : σ)
    (rest : Source) : Prop :=
  ∃ name colon next middle, readKey key = .ok (name, colon) ∧ member name s colon = .ok (next, middle) ∧
    moreMembers member fuel next middle = .ok (t, rest)

theorem moreMembers_cases (h : moreMembers member (fuel + 1) s src = .ok (t, rest)) :
    (skipSpace src = .ok '\x7d' :: rest ∧ t = s) ∨
      ∃ body key, Separated false src body ∧ skipSpace body = .ok '"' :: key ∧ MemberRead member fuel key s t rest := by
  unfold moreMembers at h
  split at h
  · cases h
  · next hskip =>
    cases h
    exact .inl ⟨hskip, rfl⟩
  · next body hskip =>
    split at h
    · cases h
    · next key hkey =>
      obtain ⟨⟨name, colon⟩, hname, h⟩ := exists_of_bind_ok h
      obtain ⟨⟨next, middle⟩, hmember, h⟩ := exists_of_bind_ok h
      exact .inr ⟨body, key, hskip, hkey, name, colon, next, middle, hname, hmember, h⟩
    · cases h
  · cases h

theorem members_cases (h : members member s src = .ok (t, rest)) :
    (skipSpace src = .ok '\x7d' :: rest ∧ t = s) ∨
      ∃ key fuel, skipSpace src = .ok '"' :: key ∧ MemberRead member fuel key s t rest := by
  unfold members at h
  split at h
  · cases h
  · next hskip =>
    cases h
    exact .inl ⟨hskip, rfl⟩
  · next key hkey =>
    obtain ⟨⟨name, colon⟩, hname, h⟩ := exists_of_bind_ok h
    obtain ⟨⟨next, middle⟩, hmember, h⟩ := exists_of_bind_ok h
    exact .inr ⟨key, middle.length, hkey, name, colon, next, middle, hname, hmember, h⟩
  · cases h

/-- The reader of a member takes the colon and the value as the step says, and nothing else. -/
def Faithful (member : String → σ → Source → Except Failure (σ × Source)) (step : String → Draft → σ → σ → Prop) :
    Prop :=
  ∀ name s t src rest, member name s src = .ok (t, rest) →
    ∃ value d, skipSpace src = .ok ':' :: value ∧ Spelled (.value d) value rest ∧ step name d s t

/-- What the step says is read. -/
def Ready (member : String → σ → Source → Except Failure (σ × Source)) (step : String → Draft → σ → σ → Prop) : Prop :=
  ∀ name s t src rest value d, skipSpace src = .ok ':' :: value → Spelled (.value d) value rest → step name d s t →
    member name s src = .ok (t, rest)

theorem exists_walk_of_moreMembers (hfaithful : Faithful member step)
    (h : moreMembers member fuel s src = .ok (t, rest)) :
    ∃ ms, Spelled (.members false ms) src rest ∧ Walk step ms s t := by
  induction fuel generalizing s src with
  | zero => cases h
  | succ fuel ih =>
    rcases moreMembers_cases h with ⟨hclosing, rfl⟩ |
      ⟨body, key, hsep, hkey, name, colon, next, middle, hname, hmember, h⟩
    · exact ⟨[], .noMember hclosing, .nil t⟩
    · obtain ⟨ps, hps, htext⟩ := readKey_eq_ok_iff.mp hname
      obtain ⟨value, d, hcolon, hd, hstep⟩ := hfaithful _ _ _ _ _ hmember
      obtain ⟨ms, hms, hwalk⟩ := ih h
      exact ⟨(ps, d) :: ms, .member hsep hkey hps hcolon hd hms, .cons htext hstep hwalk⟩

theorem exists_walk_of_members (hfaithful : Faithful member step) (h : members member s src = .ok (t, rest)) :
    ∃ ms, Spelled (.members true ms) src rest ∧ Walk step ms s t := by
  rcases members_cases h with ⟨hclosing, rfl⟩ | ⟨key, fuel, hkey, name, colon, next, middle, hname, hmember, h⟩
  · exact ⟨[], .noMember hclosing, .nil t⟩
  · obtain ⟨ps, hps, htext⟩ := readKey_eq_ok_iff.mp hname
    obtain ⟨value, d, hcolon, hd, hstep⟩ := hfaithful _ _ _ _ _ hmember
    obtain ⟨ms, hms, hwalk⟩ := exists_walk_of_moreMembers hfaithful h
    exact ⟨(ps, d) :: ms, .member rfl hkey hps hcolon hd hms, .cons htext hstep hwalk⟩

theorem moreMembers_of_walk {ms : Draft.Members} (hready : Ready member step)
    (h : Spelled (.members false ms) src rest) (hwalk : Walk step ms s t) (hfuel : src.length ≤ fuel) :
    moreMembers member fuel s src = .ok (t, rest) := by
  induction hwalk generalizing src fuel with
  | nil s =>
    cases h with
    | noMember hclosing =>
      have hshorter := length_of_skipSpace hclosing
      obtain ⟨fuel, rfl⟩ := Nat.exists_eq_add_one.mpr (show 0 < fuel by omega)
      simp only [moreMembers, hclosing]
  | @cons name ps d ms s t u hname hstep hwalk ih =>
    cases h with
    | @member _ _ body key colon value middle _ _ _ _ hsep hkey hps hcolon hd hms =>
      have hcomma : skipSpace src = .ok ',' :: body := hsep
      have hcommaLength := length_of_skipSpace hcomma
      have hkeyLength := length_of_skipSpace hkey
      have hpiecesLength := length_of_pieces hps
      have hcolonLength := length_of_skipSpace hcolon
      have hvalueLength := hd.length_lt
      obtain ⟨fuel, rfl⟩ := Nat.exists_eq_add_one.mpr (show 0 < fuel by omega)
      have hread : readKey key = .ok (name, colon) := readKey_eq_ok_iff.mpr ⟨ps, hps, hname⟩
      simp only [moreMembers, hcomma, hkey, hread, hready _ _ _ _ _ _ _ hcolon hd hstep, bind, Except.bind]
      exact ih hms (by omega)

theorem members_of_walk {ms : Draft.Members} (hready : Ready member step) (h : Spelled (.members true ms) src rest)
    (hwalk : Walk step ms s t) : members member s src = .ok (t, rest) := by
  cases hwalk with
  | nil s =>
    cases h with
    | noMember hclosing => simp only [members, hclosing]
  | @cons name ps d ms s t u hname hstep hwalk =>
    cases h with
    | @member _ _ body key colon value middle _ _ _ _ hsep hkey hps hcolon hd hms =>
      obtain rfl : body = src := hsep
      have hread : readKey key = .ok (name, colon) := readKey_eq_ok_iff.mpr ⟨ps, hps, hname⟩
      simp only [members, hkey, hread, hready _ _ _ _ _ _ _ hcolon hd hstep, bind, Except.bind]
      exact moreMembers_of_walk hready hms hwalk (Nat.le_refl _)

end

end WalletTopUp.Json
