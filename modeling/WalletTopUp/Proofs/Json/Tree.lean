import WalletTopUp.Proofs.Json.Lexeme

/-!
# Reading back what was written: arrays, objects and values of any form

Items and members are written one after the other with commas between them, and each is read back with the
comma or the bracket behind it. What is read of an object is not the list of its members but a state that
every member takes on, so its law is about the steps from state to state (`Steps`). A value of any form is
read back when its integers fit a word, its floats are none, its containers are not too deep and its objects
hold their members as the reader joins them (`Json.Exact`).
-/

namespace WalletTopUp.Json

theorem expect_written {c : Char} (h : isSpace c = false) (cs : List Char) (rest : Source) :
    expect c (written (c :: cs) ++ rest) = .ok (written cs ++ rest) := by
  rw [expect, written_cons, List.cons_append, skipSpace_cons h]
  simp [expectWord]

theorem commaSeparated_cons (part : List Char) (parts : List (List Char)) :
    commaSeparated (part :: parts) = part ++ parts.flatMap fun next => ',' :: next := by
  induction parts generalizing part with
  | nil => simp [commaSeparated]
  | cons next parts ih =>
    rw [commaSeparated, ih next, List.flatMap_cons, List.cons_append]
    exact nofun

theorem length_lt_written {β : Type} (parts : List β) (chars : β → List Char) (closing : Text.Symbol) (rest : Source) :
    parts.length < (written (parts.flatMap fun part => ',' :: chars part) ++ closing :: rest).length := by
  induction parts with
  | nil => simp
  | cons part parts ih =>
    rw [List.flatMap_cons, written_append, List.append_assoc, List.length_append, written_cons, List.length_cons,
      List.length_cons]
    omega

theorem ends_written {β : Type} (parts : List β) (chars : β → List Char) {closing : Char}
    (hclosing : closing = ']' ∨ closing = '\x7d') (rest : Source) :
    Ends (written (parts.flatMap fun part => ',' :: chars part) ++ .ok closing :: rest) := by
  cases parts with
  | nil => exact .inr hclosing
  | cons part parts => exact .inl rfl

/-! ## Arrays -/

section

variable {α : Type} {item : Source → Except Failure (α × Source)} {parts : List (List Char × α)}

theorem moreItems_written {fuel : Nat} (hfuel : parts.length < fuel)
    (hparts : ∀ part ∈ parts, Reads item part.1 part.2) (rest : Source) :
    moreItems item fuel (written (parts.flatMap fun part => ',' :: part.1) ++ .ok ']' :: rest) =
      .ok (parts.map (·.2), rest) := by
  induction parts generalizing fuel with
  | nil =>
    obtain _ | fuel := fuel
    · cases hfuel
    · rfl
  | cons part parts ih =>
    obtain _ | fuel := fuel
    · cases hfuel
    obtain ⟨hpart, hparts⟩ := List.forall_mem_cons.mp hparts
    have hitem := hpart _ (ends_written parts (·.1) (.inl rfl) rest)
    have hmore := ih (Nat.lt_of_succ_lt_succ hfuel) hparts
    rw [List.flatMap_cons, List.cons_append, written_cons, List.cons_append, moreItems, skipSpace_cons rfl]
    simp only [written_append, List.append_assoc, hitem, hmore, bind, Except.bind, pure, Except.pure, List.map_cons]

/-- The items of a written array are read back, unless an item could be taken for the closing bracket. -/
theorem items_written (hparts : ∀ part ∈ parts, Reads item part.1 part.2)
    (hheads : ∀ part ∈ parts, ∃ c cs, part.1 = c :: cs ∧ isSpace c = false ∧ c ≠ ']') (rest : Source) :
    items item (written (commaSeparated (parts.map (·.1))) ++ .ok ']' :: rest) = .ok (parts.map (·.2), rest) := by
  cases parts with
  | nil => rfl
  | cons part parts =>
    obtain ⟨hpart, hparts⟩ := List.forall_mem_cons.mp hparts
    obtain ⟨c, cs, hchars, hspace, hclosing⟩ := hheads part List.mem_cons_self
    have hitem := hpart _ (ends_written parts (·.1) (.inl rfl) rest)
    have hmore := moreItems_written (length_lt_written parts (·.1) (.ok ']') rest) hparts rest
    rw [List.map_cons, commaSeparated_cons, List.flatMap_map, written_append, List.append_assoc]
    rw [hchars, written_cons, List.cons_append] at hitem ⊢
    rw [items, skipSpace_cons hspace]
    split
    · next hbracket =>
      cases hbracket
      exact absurd rfl hclosing
    · simp only [hitem, hmore, bind, Except.bind, pure, Except.pure, List.map_cons]

end

/-! ## Objects -/

def memberText (member : String × List Char) : List Char :=
  stringChars member.1 ++ ':' :: member.2

theorem written_memberText (member : String × List Char) (rest : Source) :
    written (memberText member) ++ rest =
      .ok '"' :: (written (member.1.toList.flatMap escapeChar) ++ .ok '"' :: (written (':' :: member.2) ++ rest)) := by
  rw [memberText, written_append, List.append_assoc, written_stringChars]

/-- The members take the state on, one after the other. -/
inductive Steps {σ : Type} (takes : String → List Char → σ → σ → Prop) : List (String × List Char) → σ → σ → Prop where
  | done (s : σ) : Steps takes [] s s
  | member {name : String} {cs : List Char} {parts : List (String × List Char)} {s t u : σ} (first : takes name cs s t)
      (others : Steps takes parts t u) : Steps takes ((name, cs) :: parts) s u

theorem Steps.imp {σ : Type} {takes takes' : String → List Char → σ → σ → Prop} {parts : List (String × List Char)}
    {s t : σ} (h : Steps takes parts s t) (himp : ∀ name cs s t, takes name cs s t → takes' name cs s t) :
    Steps takes' parts s t := by
  induction h with
  | done s => exact .done s
  | member first others ih => exact .member (himp _ _ _ _ first) ih

/-- The reader of members takes exactly the value of this one, with its colon, and comes from `s` to `t`. -/
def Takes {σ : Type} (member : String → σ → Source → Except Failure (σ × Source)) (name : String) (cs : List Char)
    (s t : σ) : Prop :=
  Reads (member name s) (':' :: cs) t

section

variable {σ : Type} {member : String → σ → Source → Except Failure (σ × Source)} {parts : List (String × List Char)}
  {s t : σ}

theorem moreMembers_written {fuel : Nat} (hfuel : parts.length < fuel) (h : Steps (Takes member) parts s t)
    (rest : Source) :
    moreMembers member fuel s (written (parts.flatMap fun part => ',' :: memberText part) ++ .ok '\x7d' :: rest) =
      .ok (t, rest) := by
  induction h generalizing fuel with
  | done =>
    obtain _ | fuel := fuel
    · cases hfuel
    · rfl
  | @member name cs parts s t u first others ih =>
    obtain _ | fuel := fuel
    · cases hfuel
    have hmember := first _ (ends_written parts memberText (.inr rfl) rest)
    have hmore := ih (Nat.lt_of_succ_lt_succ hfuel)
    rw [List.flatMap_cons, List.cons_append, written_cons, List.cons_append, written_append, List.append_assoc,
      written_memberText, moreMembers, skipSpace_cons rfl]
    simp only [skipSpace_cons (c := '"') rfl, readKey_written, hmember, hmore, bind, Except.bind]

theorem members_written (h : Steps (Takes member) parts s t) (rest : Source) :
    members member s (written (commaSeparated (parts.map memberText)) ++ .ok '\x7d' :: rest) = .ok (t, rest) := by
  cases h with
  | done => rfl
  | @member name cs parts s t u first others =>
    have hmember := first _ (ends_written parts memberText (.inr rfl) rest)
    have hmore := moreMembers_written (length_lt_written parts memberText (.ok '\x7d') rest) others rest
    rw [List.map_cons, commaSeparated_cons, List.flatMap_map, written_append, List.append_assoc, written_memberText,
      members, skipSpace_cons rfl]
    simp only [readKey_written, hmember, hmore, bind, Except.bind]

end

/-! ## Values of any form -/

/-- A value that is read back as it was written, with at most `depth` containers inside one another. The members of
an object have to be what the reader makes of them. -/
def Exact (join : Join) : (depth : Nat) → Json → Prop
  | _, null => True
  | _, flag _ => True
  | _, number n => n.Exact
  | _, text _ => True
  | 0, array _ => False
  | 0, object _ => False
  | depth + 1, array values => ∀ value ∈ values, Exact join depth value
  | depth + 1, object members =>
    (∀ member ∈ members, Exact join depth member.2) ∧
      members.foldl (fun joined member => join member.1 member.2 joined) [] = members

/-- The first character of a written value tells it from `null` and from the end of an array. -/
def Opens (cs : List Char) : Prop :=
  ∃ c rest, cs = c :: rest ∧ isSpace c = false ∧ c ≠ ']' ∧ c ≠ 'n'

theorem opens_integer (n : Int) : Opens (Number.integer n).chars := by
  obtain ⟨c, cs, hchars, hc⟩ := exists_head_of_integer n
  exact ⟨c, cs, hchars, isSpace_of_numeric hc, ne_of_numeric hc (by decide) (by decide),
    ne_of_numeric hc (by decide) (by decide)⟩

theorem opens_stringChars (s : String) : Opens (stringChars s) :=
  ⟨_, _, rfl, rfl, by decide, by decide⟩

theorem Exact.opens {join : Join} {depth : Nat} {value : Json} (h : value.Exact join depth) :
    value = null ∨ Opens value.chars := by
  cases value with
  | null => exact .inl rfl
  | flag b => cases b <;> exact .inr ⟨_, _, rfl, rfl, by decide, by decide⟩
  | number n =>
    cases n with
    | integer n => exact .inr (opens_integer n)
    | float x => cases depth <;> exact h.elim
  | text s => exact .inr (opens_stringChars s)
  | array values => exact .inr ⟨_, _, rfl, rfl, by decide, by decide⟩
  | object members => exact .inr ⟨_, _, rfl, rfl, by decide, by decide⟩

theorem itemChars_eq (values : List Json) : itemChars values = values.map chars := by
  induction values with
  | nil => rfl
  | cons value values ih => rw [itemChars, ih, List.map_cons]

theorem memberChars_eq (members : List (String × Json)) :
    memberChars members = (members.map fun member => (member.1, member.2.chars)).map memberText := by
  induction members with
  | nil => rfl
  | cons member members ih =>
    rw [memberChars, ih]
    rfl

theorem readTreeWith_scalar {join : Join} {inner : Option (Source → Except Failure (Json × Source))} {value : Json}
    (h : value.Exact join 0) : Reads (readTreeWith join inner) value.chars value := by
  intro rest hrest
  cases value with
  | null => simp only [readTreeWith, chars, readLexeme_null rest hrest, bind, Except.bind]
  | flag b => cases b <;> rfl
  | number n =>
    cases n with
    | integer n => simp only [readTreeWith, chars, readLexeme_integer h rest hrest, bind, Except.bind]
    | float x => exact h.elim
  | text s => simp only [readTreeWith, chars, readLexeme_string s rest hrest, bind, Except.bind]
  | array values => exact h.elim
  | object members => exact h.elim

section

variable {join : Join} {inner : Source → Except Failure (Json × Source)}

theorem readTreeWith_array {values : List Json} (h : ∀ value ∈ values, Reads inner value.chars value)
    (hopens : ∀ value ∈ values, value = null ∨ Opens value.chars) :
    Reads (readTreeWith join (some inner)) (array values).chars (array values) := by
  intro rest _
  have hheads : ∀ part ∈ values.map fun value => (value.chars, value),
      ∃ c cs, part.1 = c :: cs ∧ isSpace c = false ∧ c ≠ ']' := by
    intro part hpart
    obtain ⟨value, hvalue, rfl⟩ := List.mem_map.mp hpart
    rcases hopens value hvalue with rfl | ⟨c, cs, hchars, hspace, hclosing, -⟩
    · exact ⟨_, _, rfl, rfl, by decide⟩
    · exact ⟨c, cs, hchars, hspace, hclosing⟩
  have hitems : items inner (written (commaSeparated (values.map chars)) ++ .ok ']' :: rest) = .ok (values, rest) := by
    have hparts := items_written (List.forall_mem_map.mpr h) hheads rest
    simpa only [List.map_map, Function.comp_def, List.map_id_fun', id_eq] using hparts
  simp only [chars, itemChars_eq, written_append, written_cons, List.cons_append, List.append_assoc, written_nil,
    List.nil_append, readTreeWith, readLexeme_sequence, hitems, bind, Except.bind]

theorem steps_members (join : Join) {members : List (String × Json)}
    (h : ∀ member ∈ members, Reads inner member.2.chars member.2) (joined : List (String × Json)) :
    Steps (Takes fun name joined src => do
        let (value, rest) ← inner (← expect ':' src)
        .ok (join name value joined, rest))
      (members.map fun member => (member.1, member.2.chars)) joined
      (members.foldl (fun joined member => join member.1 member.2 joined) joined) := by
  induction members generalizing joined with
  | nil => exact .done joined
  | cons member members ih =>
    obtain ⟨hmember, hmembers⟩ := List.forall_mem_cons.mp h
    refine .member ?_ (ih hmembers (join member.1 member.2 joined))
    intro rest hrest
    simp only [expect_written (c := ':') rfl, hmember rest hrest, bind, Except.bind]

theorem readTreeWith_object {members : List (String × Json)}
    (h : ∀ member ∈ members, Reads inner member.2.chars member.2)
    (hjoined : members.foldl (fun joined member => join member.1 member.2 joined) [] = members) :
    Reads (readTreeWith join (some inner)) (object members).chars (object members) := by
  intro rest _
  have hmembers := members_written (steps_members join h []) rest
  simp only [chars, memberChars_eq, written_append, written_cons, List.cons_append, List.append_assoc, written_nil,
    List.nil_append, readTreeWith, readLexeme_mapping, bind, Except.bind]
  simp only [bind, Except.bind] at hmembers
  rw [hmembers, hjoined]

end

theorem readJoined_written {join : Join} {depth : Nat} {value : Json} (h : value.Exact join depth) :
    Reads (readJoined join depth) value.chars value := by
  induction depth generalizing value with
  | zero => exact readTreeWith_scalar h
  | succ depth ih =>
    cases value with
    | array values =>
      exact readTreeWith_array (fun value hvalue => ih (h value hvalue)) fun value hvalue => (h value hvalue).opens
    | object members => exact readTreeWith_object (fun member hmember => ih (h.1 member hmember)) h.2
    | _ => exact readTreeWith_scalar h

/-! ## Objects sorted by key -/

/-- A member with a larger key than all others comes last. -/
theorem insertMember_last {name : String} (value : Json) {members : List (String × Json)}
    (h : ∀ member ∈ members, member.1 < name) : insertMember name value members = members ++ [(name, value)] := by
  induction members with
  | nil => rfl
  | cons member members ih =>
    obtain ⟨hmember, hmembers⟩ := List.forall_mem_cons.mp h
    have hne : name ≠ member.1 := by
      rintro rfl
      exact String.lt_irrefl _ hmember
    rw [insertMember, if_neg (String.lt_asymm hmember), if_neg hne, ih hmembers]
    rfl

theorem foldl_insertMember {sorted members : List (String × Json)}
    (h : (sorted ++ members).Pairwise fun a b => a.1 < b.1) :
    members.foldl (fun joined member => insertMember member.1 member.2 joined) sorted = sorted ++ members := by
  induction members generalizing sorted with
  | nil => exact (List.append_nil sorted).symm
  | cons member members ih =>
    have hlast : ∀ other ∈ sorted, other.1 < member.1 :=
      fun other hother => (List.pairwise_append.mp h).2.2 other hother member List.mem_cons_self
    rw [List.foldl_cons, insertMember_last member.2 hlast]
    have hsorted : ((sorted ++ [(member.1, member.2)]) ++ members).Pairwise fun a b => a.1 < b.1 := by simpa using h
    have hnext := ih hsorted
    simpa using hnext

/-- An object whose members are sorted by key can be read back. -/
theorem exact_object {depth : Nat} {members : List (String × Json)} (h : members.Pairwise fun a b => a.1 < b.1)
    (hmembers : ∀ member ∈ members, member.2.Exact insertMember depth) :
    (object members).Exact insertMember (depth + 1) :=
  ⟨hmembers, foldl_insertMember h⟩

end WalletTopUp.Json
