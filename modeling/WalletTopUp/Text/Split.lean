/-!
# Splitting at a mark

A mark cuts a list of characters. `splitFirst?` and `splitLast?` cut once, at the first or the last mark;
`pieces` cuts at every mark. The marks themselves belong to no piece.
-/

namespace WalletTopUp.Text

/-- What is before and what is after the first mark. -/
def splitFirst? (mark : Char) : List Char → Option (List Char × List Char)
  | [] => none
  | c :: rest =>
    if c = mark then some ([], rest)
    else (splitFirst? mark rest).map fun (before, after) => (c :: before, after)

/-- What is before and what is after the last mark. -/
def splitLast? (mark : Char) : List Char → Option (List Char × List Char)
  | [] => none
  | c :: rest =>
    match splitLast? mark rest with
    | some (before, after) => some (c :: before, after)
    | none => if c = mark then some ([], rest) else none

/-- What is between the marks; there is always one piece more than there are marks. -/
def pieces (mark : Char) : List Char → List (List Char)
  | [] => [[]]
  | c :: rest =>
    if c = mark then [] :: pieces mark rest
    else
      match pieces mark rest with
      | [] => [[c]]
      | first :: others => (c :: first) :: others

theorem eq_of_splitFirst? {mark : Char} {cs before after : List Char}
    (h : splitFirst? mark cs = some (before, after)) :
    cs = before ++ mark :: after ∧ mark ∉ before := by
  induction cs generalizing before with
  | nil => cases h
  | cons c rest ih =>
    unfold splitFirst? at h
    split at h
    · next hc =>
      cases h
      simp [hc]
    · next hc =>
      obtain ⟨⟨b, a⟩, hb, he⟩ := Option.map_eq_some_iff.1 h
      cases he
      obtain ⟨rfl, hn⟩ := ih hb
      exact ⟨rfl, by simp [Ne.symm hc, hn]⟩

/-- The first cut is the only one with no mark before it. -/
theorem splitFirst?_append {mark : Char} {before : List Char} (after : List Char)
    (h : mark ∉ before) : splitFirst? mark (before ++ mark :: after) = some (before, after) := by
  induction before with
  | nil => simp [splitFirst?]
  | cons c rest ih =>
    have hc : c ≠ mark := fun e => h (by simp [e])
    have hrest : mark ∉ rest := fun hm => h (List.mem_cons_of_mem c hm)
    simp [splitFirst?, hc, ih hrest]

theorem splitLast?_eq_none_iff {mark : Char} {cs : List Char} :
    splitLast? mark cs = none ↔ mark ∉ cs := by
  induction cs with
  | nil => simp [splitLast?]
  | cons c rest ih =>
    unfold splitLast?
    split
    · next h =>
      have : mark ∈ rest := by
        apply Decidable.byContradiction
        intro hn
        rw [ih.2 hn] at h
        cases h
      simp [this]
    · next h =>
      have := ih.1 h
      split
      · next hc => simp [hc]
      · next hc => simp [Ne.symm hc, this]

theorem eq_of_splitLast? {mark : Char} {cs before after : List Char}
    (h : splitLast? mark cs = some (before, after)) :
    cs = before ++ mark :: after ∧ mark ∉ after := by
  induction cs generalizing before with
  | nil => cases h
  | cons c rest ih =>
    unfold splitLast? at h
    split at h
    · next hr =>
      cases h
      obtain ⟨rfl, ha⟩ := ih hr
      exact ⟨rfl, ha⟩
    · next hr =>
      split at h
      · next hc =>
        cases h
        exact ⟨by simp [hc], splitLast?_eq_none_iff.1 hr⟩
      · cases h

/-- The last cut is the only one with no mark behind it. -/
theorem splitLast?_append {mark : Char} (before : List Char) {after : List Char}
    (h : mark ∉ after) : splitLast? mark (before ++ mark :: after) = some (before, after) := by
  induction before with
  | nil => simp [splitLast?, splitLast?_eq_none_iff.2 h]
  | cons c rest ih => simp [splitLast?, ih]

/-! ## All pieces -/

theorem pieces_of_not_mem {mark : Char} {cs : List Char} (h : mark ∉ cs) : pieces mark cs = [cs] := by
  induction cs with
  | nil => rfl
  | cons c rest ih =>
    have hc : c ≠ mark := fun e => h (by simp [e])
    have hrest : mark ∉ rest := fun hm => h (List.mem_cons_of_mem c hm)
    simp [pieces, hc, ih hrest]

/-- The first mark ends the first piece. -/
theorem pieces_append {mark : Char} {first : List Char} (rest : List Char) (h : mark ∉ first) :
    pieces mark (first ++ mark :: rest) = first :: pieces mark rest := by
  induction first with
  | nil => simp [pieces]
  | cons c first ih =>
    have hc : c ≠ mark := fun e => h (by simp [e])
    have hfirst : mark ∉ first := fun hm => h (List.mem_cons_of_mem c hm)
    simp [pieces, hc, ih hfirst]

/-- A text is in pieces in one way only. -/
theorem pieces_intercalate {mark : Char} {found : List (List Char)} (hne : found ≠ [])
    (h : ∀ piece ∈ found, mark ∉ piece) : pieces mark ([mark].intercalate found) = found := by
  induction found with
  | nil => exact absurd rfl hne
  | cons first others ih =>
    have hfirst := h first List.mem_cons_self
    cases others with
    | nil => rw [List.intercalate_singleton, pieces_of_not_mem hfirst]
    | cons second others =>
      have hothers := ih (List.cons_ne_nil _ _) fun piece hpiece => h piece (List.mem_cons_of_mem first hpiece)
      rw [List.intercalate_cons_cons, List.append_assoc, List.singleton_append, pieces_append _ hfirst, hothers]

theorem exists_intercalate (mark : Char) (cs : List Char) : ∃ found : List (List Char), found ≠ [] ∧
    (∀ piece ∈ found, mark ∉ piece) ∧ cs = [mark].intercalate found := by
  induction cs with
  | nil => exact ⟨[[]], by simp, by simp, by simp⟩
  | cons c rest ih =>
    obtain ⟨found, hne, hfree, rfl⟩ := ih
    obtain ⟨first, others, rfl⟩ := List.exists_cons_of_ne_nil hne
    by_cases hc : c = mark
    · refine ⟨[] :: first :: others, by simp, ?_, ?_⟩
      · intro piece hpiece
        rcases List.mem_cons.mp hpiece with rfl | hpiece
        · simp
        · exact hfree piece hpiece
      · rw [List.intercalate_cons_cons, hc, List.nil_append, List.singleton_append]
    · refine ⟨(c :: first) :: others, by simp, ?_, ?_⟩
      · intro piece hpiece
        rcases List.mem_cons.mp hpiece with rfl | hpiece
        · rw [List.mem_cons, not_or]
          exact ⟨Ne.symm hc, hfree first List.mem_cons_self⟩
        · exact hfree piece (List.mem_cons_of_mem first hpiece)
      · cases others with
        | nil => simp
        | cons second others => simp

/-- The pieces are without the mark, and with the mark between them they are the text. -/
theorem pieces_eq_iff {mark : Char} {cs : List Char} {found : List (List Char)} : pieces mark cs = found ↔
    found ≠ [] ∧ (∀ piece ∈ found, mark ∉ piece) ∧ cs = [mark].intercalate found := by
  constructor
  · rintro rfl
    obtain ⟨found, hne, hfree, rfl⟩ := exists_intercalate mark cs
    rw [pieces_intercalate hne hfree]
    exact ⟨hne, hfree, rfl⟩
  · rintro ⟨hne, hfree, rfl⟩
    exact pieces_intercalate hne hfree

end WalletTopUp.Text
