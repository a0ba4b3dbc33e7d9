import WalletTopUp.Http.Cookie
import WalletTopUp.Proofs.Http.Headers
import WalletTopUp.Proofs.Text.Utf8

/-!
# The cookie with a name

Cookies are read from the pieces of the cookie headers (`CookiePieces`). A piece writes a cookie when it is a name and a
value with an equals sign between them (`WritesCookie`), and of the pieces that write a cookie with one name the last
one counts (`cookieValue?_eq_some_iff`).
-/

namespace WalletTopUp

namespace Http

/-- What stands between the marks. -/
def Cut (mark : Char) (cs : List Char) (found : List (List Char)) : Prop :=
  found ≠ [] ∧ (∀ piece ∈ found, mark ∉ piece) ∧ cs = [mark].intercalate found

/-- The pieces of the values of the cookie headers, in order. Values that cannot be read as text have none. -/
inductive CookiePieces : (values : List (List UInt8)) → (found : List (List Char)) → Prop
  | nil : CookiePieces [] []
  | unreadable {value : List UInt8} {values : List (List UInt8)} {found : List (List Char)}
      (h : ¬ ∀ b ∈ value, isVisibleByte b = true) (rest : CookiePieces values found) :
      CookiePieces (value :: values) found
  | line {value : List UInt8} {values : List (List UInt8)} {cut found : List (List Char)}
      (h : ∀ b ∈ value, isVisibleByte b = true) (hcut : Cut ';' (value.map fun b => Char.ofNat b.toNat) cut)
      (rest : CookiePieces values found) : CookiePieces (value :: values) (cut ++ found)

/-- Without the blanks at both ends the characters are the text with percent encoding. -/
def Encodes (cs : List Char) (text : String) : Prop :=
  Text.percentDecode (Text.bytes (String.ofList (Text.trimEnd (Text.trimStart cs)))) = Text.bytes text

/-- The name is before the first equals sign and the value is behind it. -/
def WritesCookie (piece : List Char) (name value : String) : Prop :=
  ∃ before after, piece = before ++ '=' :: after ∧ '=' ∉ before ∧ Encodes before name ∧ Encodes after value

theorem cookieText?_eq_some_iff {cs : List Char} {text : String} : cookieText? cs = some text ↔ Encodes cs text :=
  Text.ofBytes?_eq_some_iff

theorem encodes_of_blank {cs : List Char} (h : cs.all Text.isBlank = true) : Encodes cs "" := by
  have htrim : Text.trimStart cs = [] := List.dropWhile_eq_nil_iff.mpr fun c hc => List.all_eq_true.mp h c hc
  have hbytes : Text.bytes (String.ofList (Text.trimEnd [])) = [] := Text.bytes_ofList []
  rw [Encodes, htrim, hbytes, Text.percentDecode]
  exact hbytes.symm

theorem Encodes.unique {cs : List Char} {text text' : String} (h : Encodes cs text) (h' : Encodes cs text') :
    text' = text := Text.bytes_inj (h'.symm.trans h)

theorem splitFirst?_eq_some_iff {mark : Char} {cs before after : List Char} :
    Text.splitFirst? mark cs = some (before, after) ↔ cs = before ++ mark :: after ∧ mark ∉ before := by
  constructor
  · exact Text.eq_of_splitFirst?
  · rintro ⟨rfl, h⟩
    exact Text.splitFirst?_append after h

theorem cookie?_eq_some_iff {piece : List Char} {name value : String} (hname : name ≠ "") :
    cookie? piece = some (name, value) ↔ WritesCookie piece name value := by
  simp only [cookie?, Option.bind_eq_bind, Option.bind_eq_some_iff, WritesCookie]
  constructor
  · rintro ⟨⟨before, after⟩, hsplit, h⟩
    obtain ⟨rfl, hbefore⟩ := splitFirst?_eq_some_iff.mp hsplit
    dsimp only at h
    split_ifs at h with hblank
    · cases h
    · simp only [Option.bind_eq_some_iff, Option.pure_def, Option.some.injEq, Prod.mk.injEq] at h
      obtain ⟨_, hread, _, hread', rfl, rfl⟩ := h
      exact ⟨before, after, rfl, hbefore, cookieText?_eq_some_iff.mp hread, cookieText?_eq_some_iff.mp hread'⟩
  · rintro ⟨before, after, rfl, hbefore, hencodes, hencodes'⟩
    refine ⟨(before, after), splitFirst?_eq_some_iff.mpr ⟨rfl, hbefore⟩, ?_⟩
    have hblank : ¬ before.all Text.isBlank = true := fun h => hname ((encodes_of_blank h).unique hencodes)
    simp [hblank, cookieText?_eq_some_iff.mpr hencodes, cookieText?_eq_some_iff.mpr hencodes']

section
variable {headers : Headers} {name value : String} {found : List (List Char)}

theorem cookiePieces_iff {values : List (List UInt8)} : CookiePieces values found ↔
    (values.filterMap headerText?).flatMap (fun line => Text.pieces ';' line.toList) = found := by
  induction values generalizing found with
  | nil =>
    constructor
    · rintro ⟨⟩
      rfl
    · rintro rfl
      exact .nil
  | cons value values ih =>
    rcases hread : headerText? value with _ | line
    · have hunreadable : ¬ ∀ b ∈ value, isVisibleByte b = true := by
        intro hvisible
        have := headerText?_eq_some_iff.mpr ⟨hvisible, String.toList_ofList⟩
        rw [hread] at this
        cases this
      rw [List.filterMap_cons_none hread, ← ih]
      constructor
      · rintro (_ | ⟨_, hrest⟩ | ⟨hvisible, _, _⟩)
        · exact hrest
        · exact absurd hvisible hunreadable
      · exact .unreadable hunreadable
    · obtain ⟨hvisible, hline⟩ := headerText?_eq_some_iff.mp hread
      rw [List.filterMap_cons_some hread, List.flatMap_cons]
      constructor
      · rintro (_ | ⟨hunreadable, _⟩ | ⟨_, hcut, hrest⟩)
        · exact absurd hvisible hunreadable
        · rw [ih.mp hrest, hline, Text.pieces_eq_iff.mpr hcut]
      · rintro rfl
        exact .line hvisible (Text.pieces_eq_iff.mp (by rw [hline])) (ih.mpr rfl)

theorem exists_cookiePieces (values : List (List UInt8)) : ∃ found, CookiePieces values found :=
  ⟨_, cookiePieces_iff.mpr rfl⟩

/-- **The cookie with a name.** It is written by the last piece that writes any. -/
theorem cookieValue?_eq_some_iff (hname : name ≠ "") (hfound : CookiePieces (headers.values "cookie") found) :
    cookieValue? headers name = some value ↔ ∃ before piece after, found = before ++ piece :: after ∧
      WritesCookie piece name value ∧ ∀ other ∈ after, ∀ value', ¬ WritesCookie other name value' := by
  have hcookies : cookies headers = found.filterMap cookie? := by
    rw [cookies, ← cookiePieces_iff.mp hfound, List.filterMap_flatMap]
  rw [cookieValue?, hcookies, List.filter_filterMap, List.map_filterMap, List.getLast?_filterMap,
    List.findSome?_eq_some_iff]
  have hsome : ∀ piece value', ((cookie? piece).filter (·.1 = name)).map (·.2) = some value' ↔
      WritesCookie piece name value' := by
    intro piece value'
    rw [← cookie?_eq_some_iff hname]
    rcases cookie? piece with _ | ⟨name', value''⟩
    · simp
    · by_cases h : name' = name <;> simp [Option.filter, h]
  have hnone : ∀ piece, ((cookie? piece).filter (·.1 = name)).map (·.2) = none ↔
      ∀ value', ¬ WritesCookie piece name value' := by
    intro piece
    rw [Option.eq_none_iff_forall_ne_some]
    exact forall_congr' fun value' => not_congr (hsome piece value')
  simp only [hsome, hnone]
  constructor
  · rintro ⟨after, piece, before, hreverse, hwrites, hlast⟩
    refine ⟨before.reverse, piece, after.reverse, ?_, hwrites, fun other hother =>
      hlast other (List.mem_reverse.mp hother)⟩
    rw [← List.reverse_reverse found, hreverse]
    simp
  · rintro ⟨before, piece, after, rfl, hwrites, hlast⟩
    exact ⟨after.reverse, piece, before.reverse, by simp, hwrites,
      fun other hother => hlast other (List.mem_reverse.mp hother)⟩

end

end Http

end WalletTopUp
