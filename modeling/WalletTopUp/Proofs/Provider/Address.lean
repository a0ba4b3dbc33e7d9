import Mathlib.Data.List.Infix
import WalletTopUp.Proofs.Provider.Balance
import WalletTopUp.Text.Hex

/-!
# What the address of a wallet asks for

Gopay's wallets are named in the path of the question for a balance, and a path is read by the rules for addresses
(`Target`): tabs and line ends are left out, a fragment and a query are cut off, slashes of both kinds separate the
segments, percent signs are decoded, and segments of dots lead back. Segments are read back if and only if none of
their bytes means something there (`Target.ofPath_path_iff`): nothing but bytes that are lost could make up for it,
and the weight of the segments shows that none are. So a balance is asked of the right wallet exactly when the phone
number is safe in a path (`balance_addressed`).
-/

namespace WalletTopUp

/-! ## Percent encoding -/

namespace Text

/-- No percent sign stands before two hexadecimal digits. -/
def Unescaped (bytes : List UInt8) : Prop :=
  ∀ high low, [0x25, high, low] <:+: bytes → byteHex? high = none ∨ byteHex? low = none

theorem unescaped_of_not_mem {bytes : List UInt8} (h : 0x25 ∉ bytes) : Unescaped bytes :=
  fun _ _ hescape => absurd (hescape.subset List.mem_cons_self) h

theorem Unescaped.of_infix {bytes bytes' : List UInt8} (h : Unescaped bytes) (hpart : bytes' <:+: bytes) :
    Unescaped bytes' :=
  fun high low hescape => h high low (hescape.trans hpart)

/-- No percent sign at the front stands before two hexadecimal digits. -/
def StartsPlain (b : UInt8) (rest : List UInt8) : Prop :=
  ∀ high low tail, b = 0x25 → rest = high :: low :: tail → byteHex? high = none ∨ byteHex? low = none

section
variable {b : UInt8} {rest : List UInt8}

theorem Unescaped.cons (h : Unescaped rest) (hfirst : StartsPlain b rest) : Unescaped (b :: rest) := by
  intro high low hescape
  rcases List.infix_cons_iff.mp hescape with ⟨tail, hprefix⟩ | hinner
  · obtain ⟨rfl, hrest⟩ := List.cons.inj hprefix
    exact hfirst high low tail rfl hrest.symm
  · exact h high low hinner

theorem percentDecode_cons (hfirst : StartsPlain b rest) : percentDecode (b :: rest) = b :: percentDecode rest := by
  by_cases hescape : ∃ high low tail, b = 0x25 ∧ rest = high :: low :: tail
  · obtain ⟨high, low, tail, rfl, rfl⟩ := hescape
    rw [percentDecode]
    rcases hfirst high low tail rfl rfl with hhigh | hlow
    · rw [hhigh]
    · rw [hlow]
      split <;> first | rfl | contradiction
  · rw [percentDecode]
    exact fun high low tail hb hrest => hescape ⟨high, low, tail, hb, hrest⟩

end

theorem percentDecode_cases (bytes : List UInt8) : Unescaped bytes ∧ percentDecode bytes = bytes ∨
    ¬Unescaped bytes ∧ (percentDecode bytes).length < bytes.length := by
  have hkept {b : UInt8} {rest : List UInt8} (hfirst : StartsPlain b rest)
      (ih : Unescaped rest ∧ percentDecode rest = rest ∨ ¬Unescaped rest ∧ (percentDecode rest).length < rest.length) :
      Unescaped (b :: rest) ∧ percentDecode (b :: rest) = b :: rest ∨
        ¬Unescaped (b :: rest) ∧ (percentDecode (b :: rest)).length < (b :: rest).length := by
    rw [percentDecode_cons hfirst]
    rcases ih with ⟨hplain, hrest⟩ | ⟨hescaped, hless⟩
    · exact .inl ⟨hplain.cons hfirst, congrArg _ hrest⟩
    · exact .inr ⟨fun hplain => hescaped (hplain.of_infix (List.suffix_cons b rest).isInfix), Nat.succ_lt_succ hless⟩
  induction bytes using percentDecode.induct with
  | case1 => exact .inl ⟨unescaped_of_not_mem List.not_mem_nil, by rw [percentDecode]⟩
  | case2 high low rest h l hlow hhigh ih =>
    refine .inr ⟨fun hplain => ?_, ?_⟩
    · have hnone := hplain high low ⟨[], rest, rfl⟩
      rw [hhigh, hlow] at hnone
      exact hnone.elim nofun nofun
    · have hless : (percentDecode rest).length ≤ rest.length := by
        rcases ih with ⟨-, hrest⟩ | ⟨-, hless⟩
        · rw [hrest]
        · exact hless.le
      rw [percentDecode, hhigh, hlow]
      simp only [List.length_cons]
      omega
  | case3 high low rest hnot ih =>
    refine hkept ?_ ih
    rintro high' low' tail - ⟨⟩
    by_contra hsome
    rw [not_or, ← ne_eq, ← ne_eq, Option.ne_none_iff_exists', Option.ne_none_iff_exists'] at hsome
    obtain ⟨⟨h, hhigh⟩, l, hlow⟩ := hsome
    exact hnot h l hhigh hlow
  | case4 b rest hnot ih => exact hkept (fun high low tail hb hrest => absurd hrest (hnot high low tail hb)) ih

end Text

/-! ## Targets -/

/-- What a path asks for. -/
structure Target where
  segments : List (List UInt8)
  query : Option (List UInt8)
  fragment : Option (List UInt8)
  deriving DecidableEq

namespace Target
open Text (percentDecode Unescaped)

/-- What is before a mark, and what is after it if there is one. -/
def cutAt (mark : UInt8) : List UInt8 → List UInt8 × Option (List UInt8)
  | [] => ([], none)
  | b :: rest => if b = mark then ([], some rest) else (b :: (cutAt mark rest).1, (cutAt mark rest).2)

/-- Tabs and the ends of lines are not part of an address. -/
def isSkipped (b : UInt8) : Bool := b = 0x09 || b = 0x0a || b = 0x0d

/-- A backslash separates segments too. -/
def isSlash (b : UInt8) : Bool := b = 0x2f || b = 0x5c

/-- Segments that lead somewhere else: the same place and the one above. -/
def dot : List UInt8 := [0x2e]

def dots : List UInt8 := [0x2e, 0x2e]

/-- What a segment that leads somewhere else leaves behind: an empty segment, if it is the last one. -/
def ending (rest : List (List UInt8)) : List (List UInt8) := if rest.isEmpty then [[]] else []

/-- Go on from the segments that are settled. -/
def resolve (settled : List (List UInt8)) : List (List UInt8) → List (List UInt8)
  | [] => settled
  | piece :: rest =>
    if percentDecode piece = dots then resolve (settled.dropLast ++ ending rest) rest
    else if percentDecode piece = dot then resolve (settled ++ ending rest) rest
    else resolve (settled ++ [percentDecode piece]) rest

/-- The target of a path, which starts with a slash. -/
def ofPath (path : List UInt8) : Target :=
  let (rest, fragment) := cutAt 0x23 (path.filter fun b => !isSkipped b)
  let (rest, query) := cutAt 0x3f rest
  ⟨resolve [] (rest.splitOnP isSlash).tail, query, fragment⟩

section
variable {mark : UInt8} {bytes piece segment : List UInt8} {settled pieces segments : List (List UInt8)}

theorem cutAt_of_not_mem (h : mark ∉ bytes) : cutAt mark bytes = (bytes, none) := by
  induction bytes with
  | nil => rfl
  | cons b rest ih =>
    rw [List.mem_cons, not_or] at h
    rw [cutAt, if_neg (Ne.symm h.1), ih h.2]

theorem not_mem_of_cutAt (h : (cutAt mark bytes).2 = none) : mark ∉ bytes := by
  induction bytes with
  | nil => exact List.not_mem_nil
  | cons b rest ih =>
    rw [cutAt] at h
    split_ifs at h with hb
    rw [List.mem_cons, not_or]
    exact ⟨Ne.symm hb, ih h⟩

/-! ### Pieces between slashes -/

theorem not_isSlash_of_mem (hpiece : piece ∈ bytes.splitOnP isSlash) : ∀ b ∈ piece, isSlash b = false := by
  induction bytes generalizing piece with
  | nil =>
    rw [List.splitOnP_nil, List.mem_singleton] at hpiece
    subst hpiece
    nofun
  | cons first rest ih =>
    rw [List.splitOnP_cons_eq_if_modifyHead] at hpiece
    split_ifs at hpiece with hfirst
    · rcases List.mem_cons.mp hpiece with rfl | hmem
      · nofun
      · exact ih hmem
    · obtain ⟨before, others, hrest⟩ := List.exists_cons_of_ne_nil (List.splitOnP_ne_nil isSlash rest)
      rw [hrest] at hpiece ih
      rcases List.mem_cons.mp hpiece with rfl | hmem
      · exact List.forall_mem_cons.mpr ⟨Bool.eq_false_iff.mpr hfirst, ih List.mem_cons_self⟩
      · exact ih (List.mem_cons_of_mem _ hmem)

/-- The bytes of segments with a slash for each. -/
def weight (segments : List (List UInt8)) : Nat := (segments.map fun segment => segment.length + 1).sum

@[simp] theorem weight_nil : weight [] = 0 := rfl

@[simp] theorem weight_cons (segment : List UInt8) (segments : List (List UInt8)) :
    weight (segment :: segments) = segment.length + 1 + weight segments := by
  rw [weight, List.map_cons, List.sum_cons]
  rfl

@[simp] theorem weight_append (segments segments' : List (List UInt8)) :
    weight (segments ++ segments') = weight segments + weight segments' := by
  rw [weight, List.map_append, List.sum_append]
  rfl

theorem weight_dropLast_le (segments : List (List UInt8)) : weight segments.dropLast ≤ weight segments := by
  rcases List.eq_nil_or_concat segments with rfl | ⟨before, last, rfl⟩
  · exact Nat.le_refl _
  · rw [List.concat_eq_append, List.dropLast_concat, weight_append]
    exact Nat.le_add_right _ _

theorem weight_ending_le (rest : List (List UInt8)) : weight (ending rest) ≤ 1 := by
  unfold ending
  split_ifs
  · exact Nat.le_refl 1
  · exact Nat.zero_le 1

theorem weight_splitOnP (bytes : List UInt8) : weight (bytes.splitOnP isSlash) = bytes.length + 1 := by
  induction bytes with
  | nil => rfl
  | cons first rest ih =>
    rw [List.splitOnP_cons_eq_if_modifyHead]
    split_ifs
    · rw [weight_cons, ih, List.length_nil, List.length_cons, Nat.add_comm]
    · obtain ⟨before, others, hrest⟩ := List.exists_cons_of_ne_nil (List.splitOnP_ne_nil isSlash rest)
      rw [hrest, weight_cons] at ih
      rw [hrest, List.modifyHead_cons, weight_cons, List.length_cons, List.length_cons]
      omega

/-! ### Segments that lead nowhere else -/

/-- A segment stands for itself. -/
structure Plain (segment : List UInt8) : Prop where
  unescaped : Unescaped segment
  ne_dot : segment ≠ dot
  ne_dots : segment ≠ dots

theorem resolve_of_plain (h : ∀ piece ∈ pieces, Plain piece) (settled : List (List UInt8)) :
    resolve settled pieces = settled ++ pieces := by
  induction pieces generalizing settled with
  | nil => rw [resolve, List.append_nil]
  | cons piece rest ih =>
    obtain ⟨hpiece, hrest⟩ := List.forall_mem_cons.mp h
    have hdecode : percentDecode piece = piece := by
      rcases Text.percentDecode_cases piece with ⟨-, heq⟩ | ⟨hescaped, -⟩
      · exact heq
      · exact absurd hpiece.unescaped hescaped
    rw [resolve, hdecode, if_neg hpiece.ne_dots, if_neg hpiece.ne_dot, ih hrest, List.append_assoc,
      List.singleton_append]

/-- Segments that do not all stand for themselves lose bytes. -/
theorem resolve_cases (settled pieces : List (List UInt8)) :
    (∀ piece ∈ pieces, Plain piece) ∨ weight (resolve settled pieces) < weight settled + weight pieces := by
  induction pieces generalizing settled with
  | nil => exact .inl nofun
  | cons piece rest ih =>
    have hle (settled : List (List UInt8)) : weight (resolve settled rest) ≤ weight settled + weight rest := by
      rcases ih settled with hplain | hless
      · rw [resolve_of_plain hplain, weight_append]
      · exact hless.le
    have hending := weight_ending_le rest
    have hdecoded := Text.percentDecode_cases piece
    have hlength : (percentDecode piece).length ≤ piece.length := by
      rcases hdecoded with ⟨-, heq⟩ | ⟨-, hless⟩
      · rw [heq]
      · exact hless.le
    rw [resolve, weight_cons]
    split_ifs with hdots hdot
    · right
      have hnext := hle (settled.dropLast ++ ending rest)
      have hback := weight_dropLast_le settled
      rw [weight_append] at hnext
      rw [hdots, dots, List.length_cons, List.length_singleton] at hlength
      omega
    · right
      have hnext := hle (settled ++ ending rest)
      rw [weight_append] at hnext
      rw [hdot, dot, List.length_singleton] at hlength
      omega
    · rcases hdecoded with ⟨hplain, heq⟩ | ⟨-, hless⟩
      · rw [heq] at hdots hdot ⊢
        refine (ih (settled ++ [piece])).imp (fun hrest => List.forall_mem_cons.mpr ⟨⟨hplain, hdot, hdots⟩, hrest⟩)
          fun h => ?_
        rw [weight_append, weight_cons, weight_nil] at h
        omega
      · right
        have hnext := hle (settled ++ [percentDecode piece])
        rw [weight_append, weight_cons, weight_nil] at hnext
        omega

/-! ### Reading segments back -/

def path (segments : List (List UInt8)) : List UInt8 := segments.flatMap fun segment => 0x2f :: segment

theorem path_nil : path [] = [] := rfl

theorem path_cons (segment : List UInt8) (segments : List (List UInt8)) :
    path (segment :: segments) = 0x2f :: (segment ++ path segments) := rfl

theorem length_path (segments : List (List UInt8)) : (path segments).length = weight segments := by
  induction segments with
  | nil => rfl
  | cons segment rest ih =>
    rw [path_cons, List.length_cons, List.length_append, ih, weight_cons]
    omega

theorem mem_path_of_mem {b : UInt8} (hsegment : segment ∈ segments) (hb : b ∈ segment) : b ∈ path segments :=
  List.mem_flatMap.mpr ⟨segment, hsegment, List.mem_cons_of_mem _ hb⟩

theorem mem_path_cases {b : UInt8} (h : b ∈ path segments) : b = 0x2f ∨ ∃ segment ∈ segments, b ∈ segment := by
  obtain ⟨segment, hsegment, hb⟩ := List.mem_flatMap.mp h
  exact (List.mem_cons.mp hb).imp id fun hb => ⟨segment, hsegment, hb⟩

theorem splitOnP_path (hbytes : ∀ b ∈ bytes, isSlash b = false)
    (h : ∀ segment ∈ segments, ∀ b ∈ segment, isSlash b = false) :
    (bytes ++ path segments).splitOnP isSlash = bytes :: segments := by
  induction segments generalizing bytes with
  | nil =>
    change (bytes ++ []).splitOnP isSlash = [bytes]
    rw [List.append_nil, List.splitOnP_eq_singleton hbytes]
  | cons segment rest ih =>
    obtain ⟨hsegment, hrest⟩ := List.forall_mem_cons.mp h
    rw [path_cons, List.splitOnP_append_cons_of_forall_mem hbytes _ rfl, ih hsegment hrest]

/-- The byte means something in a path. -/
def isMark (b : UInt8) : Bool := isSlash b || isSkipped b || b = 0x3f || b = 0x23

theorem isMark_eq_false_iff {b : UInt8} :
    isMark b = false ↔ isSlash b = false ∧ isSkipped b = false ∧ b ≠ 0x3f ∧ b ≠ 0x23 := by
  simp only [isMark, Bool.or_eq_false_iff, decide_eq_false_iff_not, and_assoc, ne_eq]

/-- A segment that is read back as it is written. -/
structure Addressable (segment : List UInt8) : Prop extends Plain segment where
  unmarked : ∀ b ∈ segment, isMark b = false

theorem unmarked_of_any (h : segment.any isMark = false) : ∀ b ∈ segment, isMark b = false := by
  rw [List.any_eq_false] at h
  exact fun b hb => Bool.eq_false_iff.mpr (h b hb)

theorem Addressable.of_not_mem (hpercent : 0x25 ∉ segment) (hdot : segment ≠ dot) (hdots : segment ≠ dots)
    (hmark : segment.any isMark = false) : Addressable segment :=
  ⟨⟨Text.unescaped_of_not_mem hpercent, hdot, hdots⟩, unmarked_of_any hmark⟩

theorem ofPath_eq_iff : ofPath bytes = ⟨segments, none, none⟩ ↔
    0x23 ∉ (bytes.filter fun b => !isSkipped b) ∧ 0x3f ∉ (bytes.filter fun b => !isSkipped b) ∧
      resolve [] ((bytes.filter fun b => !isSkipped b).splitOnP isSlash).tail = segments := by
  unfold ofPath
  generalize bytes.filter (fun b => !isSkipped b) = kept
  constructor
  · intro h
    have hfragment := not_mem_of_cutAt (congrArg fragment h)
    rw [cutAt_of_not_mem hfragment] at h
    have hquery := not_mem_of_cutAt (congrArg query h)
    dsimp only at h
    rw [cutAt_of_not_mem hquery] at h
    exact ⟨hfragment, hquery, congrArg Target.segments h⟩
  · rintro ⟨hfragment, hquery, rfl⟩
    rw [cutAt_of_not_mem hfragment]
    dsimp only
    rw [cutAt_of_not_mem hquery]

theorem addressable_of_ofPath (h : ofPath (path segments) = ⟨segments, none, none⟩) :
    ∀ segment ∈ segments, Addressable segment := by
  obtain ⟨hfragment, hquery, hresolve⟩ := ofPath_eq_iff.mp h
  generalize hkept : (path segments).filter (fun b => !isSkipped b) = kept at hfragment hquery hresolve
  have hshort : kept.length ≤ (path segments).length := hkept ▸ List.length_filter_le _ _
  obtain ⟨first, pieces, hpieces⟩ := List.exists_cons_of_ne_nil (List.splitOnP_ne_nil isSlash kept)
  have hweight := weight_splitOnP kept
  rw [hpieces, weight_cons] at hweight
  rw [hpieces, List.tail_cons] at hresolve
  rw [length_path, ← hresolve] at hshort
  -- the segments weigh as much as the path, so nothing is lost on the way to them
  rcases resolve_cases [] pieces with hplain | hless
  · rw [resolve_of_plain hplain, List.nil_append] at hresolve hshort
    subst hresolve
    have hwhole : kept.length = (path pieces).length := by
      rw [length_path]
      omega
    have hunskipped : ∀ b ∈ path pieces, (!isSkipped b) = true := by
      rw [← List.length_filter_eq_length_iff, hkept, hwhole]
    have hpath : kept = path pieces := by rw [← hkept, List.filter_eq_self.mpr hunskipped]
    intro segment hsegment
    have hpiece : segment ∈ kept.splitOnP isSlash := hpieces ▸ List.mem_cons_of_mem first hsegment
    refine ⟨hplain segment hsegment, fun b hb => isMark_eq_false_iff.mpr ⟨not_isSlash_of_mem hpiece b hb, ?_, ?_, ?_⟩⟩
    · exact Bool.not_eq_true' _ |>.mp (hunskipped b (mem_path_of_mem hsegment hb))
    · rintro rfl
      exact hquery (hpath ▸ mem_path_of_mem hsegment hb)
    · rintro rfl
      exact hfragment (hpath ▸ mem_path_of_mem hsegment hb)
  · rw [weight_nil] at hless
    omega

theorem ofPath_path (h : ∀ segment ∈ segments, Addressable segment) :
    ofPath (path segments) = ⟨segments, none, none⟩ := by
  have hslash : ∀ segment ∈ segments, ∀ b ∈ segment, isSlash b = false := fun segment hsegment b hb =>
    (isMark_eq_false_iff.mp ((h segment hsegment).unmarked b hb)).1
  have hunmarked : ∀ b ∈ path segments, isSkipped b = false ∧ b ≠ 0x3f ∧ b ≠ 0x23 := by
    intro b hb
    rcases mem_path_cases hb with rfl | ⟨segment, hsegment, hb⟩
    · decide
    · exact (isMark_eq_false_iff.mp ((h segment hsegment).unmarked b hb)).2
  have hfilter : ((path segments).filter fun b => !isSkipped b) = path segments :=
    List.filter_eq_self.mpr fun b hb => by rw [(hunmarked b hb).1]; rfl
  have hpieces : ([] ++ path segments).splitOnP isSlash = [] :: segments := splitOnP_path (List.forall_mem_nil _) hslash
  rw [ofPath_eq_iff, hfilter]
  refine ⟨fun hmem => (hunmarked _ hmem).2.2 rfl, fun hmem => (hunmarked _ hmem).2.1 rfl, ?_⟩
  rw [← List.nil_append (path segments), hpieces, List.tail_cons,
    resolve_of_plain fun segment hsegment => (h segment hsegment).toPlain, List.nil_append]

theorem ofPath_path_iff (segments : List (List UInt8)) :
    ofPath (path segments) = ⟨segments, none, none⟩ ↔ ∀ segment ∈ segments, Addressable segment :=
  ⟨addressable_of_ofPath, ofPath_path⟩

end

end Target

/-! ## The wallet in the path -/

namespace Gopay
open Text (bytes)

/-- The question for the balance of the wallet and nothing else. -/
def balanceTarget (walletId : String) : Target :=
  ⟨[bytes "v1", bytes "wallets", bytes walletId, bytes "balance"], none, none⟩

/-- A phone number that means nothing in a path. -/
structure PathSafe (phone : String) : Prop where
  unmarked : ∀ b ∈ bytes phone, Target.isMark b = false
  unescaped : Text.Unescaped (bytes phone)

section
variable {phone : String}

theorem bytes_balancePath (walletId : String) :
    bytes (balancePath walletId) = Target.path [bytes "v1", bytes "wallets", bytes walletId, bytes "balance"] := by
  have hfront : bytes "/v1/wallets/" = 0x2f :: (bytes "v1" ++ 0x2f :: (bytes "wallets" ++ [0x2f])) := by
    simp only [Text.bytes_eq]
    decide
  have hback : bytes "/balance" = 0x2f :: bytes "balance" := by
    simp only [Text.bytes_eq]
    decide
  rw [balancePath, Text.bytes_append, Text.bytes_append, hfront, hback]
  simp only [Target.path_cons, List.cons_append, List.append_assoc, List.nil_append, Target.path_nil, List.append_nil]

theorem addressable_walletId_iff :
    Target.Addressable (bytes (PaymentMethod.gopay.walletId phone)) ↔ PathSafe phone := by
  have hbytes : bytes (PaymentMethod.gopay.walletId phone) = 0x38 :: 0x39 :: 0x38 :: bytes phone := by
    have hmark : bytes "898" = [0x38, 0x39, 0x38] := by
      rw [Text.bytes_eq]
      decide
    rw [PaymentMethod.walletId, PaymentMethod.walletMark, Text.bytes_append, hmark]
    rfl
  rw [hbytes]
  constructor
  · intro h
    refine ⟨fun b hb => h.unmarked b ?_, h.unescaped.of_infix (List.suffix_append [0x38, 0x39, 0x38] _).isInfix⟩
    exact List.mem_append_right [0x38, 0x39, 0x38] hb
  · intro h
    have hdigit {b : UInt8} {rest : List UInt8} (hb : b ≠ 0x25) (hrest : Text.Unescaped rest) :
        Text.Unescaped (b :: rest) :=
      hrest.cons fun _ _ _ heq => absurd heq hb
    refine ⟨⟨hdigit (by decide) (hdigit (by decide) (hdigit (by decide) h.unescaped)), nofun, nofun⟩, ?_⟩
    simp only [List.forall_mem_cons]
    exact ⟨by decide, by decide, by decide, h.unmarked⟩

/-- The path of a balance asks for the wallet that it names if and only if the phone number is safe. -/
theorem ofPath_balancePath_iff :
    Target.ofPath (bytes (balancePath (PaymentMethod.gopay.walletId phone))) =
      balanceTarget (PaymentMethod.gopay.walletId phone) ↔ PathSafe phone := by
  have hversion : Target.Addressable (bytes "v1") := by
    rw [Text.bytes_eq]
    exact .of_not_mem (by decide) (by decide) (by decide) (by decide)
  have hwallets : Target.Addressable (bytes "wallets") := by
    rw [Text.bytes_eq]
    exact .of_not_mem (by decide) (by decide) (by decide) (by decide)
  have hbalance : Target.Addressable (bytes "balance") := by
    rw [Text.bytes_eq]
    exact .of_not_mem (by decide) (by decide) (by decide) (by decide)
  rw [bytes_balancePath, balanceTarget, Target.ofPath_path_iff]
  simp only [List.forall_mem_cons, addressable_walletId_iff]
  exact ⟨fun h => h.2.2.1, fun h => ⟨hversion, hwallets, h, hbalance, nofun⟩⟩

theorem balanceTarget_ne (walletId : String) : balanceTarget walletId ≠ Target.ofPath (bytes topUpPath) ∧
    balanceTarget walletId ≠ Target.ofPath (bytes "/auth/token") := by
  have htopUp : (Target.ofPath (bytes topUpPath)).segments.length = 3 := by decide +kernel
  have hauth : (Target.ofPath (bytes "/auth/token")).segments.length = 2 := by decide +kernel
  have hbalance : (balanceTarget walletId).segments.length = 4 := rfl
  constructor
  · intro h
    rw [h, htopUp] at hbalance
    cases hbalance
  · intro h
    rw [h, hauth] at hbalance
    cases hbalance

theorem balanceTarget_inj {walletId walletId' : String} (h : balanceTarget walletId = balanceTarget walletId') :
    walletId = walletId' := by
  have hsegments := congrArg Target.segments h
  simp only [balanceTarget, List.cons.injEq] at hsegments
  exact Text.bytes_inj hsegments.2.2.1

theorem walletId_inj {phone phone' : String}
    (h : PaymentMethod.gopay.walletId phone = PaymentMethod.gopay.walletId phone') : phone = phone' := by
  unfold PaymentMethod.walletId at h
  exact String.append_right_inj _ |>.mp h

end

end Gopay

namespace ProviderClient
open Text (bytes)

section
variable {c : ProviderClient} {phone requestId : String} {history : Exchange.History}
  {found : Except ProviderFault WalletBalance} {call : ApiRequest} {answer : Except String Reply}

/-- **The question for a balance asks for the wallet it is about as long as the phone number is safe in a path.** Every
request of it is a `GET` of the path below the address of the provider. The segments of the path are read back with the
wallet id as the third one, without a query and a fragment, if and only if the phone number is safe. Then no other safe
phone number has the same target, and neither an order nor the question for a token has it. -/
theorem balance_addressed (hmethod : c.method = .gopay)
    (h : (c.balance (PaymentMethod.gopay.walletId phone) requestId).run.Yields history found)
    (hcall : ⟨.call call, answer⟩ ∈ history) :
    call.errand.method = "GET" ∧ call.url = c.base ++ call.errand.path ∧
      (Target.ofPath (bytes call.errand.path) = Gopay.balanceTarget (PaymentMethod.gopay.walletId phone) ↔
        Gopay.PathSafe phone) ∧
      (Gopay.PathSafe phone →
        (∀ other, Gopay.PathSafe other → Target.ofPath (bytes call.errand.path) =
          Target.ofPath (bytes (Gopay.balancePath (PaymentMethod.gopay.walletId other))) → phone = other) ∧
        Target.ofPath (bytes call.errand.path) ≠ Target.ofPath (bytes Gopay.topUpPath) ∧
        Target.ofPath (bytes call.errand.path) ≠ Target.ofPath (bytes c.authPath)) := by
  obtain ⟨sent, hsent, -⟩ := yields_balance_iff.mp h
  obtain ⟨token, rfl⟩ := (sent_of_yields hsent).repeats call answer hcall
  have herrand : c.balanceErrand (PaymentMethod.gopay.walletId phone) requestId =
      ⟨"GET", Gopay.balancePath (PaymentMethod.gopay.walletId phone), none, requestId⟩ := by
    rw [balanceErrand, hmethod]
  have hauth : c.authPath = "/auth/token" := by rw [authPath, hmethod]
  rw [herrand, hauth]
  dsimp only [request]
  refine ⟨rfl, rfl, Gopay.ofPath_balancePath_iff, fun hsafe => ?_⟩
  rw [Gopay.ofPath_balancePath_iff.mpr hsafe]
  refine ⟨fun other hother htarget => ?_, Gopay.balanceTarget_ne _⟩
  rw [Gopay.ofPath_balancePath_iff.mpr hother] at htarget
  exact Gopay.walletId_inj (Gopay.balanceTarget_inj htarget)

namespace Sample

def asking (phone : String) : ApiRequest :=
  client.request (client.balanceErrand (PaymentMethod.gopay.walletId phone) "R-1") "token"

def askingInVain (phone : String) : Exchange.History :=
  [⟨.readSlot, some "token"⟩, ⟨.call (asking phone), .error "unreachable"⟩]

theorem yields_balance (phone : String) : (client.balance (PaymentMethod.gopay.walletId phone) "R-1").run.Yields
    (askingInVain phone) (.error (.transport .gopay "unreachable")) := by
  have htoken : headerBytes? "token" ≠ none := by decide +kernel
  refine yields_balance_iff.mpr ⟨.error (.transport .gopay "unreachable"), ?_, rfl⟩
  exact yields_send_iff.mpr (.settled (.held "token") rfl (.unreachable _ htoken "unreachable"))

theorem pathSafe_digits : Gopay.PathSafe "+628123456789" := by
  have hbytes := Text.bytes_eq "+628123456789"
  constructor
  · rw [hbytes]
    exact Target.unmarked_of_any (by decide)
  · rw [hbytes]
    exact Text.unescaped_of_not_mem (by decide)

end Sample

open Sample

theorem balance_addressed_digits : client.method = .gopay ∧
    (client.balance (PaymentMethod.gopay.walletId "+628123456789") "R-1").run.Yields
      (askingInVain "+628123456789") (.error (.transport .gopay "unreachable")) ∧
    ⟨.call (asking "+628123456789"), .error "unreachable"⟩ ∈ askingInVain "+628123456789" ∧
    Gopay.PathSafe "+628123456789" ∧
    Target.ofPath (bytes (asking "+628123456789").errand.path) = Gopay.balanceTarget "898+628123456789" := by
  have hcall : ⟨.call (asking "+628123456789"), .error "unreachable"⟩ ∈ askingInVain "+628123456789" :=
    List.mem_cons_of_mem _ List.mem_cons_self
  obtain ⟨-, -, htarget, -⟩ := balance_addressed rfl (yields_balance "+628123456789") hcall
  exact ⟨rfl, yields_balance _, hcall, pathSafe_digits, htarget.mpr pathSafe_digits⟩

/-- A phone number that climbs out of its segment: it turns the question into one to the path of an order, or asks for
the wallet of somebody else. -/
theorem balance_astray :
    (client.balance (PaymentMethod.gopay.walletId "/../topup?") "R-1").run.Yields
      (askingInVain "/../topup?") (.error (.transport .gopay "unreachable")) ∧
    ⟨.call (asking "/../topup?"), .error "unreachable"⟩ ∈ askingInVain "/../topup?" ∧
    Target.ofPath (bytes (asking "/../topup?").errand.path) =
      ⟨(Target.ofPath (bytes Gopay.topUpPath)).segments, some (bytes "/balance"), none⟩ ∧
    Target.ofPath (bytes (asking "/../898+628123456789").errand.path) =
      Target.ofPath (bytes (asking "+628123456789").errand.path) :=
  ⟨yields_balance _, List.mem_cons_of_mem _ List.mem_cons_self, by decide +kernel, by decide +kernel⟩

end

end ProviderClient

end WalletTopUp
