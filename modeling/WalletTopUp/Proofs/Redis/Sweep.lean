import WalletTopUp.Proofs.Store.Cache
import WalletTopUp.Proofs.Underway
import WalletTopUp.Redis.Cache

/-!
# Deleting by pattern

A deletion by pattern stands before a step of the scan, before the deletion of the keys that the last step has found,
or it is over (`Stage`). What is sent follows from the stage, and the answer leads to the next one. `Stage.Fits` says
what the entries so far have to do with the stage; it holds along every run, whatever the store answers, and gives the
order of all commands (`Orderly`).

What is deleted depends on the store. `Keyspace.Serves` answers from entries that nobody else writes and from the
batches that the scan is going to find, and `Covers` is what the store promises of these: every matching key is found
at least once, and nothing else is. Then all matching keys are gone at the end, all other entries are as they were, and
the answer is the number of matching keys, however the batches cut and repeat them (`deletePattern_swept`).
-/

namespace WalletTopUp.Redis
variable {α β : Type} {pattern : String} {before history : RedisConnection.History}
  {entry : RedisConnection.Entry} {answer : Except String Reply}

/-! ## Commands and what they come to -/

/-- The cursor to go on from and the keys that a step of a scan has found. -/
abbrev Batch : Type := Nat × List String

def scanning (pattern : String) (cursor : Nat) : Command :=
  ["SCAN", toString cursor, "MATCH", pattern, "COUNT", toString scanBatch]

def deleting (keys : List String) : Command := "DEL" :: keys

/-- What an answer means, if it is a reply that means something. -/
def understood? (meaning : Reply → Option α) (answer : Except String Reply) : Option α :=
  answer.toOption.bind meaning

def complaint (what : String) : Except String Reply → String
  | .error reason => what ++ ": " ++ reason
  | .ok _ => what ++ ": " ++ withheld

theorem understand_eq (what : String) (meaning : Reply → Option α) (answer : Except String Reply) :
    understand what meaning answer =
      (understood? meaning answer).elim (throw (complaint what answer)) pure := by
  unfold understand understood?
  rcases answer with reason | reply
  · rfl
  · change _ = (meaning reply).elim _ _
    rcases hmeaning : meaning reply with _ | a
    all_goals
      simp only [hmeaning]
      rfl

theorem yields_command_bind_iff {what : String} {meaning : Reply → Option α} {c : Command} {f : α → Dialogue β}
    {r : Except String β} :
    (command what meaning c >>= f).run.Yields history r ↔
      ∃ answer rest, history = ⟨c, answer⟩ :: rest ∧
        ((understood? meaning answer = none ∧ rest = [] ∧ r = .error (complaint what answer)) ∨
          ∃ a, understood? meaning answer = some a ∧ (f a).run.Yields rest r) := by
  unfold command
  rw [bind_assoc, Attempt.yields_perform_bind_iff]
  refine exists_congr fun answer => exists_congr fun rest => and_congr_right fun _ => ?_
  rw [understand_eq]
  rcases understood? meaning answer with _ | a
  all_goals simp

def batch? : RedisConnection.Entry → Option Batch
  | ⟨"SCAN" :: _, answer⟩ => understood? Reply.scanned? answer
  | _ => none

def deleted? : RedisConnection.Entry → Option Nat
  | ⟨"DEL" :: _, answer⟩ => understood? Reply.word? answer
  | _ => none

def Fails (entry : RedisConnection.Entry) : Prop := batch? entry = none ∧ deleted? entry = none

def batches (history : RedisConnection.History) : List Batch := history.filterMap batch?

def deletedBy (history : RedisConnection.History) : Nat := (history.filterMap deleted?).sum

def cursorAfter (history : RedisConnection.History) : Nat := ((batches history).getLast?.map (·.1)).getD 0

/-- The cursor 0 comes last and only there. -/
def Ending (batches : List Batch) : Prop :=
  ∃ earlier keys, batches = earlier ++ [(0, keys)] ∧ ∀ batch ∈ earlier, batch.1 ≠ 0

section
variable {cursor : Nat} {keys : List String}

@[simp] theorem batch?_scanning : batch? ⟨scanning pattern cursor, answer⟩ = understood? Reply.scanned? answer := rfl

@[simp] theorem batch?_deleting : batch? ⟨deleting keys, answer⟩ = none := rfl

@[simp] theorem deleted?_scanning : deleted? ⟨scanning pattern cursor, answer⟩ = none := rfl

@[simp] theorem deleted?_deleting : deleted? ⟨deleting keys, answer⟩ = understood? Reply.word? answer := rfl

@[simp] theorem batches_snoc : batches (before ++ [entry]) = batches before ++ (batch? entry).toList := by
  rw [batches, batches, List.filterMap_append]
  rcases hbatch : batch? entry with _ | batch <;> simp [hbatch]

@[simp] theorem deletedBy_snoc : deletedBy (before ++ [entry]) = deletedBy before + (deleted? entry).getD 0 := by
  rw [deletedBy, deletedBy, List.filterMap_append, List.sum_append]
  rcases hdeleted : deleted? entry with _ | n <;> simp [hdeleted]

end

/-! ## Stages -/

/-- Where a deletion by pattern stands: what it will send next, for how many rounds it may go on after this one, and
how many keys it has deleted. -/
inductive Stage where
  | scan (rounds cursor deleted : Nat)
  | delete (rounds next deleted : Nat) (keys : List String)
  | ended (r : Except String (Option Nat))

namespace Stage

def start : (rounds cursor deleted : Nat) → Stage
  | 0, _, _ => ended (.ok none)
  | rounds + 1, cursor, deleted => scan rounds cursor deleted

def turn (rounds next deleted : Nat) : Stage :=
  if next = 0 then ended (.ok (some deleted)) else start rounds next deleted

def command? (pattern : String) : Stage → Option Command
  | scan _ cursor _ => some (scanning pattern cursor)
  | delete _ _ _ keys => some (deleting keys)
  | ended _ => none

def after (pattern : String) (answer : Except String Reply) : Stage → Stage
  | scan rounds _ deleted =>
    match understood? Reply.scanned? answer with
    | none => ended (.error (complaint ("Failed to scan " ++ pattern) answer))
    | some (next, keys) => if keys = [] then turn rounds next deleted else delete rounds next deleted keys
  | delete rounds next deleted _ =>
    match understood? Reply.word? answer with
    | none => ended (.error (complaint ("Failed to delete keys for " ++ pattern) answer))
    | some n => turn rounds next (deleted + n)
  | ended r => ended r

/-- From a stage to the end: each entry asks what the stage sends, and its answer leads to the next stage. -/
inductive Runs (pattern : String) : Stage → RedisConnection.History → Except String (Option Nat) → Prop
  | ended (r : Except String (Option Nat)) : Runs pattern (ended r) [] r
  | step {stage : Stage} {c : Command} {answer : Except String Reply} {history : RedisConnection.History}
      {r : Except String (Option Nat)} (h : stage.command? pattern = some c)
      (rest : Runs pattern (stage.after pattern answer) history r) : Runs pattern stage (⟨c, answer⟩ :: history) r

end Stage

/-- The result with what had been deleted before. -/
def onTop (deleted : Nat) (r : Except String (Option Nat)) : Except String (Option Nat) := r.map (·.map (deleted + ·))

section
variable {rounds cursor deleted : Nat}

open Stage in
theorem runs_of_yields {r : Except String (Option Nat)}
    (h : (deleteFrom pattern rounds cursor).run.Yields history r) :
    Runs pattern (start rounds cursor deleted) history (onTop deleted r) := by
  induction rounds generalizing cursor deleted history r with
  | zero =>
    obtain ⟨rfl, rfl⟩ := Attempt.yields_pure_iff.mp h
    exact .ended _
  | succ rounds ih =>
    -- what is left of a round when its batch has been dealt with
    have hturn : ∀ {next n : Nat} {rest : RedisConnection.History} {r : Except String (Option Nat)},
        (if next = 0 then return some n else return (← deleteFrom pattern rounds next).map (n + ·) :
          Dialogue (Option Nat)).run.Yields rest r →
        Runs pattern (turn rounds next (deleted + n)) rest (onTop deleted r) := by
      intro next n rest r hrest
      unfold turn
      split_ifs at hrest ⊢ with hnext
      · obtain ⟨rfl, rfl⟩ := Attempt.yields_pure_iff.mp hrest
        exact .ended _
      · rcases Attempt.yields_bind_cases hrest with ⟨e, hfirst, rfl⟩ | ⟨first, rest, total, rfl, hfirst, hrest⟩
        · exact ih hfirst
        · obtain ⟨rfl, rfl⟩ := Attempt.yields_pure_iff.mp hrest
          rw [List.append_nil]
          have hruns : Runs pattern (start rounds next (deleted + n)) first (onTop (deleted + n) (.ok total)) :=
            ih hfirst
          rcases total with _ | total
          · exact hruns
          · simpa [onTop, Except.map, Nat.add_assoc] using hruns
    obtain ⟨answer, rest, rfl, ⟨hanswer, rfl, rfl⟩ | ⟨⟨next, keys⟩, hanswer, hrest⟩⟩ :=
      yields_command_bind_iff.mp h
    · refine .step rfl ?_
      rw [start, after, hanswer]
      exact .ended _
    · refine .step rfl ?_
      rw [start, after, hanswer]
      by_cases hkeys : keys = []
      · subst hkeys
        exact hturn (n := 0) hrest
      · have hsent : deleteBatch pattern keys =
            command ("Failed to delete keys for " ++ pattern) Reply.word? (deleting keys) :=
          if_neg (by rwa [List.isEmpty_iff])
        simp only [hsent] at hrest
        simp only [if_neg hkeys]
        obtain ⟨answer', rest, rfl, ⟨hanswer', rfl, rfl⟩ | ⟨n, hanswer', hrest⟩⟩ :=
          yields_command_bind_iff.mp hrest
        · refine .step rfl ?_
          rw [after, hanswer']
          exact .ended _
        · refine .step rfl ?_
          rw [after, hanswer']
          exact hturn hrest

end

/-! ## The order of commands -/

def report (pattern : String) (entry : RedisConnection.Entry) : String :=
  let what := if entry.1.head? = some "DEL" then "Failed to delete keys for " else "Failed to scan "
  complaint (what ++ pattern) entry.2

/-- What the entries so far have to do with the stage that they have led to, when there may be `total` rounds. -/
def Stage.Fits (pattern : String) (total : Nat) (before : RedisConnection.History) : Stage → Prop
  | scan rounds cursor deleted =>
    cursor = cursorAfter before ∧ deleted = deletedBy before ∧ (batches before).length + rounds + 1 = total ∧
      ∀ batch ∈ batches before, batch.1 ≠ 0
  | delete rounds next deleted keys =>
    deleted = deletedBy before ∧ (batches before).length + rounds = total ∧ keys ≠ [] ∧
      ∃ earlier scan, before = earlier ++ [scan] ∧ batch? scan = some (next, keys) ∧
        ∀ batch ∈ batches earlier, batch.1 ≠ 0
  | ended (.ok (some n)) => n = deletedBy before ∧ Ending (batches before)
  | ended (.ok none) => (batches before).length = total ∧ ∀ batch ∈ batches before, batch.1 ≠ 0
  | ended (.error reason) =>
    ∃ earlier entry, before = earlier ++ [entry] ∧ Fails entry ∧ reason = report pattern entry

namespace Stage
variable {rounds next total : Nat} {stage : Stage} {keys : List String} {r : Except String (Option Nat)}

theorem fits_start (hrounds : (batches before).length + rounds = total)
    (hcursors : ∀ batch ∈ batches before, batch.1 ≠ 0) :
    (start rounds (cursorAfter before) (deletedBy before)).Fits pattern total before := by
  rcases rounds with _ | rounds
  · exact ⟨hrounds, hcursors⟩
  · exact ⟨rfl, rfl, hrounds, hcursors⟩

theorem fits_start_zero (total : Nat) : (start total 0 0).Fits pattern total [] :=
  fits_start (Nat.zero_add total) fun _ hbatch => absurd hbatch List.not_mem_nil

theorem fits_turn {earlier : List Batch} (hbatches : batches before = earlier ++ [(next, keys)])
    (hrounds : (batches before).length + rounds = total) (hcursors : ∀ batch ∈ earlier, batch.1 ≠ 0) :
    (turn rounds next (deletedBy before)).Fits pattern total before := by
  unfold turn
  split_ifs with hnext
  · subst hnext
    exact ⟨rfl, earlier, keys, hbatches, hcursors⟩
  · have hcursor : cursorAfter before = next := by
      rw [cursorAfter, hbatches, List.getLast?_concat]
      rfl
    rw [← hcursor]
    apply fits_start hrounds
    rw [hbatches]
    simpa [or_imp, forall_and, hnext] using hcursors

theorem Fits.after (h : stage.Fits pattern total before) (entry : RedisConnection.Entry)
    (hcommand : stage.command? pattern = some entry.1) :
    (stage.after pattern entry.2).Fits pattern total (before ++ [entry]) := by
  obtain ⟨c, answer⟩ := entry
  rcases stage with ⟨rounds, cursor, deleted⟩ | ⟨rounds, next, deleted, keys⟩ | r
  · obtain rfl : scanning pattern cursor = c := Option.some.inj hcommand
    obtain ⟨rfl, rfl, hrounds, hcursors⟩ := h
    -- the entry adds a batch, and nothing to what is deleted
    simp only [Stage.after]
    rcases hanswer : understood? Reply.scanned? answer with _ | ⟨next, keys⟩
    · exact ⟨before, _, rfl, ⟨hanswer, rfl⟩, rfl⟩
    · have hbatches : batches (before ++ [⟨scanning pattern (cursorAfter before), answer⟩]) =
          batches before ++ [(next, keys)] := by
        rw [batches_snoc, batch?_scanning, hanswer]
        rfl
      have hdeleted :
          deletedBy (before ++ [⟨scanning pattern (cursorAfter before), answer⟩]) = deletedBy before := by
        rw [deletedBy_snoc, deleted?_scanning, Option.getD_none, Nat.add_zero]
      have hlength :
          (batches (before ++ [⟨scanning pattern (cursorAfter before), answer⟩])).length + rounds = total := by
        rw [hbatches, List.length_append, List.length_singleton]
        omega
      simp only
      split_ifs with hkeys
      · rw [← hdeleted]
        exact fits_turn hbatches hlength hcursors
      · exact ⟨hdeleted.symm, hlength, hkeys, before, _, rfl, hanswer, hcursors⟩
  · obtain rfl : deleting keys = c := Option.some.inj hcommand
    obtain ⟨rfl, hrounds, hkeys, earlier, scan, rfl, hscan, hcursors⟩ := h
    -- the entry adds to what is deleted, and no batch
    simp only [Stage.after]
    rcases hanswer : understood? Reply.word? answer with _ | n
    · exact ⟨_, _, rfl, ⟨rfl, hanswer⟩, rfl⟩
    · have hbatches : batches (earlier ++ [scan] ++ [⟨deleting keys, answer⟩]) = batches (earlier ++ [scan]) := by
        rw [batches_snoc, batch?_deleting]
        exact List.append_nil _
      have hdeleted : deletedBy (earlier ++ [scan] ++ [⟨deleting keys, answer⟩]) =
          deletedBy (earlier ++ [scan]) + n := by
        rw [deletedBy_snoc, deleted?_deleting, hanswer]
        rfl
      simp only
      rw [← hdeleted]
      have hlast : batches (earlier ++ [scan] ++ [⟨deleting keys, answer⟩]) = batches earlier ++ [(next, keys)] := by
        rw [hbatches, batches_snoc, hscan]
        rfl
      exact fits_turn hlast (by rwa [hbatches]) hcursors
  · cases hcommand

theorem Runs.fits {past : RedisConnection.History} (h : Runs pattern stage history r)
    (hfits : stage.Fits pattern total past) : (Stage.ended r).Fits pattern total (past ++ history) := by
  induction h generalizing past with
  | ended r => rwa [List.append_nil]
  | @step stage c answer history r hcommand rest ih =>
    have hnext := ih (hfits.after ⟨c, answer⟩ hcommand)
    rwa [List.append_assoc] at hnext

theorem Runs.exists_stage {past after : RedisConnection.History}
    (h : Runs pattern stage (before ++ entry :: after) r) (hfits : stage.Fits pattern total past) :
    ∃ stage' : Stage, stage'.Fits pattern total (past ++ before) ∧ stage'.command? pattern = some entry.1 ∧
      Runs pattern (stage'.after pattern entry.2) after r := by
  induction before generalizing stage past with
  | nil =>
    cases h with
    | step hcommand rest => exact ⟨stage, by rwa [List.append_nil], hcommand, rest⟩
  | cons first before ih =>
    cases h with
    | step hcommand rest =>
      obtain ⟨stage', hfits', hcommand', hrest⟩ := ih rest (hfits.after ⟨_, _⟩ hcommand)
      refine ⟨stage', ?_, hcommand', hrest⟩
      rwa [List.append_assoc] at hfits'

end Stage

/-- How a deletion by pattern goes, whatever is answered. -/
structure Orderly (pattern : String) (rounds : Nat) (history : RedisConnection.History)
    (r : Except String (Option Nat)) : Prop where
  /-- A step of the scan goes on from the cursor of the step before it, the first one from the cursor 0. A deletion
  follows directly on the step that has found its keys, and there are some. -/
  asked : ∀ before entry after, history = before ++ entry :: after →
    entry.1 = scanning pattern (cursorAfter before) ∨
      ∃ earlier scan next keys, before = earlier ++ [scan] ∧ batch? scan = some (next, keys) ∧ keys ≠ [] ∧
        entry.1 = deleting keys
  /-- Keys that were found are deleted at once. -/
  deletes : ∀ before scan after next keys, history = before ++ scan :: after → batch? scan = some (next, keys) →
    keys ≠ [] → ∃ answer rest, after = ⟨deleting keys, answer⟩ :: rest
  /-- After a step that has found nothing the scan goes on all the same, as long as it may. -/
  goes_on : ∀ before scan after next, history = before ++ scan :: after → batch? scan = some (next, []) → next ≠ 0 →
    (∃ answer rest, after = ⟨scanning pattern next, answer⟩ :: rest) ∨ after = [] ∧ r = .ok none
  /-- The first command that fails is the last one. -/
  failed : ∀ before entry after, history = before ++ entry :: after → Fails entry →
    after = [] ∧ r = .error (report pattern entry)
  error : ∀ reason, r = .error reason → ∃ before entry, history = before ++ [entry] ∧ Fails entry
  finished : ∀ n, r = .ok (some n) → n = deletedBy history ∧ Ending (batches history)
  unfinished : r = .ok none → (batches history).length = rounds ∧ ∀ batch ∈ batches history, batch.1 ≠ 0

namespace Stage
variable {rounds next deleted total : Nat} {stage : Stage} {keys : List String} {r : Except String (Option Nat)}

theorem Runs.turn_cases (h : Runs pattern (turn rounds next deleted) history r) (hnext : next ≠ 0) :
    (∃ answer rest, history = ⟨scanning pattern next, answer⟩ :: rest) ∨ history = [] ∧ r = .ok none := by
  rw [turn, if_neg hnext] at h
  rcases rounds with _ | rounds
  · cases h with
    | ended => exact .inr ⟨rfl, rfl⟩
    | step hcommand => cases hcommand
  · cases h with
    | step hcommand =>
      cases hcommand
      exact .inl ⟨_, _, rfl⟩

theorem Runs.ended_inv {r' : Except String (Option Nat)} (h : Runs pattern (Stage.ended r') history r) :
    history = [] ∧ r = r' := by
  cases h with
  | ended => exact ⟨rfl, rfl⟩
  | step hcommand => cases hcommand

/-- An entry in the middle of a run is a step of the scan, or it deletes what the step directly before has found. -/
theorem Runs.split {after : RedisConnection.History}
    (h : Runs pattern (start total 0 0) (before ++ entry :: after) r) :
    (∃ rounds answer, entry = ⟨scanning pattern (cursorAfter before), answer⟩ ∧
        Runs pattern ((scan rounds (cursorAfter before) (deletedBy before)).after pattern answer) after r) ∨
      ∃ earlier scan next keys rounds answer, before = earlier ++ [scan] ∧ batch? scan = some (next, keys) ∧
        keys ≠ [] ∧ entry = ⟨deleting keys, answer⟩ ∧
          Runs pattern ((delete rounds next (deletedBy before) keys).after pattern answer) after r := by
  obtain ⟨stage, hfits, hcommand, hrest⟩ := h.exists_stage (fits_start_zero total)
  rw [List.nil_append] at hfits
  obtain ⟨c, answer⟩ := entry
  rcases stage with ⟨rounds, cursor, deleted⟩ | ⟨rounds, next, deleted, keys⟩ | r
  · obtain rfl : scanning pattern cursor = c := Option.some.inj hcommand
    obtain ⟨rfl, rfl, -⟩ := hfits
    exact .inl ⟨rounds, answer, rfl, hrest⟩
  · obtain rfl : deleting keys = c := Option.some.inj hcommand
    obtain ⟨rfl, -, hkeys, earlier, scan, hbefore, hscan, -⟩ := hfits
    exact .inr ⟨earlier, scan, next, keys, rounds, answer, hbefore, hscan, hkeys, rfl, hrest⟩
  · cases hcommand

theorem Runs.orderly (h : Runs pattern (start total 0 0) history r) : Orderly pattern total history r := by
  have hfits := h.fits (fits_start_zero total)
  rw [List.nil_append] at hfits
  refine ⟨?_, ?_, ?_, ?_, ?_, ?_, ?_⟩
  · rintro before entry after rfl
    rcases h.split with ⟨rounds, answer, rfl, -⟩ |
      ⟨earlier, scan, next, keys, _, answer, hbefore, hscan, hkeys, rfl, -⟩
    · exact .inl rfl
    · exact .inr ⟨earlier, scan, next, keys, hbefore, hscan, hkeys, rfl⟩
  · rintro before scan after next keys rfl hscan hkeys
    rcases h.split with ⟨rounds, answer, rfl, hrest⟩ | ⟨_, _, _, _, _, answer, _, _, _, rfl, -⟩
    · rw [batch?_scanning] at hscan
      simp only [Stage.after, hscan, if_neg hkeys] at hrest
      cases hrest with
      | step hcommand =>
        cases hcommand
        exact ⟨_, _, rfl⟩
    · cases hscan
  · rintro before scan after next rfl hscan hnext
    rcases h.split with ⟨rounds, answer, rfl, hrest⟩ | ⟨_, _, _, _, _, answer, _, _, _, rfl, -⟩
    · rw [batch?_scanning] at hscan
      simp only [Stage.after, hscan, if_true] at hrest
      exact hrest.turn_cases hnext
    · cases hscan
  · rintro before entry after rfl ⟨hbatch, hdeleted⟩
    rcases h.split with ⟨rounds, answer, rfl, hrest⟩ | ⟨_, _, _, _, _, answer, _, _, _, rfl, hrest⟩
    · rw [batch?_scanning] at hbatch
      simp only [Stage.after, hbatch] at hrest
      exact hrest.ended_inv
    · rw [deleted?_deleting] at hdeleted
      simp only [Stage.after, hdeleted] at hrest
      exact hrest.ended_inv
  · rintro reason rfl
    obtain ⟨before, entry, hhistory, hfails, -⟩ := hfits
    exact ⟨before, entry, hhistory, hfails⟩
  · rintro n rfl
    exact hfits
  · rintro rfl
    exact hfits

end Stage

/-! ## A store that nobody else writes -/

/-- What a store holds, the cursor that it waits for, and what the scan is going to find. -/
structure Keyspace where
  entries : CacheStore
  cursor : Nat
  batches : List Batch

/-- How the store answers a command that is no deletion. A step of the scan that goes on from the right cursor finds
the next batch. Any other command may be answered in any way. -/
def Keyspace.Finds (pattern : String) (s : Keyspace) (c : Command) (answer : Except String Reply)
    (t : Keyspace) : Prop :=
  match s.batches with
  | batch :: batches =>
    if c = scanning pattern s.cursor then
      understood? Reply.scanned? answer = some batch ∧ t = ⟨s.entries, batch.1, batches⟩
    else t = s
  | [] => t = s

/-- How the store answers. A deletion deletes the keys and tells how many were there. -/
def Keyspace.Serves (pattern : String) (s : Keyspace) : RedisConnection.Entry → Keyspace → Prop
  | ⟨"DEL" :: keys, answer⟩, t =>
    understood? Reply.word? answer = some (s.entries.count keys.contains) ∧
      t = { s with entries := s.entries.drop keys.contains }
  | ⟨c, answer⟩, t => s.Finds pattern c answer t

/-- What the store promises of the batches: every key of the kind that was there from the beginning is found, nothing
else is, and the cursor 0 comes with the last batch. A key may be found more than once. -/
structure Covers (matching : String → Bool) (entries : CacheStore) (batches : List Batch) : Prop where
  found : ∀ entry ∈ entries, matching entry.1 → ∃ batch ∈ batches, entry.1 ∈ batch.2
  matching : ∀ batch ∈ batches, ∀ key ∈ batch.2, matching key
  ending : Ending batches

def lists (batches : List Batch) (key : String) : Bool := batches.any (·.2.contains key)

theorem ending_cons_iff {next : Nat} {keys : List String} {rest : List Batch} :
    Ending ((next, keys) :: rest) ↔ if next = 0 then rest = [] else Ending rest := by
  unfold Ending
  split_ifs with hnext
  · constructor
    · rintro ⟨earlier, last, heq, hearlier⟩
      rcases earlier with _ | ⟨first, earlier⟩
      · exact (List.cons.inj heq).2
      · obtain ⟨rfl, -⟩ := List.cons.inj heq
        exact absurd hnext (hearlier _ List.mem_cons_self)
    · rintro rfl
      exact ⟨[], keys, by rw [hnext, List.nil_append], by simp⟩
  · constructor
    · rintro ⟨earlier, last, heq, hearlier⟩
      rcases earlier with _ | ⟨first, earlier⟩
      · simp [hnext] at heq
      · obtain ⟨-, rfl⟩ := List.cons.inj heq
        exact ⟨earlier, last, rfl, fun batch hbatch => hearlier batch (List.mem_cons_of_mem _ hbatch)⟩
    · rintro ⟨earlier, last, rfl, hearlier⟩
      refine ⟨(next, keys) :: earlier, last, rfl, ?_⟩
      simpa [hnext] using hearlier

namespace Stage

/-- What a stage has to do with the store: what has been deleted and what will still be found are all the keys to be
deleted, in number and as entries that are left. -/
def Meets (total : Nat) (left : CacheStore) (s : Keyspace) : Stage → Prop
  | scan rounds cursor deleted =>
    s.cursor = cursor ∧ s.batches.length ≤ rounds + 1 ∧ Ending s.batches ∧
      deleted + s.entries.count (lists s.batches) = total ∧ s.entries.drop (lists s.batches) = left
  | delete rounds next deleted keys =>
    s.cursor = next ∧ s.batches.length ≤ rounds ∧ Ending ((next, keys) :: s.batches) ∧
      deleted + s.entries.count (lists ((next, keys) :: s.batches)) = total ∧
      s.entries.drop (lists ((next, keys) :: s.batches)) = left
  | ended r => r = .ok (some total) ∧ s = ⟨left, 0, []⟩

variable {rounds next deleted total : Nat} {left : CacheStore} {keys : List String} {r : Except String (Option Nat)}

theorem meets_turn {entries : CacheStore} {batches : List Batch} (hrounds : batches.length ≤ rounds)
    (hending : Ending ((next, keys) :: batches)) (htotal : deleted + entries.count (lists batches) = total)
    (hleft : entries.drop (lists batches) = left) :
    (turn rounds next deleted).Meets total left ⟨entries, next, batches⟩ := by
  rw [ending_cons_iff] at hending
  unfold turn
  split_ifs at hending ⊢ with hnext
  · obtain rfl : batches = [] := hending
    have hcount : entries.count (lists []) = 0 := List.countP_eq_zero.mpr fun _ _ => Bool.false_ne_true
    have hdrop : entries.drop (lists []) = entries := CacheStore.drop_false
    refine ⟨?_, ?_⟩
    · rw [← htotal, hcount, Nat.add_zero]
    · rw [← hleft, hdrop, hnext]
  · rcases rounds with _ | rounds
    · -- no round is left, but a batch is
      obtain ⟨earlier, last, rfl, -⟩ := hending
      simp at hrounds
    · exact ⟨rfl, hrounds, hending, htotal, hleft⟩

theorem lists_cons (batches : List Batch) :
    lists ((next, keys) :: batches) = fun key => keys.contains key || lists batches key := rfl

/-- Every step keeps what the stage has to do with the store. -/
theorem Meets.after {stage : Stage} {s t : Keyspace} (h : stage.Meets total left s) {c : Command}
    (hcommand : stage.command? pattern = some c) (hserves : s.Serves pattern ⟨c, answer⟩ t) :
    (stage.after pattern answer).Meets total left t := by
  rcases stage with ⟨rounds, cursor, deleted⟩ | ⟨rounds, next, deleted, keys⟩ | r
  · obtain rfl : scanning pattern cursor = c := Option.some.inj hcommand
    obtain ⟨entries, _, batches⟩ := s
    obtain ⟨rfl, hrounds, hending, htotal, hleft⟩ := h
    rcases batches with _ | ⟨⟨next, keys⟩, batches⟩
    · obtain ⟨earlier, last, hbatches, -⟩ := hending
      simp at hbatches
    · obtain ⟨hanswer, rfl⟩ :
          understood? Reply.scanned? answer = some (next, keys) ∧ t = ⟨entries, next, batches⟩ := by
        simpa [Keyspace.Serves, Keyspace.Finds, scanning] using hserves
      simp only [Stage.after, hanswer]
      have hlength : batches.length ≤ rounds := Nat.le_of_succ_le_succ hrounds
      split_ifs with hkeys
      · subst hkeys
        exact meets_turn hlength hending htotal hleft
      · exact ⟨rfl, hlength, hending, htotal, hleft⟩
  · obtain rfl : deleting keys = c := Option.some.inj hcommand
    obtain ⟨entries, _, batches⟩ := s
    obtain ⟨rfl, hrounds, hending, htotal, hleft⟩ := h
    obtain ⟨hanswer, rfl⟩ := hserves
    simp only [Stage.after, hanswer]
    -- a key of this batch counts now; when a later batch has it again, it is no longer there
    rw [lists_cons] at htotal hleft
    rw [← CacheStore.count_add_count_drop, ← Nat.add_assoc] at htotal
    rw [← CacheStore.drop_drop] at hleft
    exact meets_turn hrounds hending htotal hleft
  · cases hcommand

theorem Runs.meets {stage : Stage} {s t : Keyspace} (h : Runs pattern stage history r)
    (hserved : Served (Keyspace.Serves pattern) s history t) (hmeets : stage.Meets total left s) :
    r = .ok (some total) ∧ t = ⟨left, 0, []⟩ := by
  induction h generalizing s with
  | ended r =>
    obtain rfl := served_nil_iff.mp hserved
    exact hmeets
  | step hcommand rest ih =>
    obtain ⟨u, hserves, hserved⟩ := served_cons_iff.mp hserved
    exact ih hserved (hmeets.after hcommand hserves)

end Stage

/-! ## Answers that a store can give -/

/-- All numbers that the store may have to answer with are words of 64 bits. -/
def Keyspace.Countable (s : Keyspace) : Prop :=
  s.entries.length < Nat.pow 2 64 ∧ ∀ batch ∈ s.batches, batch.1 < Nat.pow 2 64

theorem word?_int {n : Nat} (h : n < Nat.pow 2 64) : Reply.word? (.int n) = some n := by
  have hpow : Int.pow 2 64 = ((Nat.pow 2 64 : Nat) : Int) := by decide
  have hmod : (n : Int) % Int.pow 2 64 = n := by
    rw [hpow]
    exact Int.emod_eq_of_lt (Int.natCast_nonneg n) (Int.ofNat_lt.mpr h)
  rw [Reply.word?, hmod, Int.toNat_natCast]

theorem texts?_array_status (keys : List String) : Reply.texts? (.array (keys.map .status)) = some keys := by
  rw [Reply.texts?]
  induction keys with
  | nil => rfl
  | cons key keys ih =>
    rw [List.map_cons, List.mapM_cons, ih]
    rfl

theorem Keyspace.exists_serves (pattern : String) (s : Keyspace) (hs : s.Countable) (c : Command) :
    ∃ answer t, s.Serves pattern ⟨c, answer⟩ t ∧ t.Countable := by
  obtain ⟨entries, cursor, batches⟩ := s
  obtain ⟨hentries, hcursors⟩ := hs
  by_cases hdeleting : ∃ keys, c = deleting keys
  · obtain ⟨keys, rfl⟩ := hdeleting
    have hcount : entries.count keys.contains < Nat.pow 2 64 :=
      Nat.lt_of_le_of_lt List.countP_le_length hentries
    refine ⟨.ok (.int (entries.count keys.contains)), _, ⟨word?_int hcount, rfl⟩, ?_, hcursors⟩
    exact Nat.lt_of_le_of_lt (List.length_filter_le _ _) hentries
  · have hother : ∀ answer t, Keyspace.Serves pattern ⟨entries, cursor, batches⟩ ⟨c, answer⟩ t ↔
        Keyspace.Finds pattern ⟨entries, cursor, batches⟩ c answer t := by
      intro answer t
      unfold Keyspace.Serves
      split
      · next heq =>
        cases heq
        exact absurd ⟨_, rfl⟩ hdeleting
      · next heq =>
        cases heq
        rfl
    simp only [hother]
    unfold Keyspace.Finds
    rcases batches with _ | ⟨⟨next, keys⟩, rest⟩
    · exact ⟨.ok .nil, _, rfl, hentries, hcursors⟩
    · have hnext : next < Nat.pow 2 64 := hcursors _ List.mem_cons_self
      by_cases hscanning : c = scanning pattern cursor
      · simp only [if_pos hscanning]
        refine ⟨.ok (.array [.int next, .array (keys.map .status)]), _, ⟨?_, rfl⟩, hentries, ?_⟩
        · change (do return (← (Reply.int next).word?, ← (Reply.array (keys.map .status)).texts?)) = some (next, keys)
          rw [word?_int hnext, texts?_array_status]
          rfl
        · exact fun batch hbatch => hcursors batch (List.mem_cons_of_mem _ hbatch)
      · simp only [if_neg hscanning]
        exact ⟨.ok .nil, _, rfl, hentries, hcursors⟩

/-! ## The whole deletion -/

/-- The result when a scan may take `maxRounds` steps. -/
def settled (pattern : String) : Except String (Option Nat) → Except String Nat
  | .ok (some deleted) => .ok deleted
  | .ok none => .error ("Failed to scan " ++ pattern ++ ": " ++ withheld)
  | .error reason => .error reason

theorem yields_deletePattern_iff {m : Except String Nat} :
    (deletePattern pattern).run.Yields history m ↔
      ∃ r, (deleteFrom pattern maxRounds 0).run.Yields history r ∧ m = settled pattern r := by
  have hrun : (deletePattern pattern).run =
      (deleteFrom pattern maxRounds 0).run.bind fun r => .finish (settled pattern r) := by
    unfold deletePattern
    rw [ExceptT.run_bind]
    refine congrArg _ (funext fun r => ?_)
    rcases r with reason | _ | deleted <;> rfl
  rw [hrun]
  exact Program.yields_bind_finish_iff

theorem Covers.lists_eq {matching : String → Bool} {entries : CacheStore} {batches : List Batch}
    (h : Covers matching entries batches) : ∀ entry ∈ entries, lists batches entry.1 = matching entry.1 := by
  intro entry hentry
  rw [Bool.eq_iff_iff, lists, List.any_eq_true]
  constructor
  · rintro ⟨batch, hbatch, hkey⟩
    exact h.matching batch hbatch entry.1 (List.contains_iff_mem.mp hkey)
  · intro hmatching
    obtain ⟨batch, hbatch, hkey⟩ := h.found entry hentry hmatching
    exact ⟨batch, hbatch, List.contains_iff_mem.mpr hkey⟩

/-- **A deletion by pattern deletes what matches, all of it and nothing else.** However many rounds it may take, and
whatever is answered, the dialogue comes to an end, and its commands come in order: each step of the scan goes on from
the cursor of the step before, keys are deleted at once and never an empty batch, an empty batch does not end the scan
but the cursor 0 does, and the first command that fails is the last one and makes the result an error. Over a store that
nobody else writes, whose scan finds every matching key at least once, nothing else, and ends with the only cursor 0 as
soon as the rounds allow, the matching entries are gone at the end, the others are left, and the result is the number of
the matching entries. Such a dialogue takes place as long as the store can count in words. The whole deletion is this
dialogue with as many rounds as there are cursors. -/
theorem deletePattern_swept (pattern : String) (rounds : Nat) :
    (∀ respond, ∃ history r, Answered respond [] history ∧ (deleteFrom pattern rounds 0).run.Yields history r) ∧
    (∀ history r, (deleteFrom pattern rounds 0).run.Yields history r →
      Orderly pattern rounds history r ∧
      ∀ matching entries batches t, Covers matching entries batches → batches.length ≤ rounds →
        Served (Keyspace.Serves pattern) ⟨entries, 0, batches⟩ history t →
        r = .ok (some (entries.count matching)) ∧ t = ⟨entries.drop matching, 0, []⟩) ∧
    (∀ s : Keyspace, s.Countable → ∃ history r t,
      (deleteFrom pattern rounds 0).run.Yields history r ∧ Served (Keyspace.Serves pattern) s history t) ∧
    ∀ history m, (deletePattern pattern).run.Yields history m ↔
      ∃ r, (deleteFrom pattern maxRounds 0).run.Yields history r ∧ m = settled pattern r := by
  refine ⟨?_, ?_, ?_, fun history m => yields_deletePattern_iff⟩
  · exact fun respond => Program.exists_answered _ respond []
  · intro history r h
    have hruns : Stage.Runs pattern (Stage.start rounds 0 0) history r := by
      have hdeleted : onTop 0 r = r := by
        rcases r with reason | _ | n
        all_goals simp [onTop, Except.map]
      rw [← hdeleted]
      exact runs_of_yields h
    refine ⟨hruns.orderly, ?_⟩
    intro matching entries batches t hcovers hrounds hserved
    have hlists := hcovers.lists_eq
    -- there is a first round, since there is a batch
    obtain ⟨rounds, rfl⟩ : ∃ k, rounds = k + 1 := by
      obtain ⟨earlier, keys, rfl, -⟩ := hcovers.ending
      rw [List.length_append, List.length_singleton] at hrounds
      exact ⟨rounds - 1, by omega⟩
    refine hruns.meets hserved ?_
    have hcount : 0 + entries.count (lists batches) = entries.count matching := by
      rw [Nat.zero_add, CacheStore.count_congr hlists]
    exact ⟨rfl, hrounds, hcovers.ending, hcount, CacheStore.drop_congr hlists⟩
  · intro s hs
    exact Program.exists_served_within (Keyspace.exists_serves pattern) _ hs

namespace Sample

def account : String × CacheEntry := ("account:amber", ⟨"1", none⟩)

def stored : CacheStore := [account, ("trx:1", ⟨"2", none⟩), ("trx:2", ⟨"3", none⟩)]

/-- The first step of the scan finds nothing, the second one finds a key twice, and the last one finds a key that is
already deleted. -/
def found : List Batch := [(17, []), (4, ["trx:2", "trx:1", "trx:2"]), (0, ["trx:1"])]

def isTransaction : String → Bool := CacheStore.matchesPattern CacheKey.transactionPattern

theorem covers_found : Covers isTransaction stored found := by
  refine ⟨?_, ?_, [(17, []), (4, ["trx:2", "trx:1", "trx:2"])], ["trx:1"], rfl, ?_⟩
  all_goals decide +kernel

theorem deletePattern_swept_transactions :
    ∃ history, (deletePattern CacheKey.transactionPattern).run.Yields history (.ok 2) ∧
      Served (Keyspace.Serves CacheKey.transactionPattern) ⟨stored, 0, found⟩ history ⟨[account], 0, []⟩ := by
  obtain ⟨-, hall, hexists, hwhole⟩ := deletePattern_swept CacheKey.transactionPattern maxRounds
  obtain ⟨history, r, t, hyields, hserved⟩ := hexists ⟨stored, 0, found⟩ ⟨by decide +kernel, by decide +kernel⟩
  obtain ⟨rfl, rfl⟩ := (hall history r hyields).2 isTransaction stored found t covers_found (by decide) hserved
  have hcount : stored.count isTransaction = 2 := by decide +kernel
  have hleft : stored.drop isTransaction = [account] := by decide +kernel
  rw [hleft] at hserved
  rw [hcount] at hyields
  exact ⟨history, (hwhole history (.ok 2)).mpr ⟨_, hyields, rfl⟩, hserved⟩

end Sample

end WalletTopUp.Redis
