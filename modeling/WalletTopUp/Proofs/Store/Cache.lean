import Mathlib.Data.List.Nodup
import Mathlib.Tactic.IntervalCases
import WalletTopUp.Service
import WalletTopUp.Store.Cache

/-!
# Deleting from the cache

Deletions only filter, so they commute, and what one of them finds is what is missing afterwards. A pattern that ends
in a star stands for a beginning of keys. The keys of different kinds begin differently, and keys of one kind tell
their users apart.
-/

namespace WalletTopUp

namespace CacheStore
variable {cache : CacheStore} {test test' : String → Bool} {key : String}

/-- Every key has one entry at most. -/
def Keyed (cache : CacheStore) : Prop := (cache.map (·.1)).Nodup

theorem Keyed.drop (h : cache.Keyed) (test : String → Bool) : (cache.drop test).Keyed :=
  h.sublist (List.filter_sublist.map _)

theorem count_congr (h : ∀ entry ∈ cache, test entry.1 = test' entry.1) : cache.count test = cache.count test' := by
  apply List.countP_congr
  rintro ⟨key, entry⟩ hentry
  exact iff_of_eq (congrArg (· = true) (h _ hentry))

theorem drop_congr (h : ∀ entry ∈ cache, test entry.1 = test' entry.1) : cache.drop test = cache.drop test' := by
  apply List.filter_congr
  rintro ⟨key, entry⟩ hentry
  exact congrArg not (h _ hentry)

theorem drop_drop : (cache.drop test).drop test' = cache.drop fun key => test key || test' key := by
  unfold CacheStore.drop
  rw [List.filter_filter]
  refine List.filter_congr fun entry _ => ?_
  change (!test' entry.1 && !test entry.1) = !(test entry.1 || test' entry.1)
  rw [Bool.not_or, Bool.and_comm]

@[simp] theorem drop_false : cache.drop (fun _ => false) = cache :=
  List.filter_eq_self.mpr fun _ _ => rfl

theorem count_add_length_drop (cache : CacheStore) (test : String → Bool) :
    cache.count test + (cache.drop test).length = cache.length := by
  rw [CacheStore.count, CacheStore.drop, ← List.countP_eq_length_filter]
  simpa using (List.length_eq_countP_add_countP (fun entry : String × CacheEntry => test entry.1) ).symm

/-- Two deletions find what one of both would find. -/
theorem count_add_count_drop (cache : CacheStore) (test test' : String → Bool) :
    cache.count test + (cache.drop test).count test' = cache.count fun key => test key || test' key := by
  have hfirst := count_add_length_drop cache test
  have hsecond := count_add_length_drop (cache.drop test) test'
  have hboth := count_add_length_drop cache fun key => test key || test' key
  rw [drop_drop] at hsecond
  omega

theorem Keyed.toNat_found (h : cache.Keyed) (key : String) :
    (decide (0 < cache.count (· = key))).toNat = cache.count (· = key) := by
  have hle : cache.count (· = key) ≤ 1 := by
    have hcount : cache.count (· = key) = (cache.map (·.1)).count key := by
      rw [List.count, List.countP_map]
      exact List.countP_congr fun entry _ => by simp
    rw [hcount]
    exact List.nodup_iff_count_le_one.mp h key
  interval_cases cache.count (· = key) <;> rfl

/-! ## Patterns -/

/-- A star at the end of a pattern stands for every rest of a key. -/
theorem matchesPattern_star (stem key : String) :
    matchesPattern (stem ++ "*") key = stem.toList.isPrefixOf key.toList := by
  have hstar : (stem ++ "*").toList.reverse = '*' :: stem.toList.reverse := by
    rw [String.toList_append, List.reverse_append]
    rfl
  unfold matchesPattern
  rw [hstar]
  simp

end CacheStore

namespace CacheKey
variable {username other : String}

theorem account_inj : account username = account other ↔ username = other := by
  simp [account]

theorem balance_inj : balance username = balance other ↔ username = other := by
  simp [balance]

theorem account_ne_balance : account username ≠ balance other := by
  intro h
  simpa [account, balance, String.toList_append] using congrArg String.toList h

end CacheKey

end WalletTopUp
