/-!
# The cache in memory

A cache holds texts under keys, in the order of the keys, each with the minutes it is good for.
-/

namespace WalletTopUp

/-- An entry of the cache. -/
structure CacheEntry where
  value : String
  /-- For how long the entry was put there, if that is known. -/
  minutes : Option Nat
  deriving DecidableEq, Repr

/-- The entries by their keys. -/
abbrev CacheStore := List (String × CacheEntry)

namespace CacheStore

/-- A pattern that ends in a star stands for the keys that begin with the rest of it; any other stands for
itself. -/
def matchesPattern (pattern key : String) : Bool :=
  match pattern.toList.reverse with
  | '*' :: rest => rest.reverse.isPrefixOf key.toList
  | _ => key == pattern

def lookup? (cache : CacheStore) (key : String) : Option CacheEntry :=
  (cache.find? (·.1 = key)).map (·.2)

/-- Put an entry in its place, over the one with the same key. -/
def put (key : String) (entry : CacheEntry) : CacheStore → CacheStore
  | [] => [(key, entry)]
  | (other, found) :: rest =>
    if key = other then (key, entry) :: rest
    else if key < other then (key, entry) :: (other, found) :: rest
    else (other, found) :: put key entry rest

/-- The entries whose keys do not pass a test. -/
def drop (cache : CacheStore) (test : String → Bool) : CacheStore :=
  cache.filter fun (key, _) => !test key

/-- How many keys pass a test. -/
def count (cache : CacheStore) (test : String → Bool) : Nat :=
  cache.countP fun (key, _) => test key

@[simp] theorem lookup?_put_self (cache : CacheStore) (key : String) (entry : CacheEntry) :
    (cache.put key entry).lookup? key = some entry := by
  induction cache with
  | nil => simp [put, lookup?]
  | cons first rest ih =>
    obtain ⟨other, found⟩ := first
    unfold put
    split
    · simp [lookup?]
    · next h =>
      split
      · simp [lookup?]
      · simpa [lookup?, Ne.symm h] using ih

theorem lookup?_put_of_ne (cache : CacheStore) {key other : String} (entry : CacheEntry)
    (h : other ≠ key) : (cache.put key entry).lookup? other = cache.lookup? other := by
  induction cache with
  | nil => simp [put, lookup?, Ne.symm h]
  | cons first rest ih =>
    obtain ⟨k, found⟩ := first
    unfold put
    split
    · next hk => subst hk; simp [lookup?, Ne.symm h]
    · split
      · simp [lookup?, Ne.symm h]
      · by_cases hk : k = other
        · simp [lookup?, hk]
        · simpa [lookup?, hk] using ih

/-- An entry is left by a deletion when its key does not pass the test. -/
theorem lookup?_drop (cache : CacheStore) (test : String → Bool) (key : String) :
    (cache.drop test).lookup? key = if test key then none else cache.lookup? key := by
  induction cache with
  | nil => simp [drop, lookup?]
  | cons first rest ih =>
    obtain ⟨k, found⟩ := first
    by_cases hk : k = key
    · subst hk
      by_cases ht : test k
      · simpa [drop, lookup?, ht] using ih
      · simp [drop, lookup?, ht]
    · by_cases ht : test k <;> simpa [drop, lookup?, hk, ht] using ih

end CacheStore

end WalletTopUp
