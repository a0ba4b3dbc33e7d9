import WalletTopUp.Event
import WalletTopUp.Program
import WalletTopUp.Redis.Reply

/-!
# The cache and the event stream in the data store

Each operation of the cache is one command, only the deletion by pattern is a dialogue: the keys are found
by scanning, batch by batch, and every batch that is not empty is deleted at once. A scan starts with the
cursor 0, goes on from the cursor of the last reply, and is over when that is 0.

An event becomes an entry of the stream that is named like its topic. The entry holds the key, the payload
and a field for every header; the store names the entry.
-/

namespace WalletTopUp

/-- A connection to the data store. A command without a reply yields the reason. -/
abbrev RedisConnection : Interface := ⟨Redis.Command, fun _ => Except String Redis.Reply⟩

namespace Redis

/-- A dialogue with the store that fails with a message. -/
abbrev Dialogue (α : Type) := Attempt RedisConnection String α

/-- The meaning of a reply, or the failure that `what` did not work. -/
def understand {α : Type} (what : String) (meaning : Reply → Option α) :
    Except String Reply → Dialogue α
  | .error reason => throw (what ++ ": " ++ reason)
  | .ok reply =>
    match meaning reply with
    | some a => pure a
    | none => throw (what ++ ": " ++ withheld)

/-- Send a command and take its reply for what it means. -/
def command {α : Type} (what : String) (meaning : Reply → Option α) (c : Command) : Dialogue α := do
  understand what meaning (← Attempt.perform (I := RedisConnection) c)

def get (key : String) : Dialogue (Option String) :=
  command "Failed to get cache" Reply.optionalText? ["GET", key]

/-- Put a value under a key for so many minutes. -/
def set (key value : String) (minutes : Nat) : Dialogue Unit :=
  command "Failed to set cache" (fun reply => if reply.isDone then some () else none)
    ["SET", key, value, "EX", toString (minutes * 60)]

/-- Delete a key; whether it was there. -/
def delete (key : String) : Dialogue Bool := do
  return 0 < (← command ("Failed to delete cache key " ++ key) Reply.word? ["DEL", key])

/-- Keys that one step of a scan looks at. -/
def scanBatch : Nat := 200

def scan (pattern : String) (cursor : Nat) : Dialogue (Nat × List String) :=
  command ("Failed to scan " ++ pattern) Reply.scanned?
    ["SCAN", toString cursor, "MATCH", pattern, "COUNT", toString scanBatch]

/-- Delete the keys of a batch; how many were there. -/
def deleteBatch (pattern : String) (keys : List String) : Dialogue Nat :=
  if keys.isEmpty then pure 0
  else command ("Failed to delete keys for " ++ pattern) Reply.word? ("DEL" :: keys)

/-- Delete what a scan from a cursor on finds; how many keys were there. Nothing comes back when the scan takes
more than `rounds` steps. -/
def deleteFrom (pattern : String) : (rounds cursor : Nat) → Dialogue (Option Nat)
  | 0, _ => return none
  | rounds + 1, cursor => do
    let (next, keys) ← scan pattern cursor
    let deleted ← deleteBatch pattern keys
    if next = 0 then return some deleted
    else return (← deleteFrom pattern rounds next).map (deleted + ·)

/-- A scan that goes on for longer than there are cursors comes back to one it has had. -/
def maxRounds : Nat := Nat.pow 2 64

/-- Delete the keys that match a pattern; how many were there. The service counts in a word of 64 bits, which takes more
keys than the store can hold. -/
def deletePattern (pattern : String) : Dialogue Nat := do
  match ← deleteFrom pattern maxRounds 0 with
  | some deleted => return deleted
  | none => throw ("Failed to scan " ++ pattern ++ ": " ++ withheld)

/-! ## Events -/

def appendCommand (e : Event) : Command :=
  ["XADD", e.topic, "*", "key", e.key, "payload", e.payload] ++
    e.headers.flatMap fun (name, value) => ["h:" ++ name, value]

def send (e : Event) : Dialogue Delivery := do
  let entry ← command ("Failed to append to stream " ++ e.topic) Reply.text? (appendCommand e)
  return ⟨e.topic, none, entry⟩

end Redis

end WalletTopUp
