import CodeSurvey.Json.Printer
import CodeSurvey.Json.Reader
import CodeSurvey.Log.Outcome
import CodeSurvey.Text.Quoted
import CodeSurvey.Time.Span

/-!
# The result cache

The cache stores results by the digest of what they were computed from.  It holds at
most a fixed number of entries, and a new key at full capacity takes the place of the
entry that was not used for the longest time.  Entries may expire some time after they
were written.  Times are readings of the clock in milliseconds since 1970.
-/

namespace CodeSurvey
namespace Cache

structure Entry (v : Type) where
  key : String
  value : v
  size : Nat
  /-- How often a look-up found the entry. -/
  hits : Nat
  timestamp : Int
deriving DecidableEq, Repr

structure Options where
  maxSize : Nat
  /-- How long an entry lives, in milliseconds; zero for ever. -/
  ttlMs : Nat
  persistPath : Option String
deriving DecidableEq, Repr

namespace Options

def default : Options :=
  { maxSize := 1000, ttlMs := 0, persistPath := none }

def pathText : Option String -> String
  | none => "None"
  | some path => "Some(" ++ Text.Quoted.text path ++ ")"

def describe (o : Options) : String :=
  "CacheOptions \x7b max_size: " ++ Text.Decimal.natText o.maxSize ++
    ", ttl: " ++ (Time.Span.ofMillis o.ttlMs).text ++
    ", persist_path: " ++ pathText o.persistPath ++ " \x7d"

end Options

/-- How the values of a cache are written to a document and read from it. -/
structure Form (v : Type) where
  encode : v -> Json.Value
  decode : Json.Reader v

namespace Form

def json : Form Json.Value :=
  { encode := id, decode := Json.Outline.value? }

def text : Form String :=
  { encode := .text, decode := Json.Reader.text }

def word : Form Nat :=
  { encode := .nat, decode := .below (Nat.pow 2 32) }

def size (form : Form v) (value : v) : Nat :=
  (form.encode value).compact.utf8ByteSize

end Form

end Cache

structure Cache (v : Type) where
  options : Cache.Options
  /-- The entries, most recently used first. -/
  stored : List (Cache.Entry v)
  hits : Nat
  misses : Nat
  evictions : Nat
  expirations : Nat
deriving DecidableEq, Repr

namespace Cache

def empty (options : Options) : Cache v :=
  { options, stored := [], hits := 0, misses := 0, evictions := 0, expirations := 0 }

/-- A new cache has room for at least one entry. -/
def new (options : Options) : Log.Outcome (Cache v) Unit :=
  if options.maxSize = 0 then
    { state := empty { options with maxSize := 1 }
      result := ()
      log := [.warn "cache max_size of 0 raised to 1" []] }
  else .quiet (empty options) ()

def size (c : Cache v) : Nat :=
  c.stored.length

def isEmpty (c : Cache v) : Bool :=
  c.stored.isEmpty

def keys (c : Cache v) : List String :=
  c.stored.map Entry.key

def find? (c : Cache v) (key : String) : Option (Entry v) :=
  c.stored.find? fun e => e.key = key

def without (c : Cache v) (key : String) : List (Entry v) :=
  c.stored.filter fun e => e.key ≠ key

/-!
# Expiry

Ages and lifetimes are compared as signed words of 64 bits.
-/

def wordSize : Nat := Nat.pow 2 64

/-- The value of the low 64 bits of a number, read as a signed word. -/
def signedWord (i : Int) : Int :=
  i.bmod wordSize

def lifetime (o : Options) : Int :=
  signedWord o.ttlMs

/-- An entry has expired when it is older than its lifetime, if that is limited. -/
def isExpired (o : Options) (now : Int) (e : Entry v) : Bool :=
  0 < lifetime o && lifetime o < signedWord (now - e.timestamp)

/-!
# Writing
-/

/-- Put a new entry in front; at full capacity the last entry has to go. -/
def insertNew (c : Cache v) (e : Entry v) : Log.Outcome (Cache v) Unit :=
  match c.stored.getLast? with
  | some last =>
      if c.options.maxSize ≤ c.size then
        { state :=
            { c with stored := e :: c.stored.dropLast, evictions := c.evictions + 1 }
          result := ()
          log := [.debug "evicted least recently used entry" [("key", .text last.key)]] }
      else .quiet { c with stored := e :: c.stored } ()
  | none => .quiet { c with stored := [e] } ()

/-- Store a value of the given size.  An entry that is overwritten keeps its hits. -/
def setSized (c : Cache v) (now : Int) (key : String) (value : v) (size : Nat) :
    Log.Outcome (Cache v) Unit :=
  match c.find? key with
  | some e =>
      .quiet { c with stored := { e with value, size, timestamp := now } :: c.without key } ()
  | none => c.insertNew { key, value, size, hits := 0, timestamp := now }

def set (c : Cache v) (form : Form v) (now : Int) (key : String) (value : v) :
    Log.Outcome (Cache v) Unit :=
  c.setSized now key value (form.size value)

/-!
# Looking up
-/

/-- Counts of hits are words of 64 bits. -/
def nextHits (hits : Nat) : Nat :=
  (hits + 1) % wordSize

/-- Look up a value.  A hit makes the entry the most recently used one; an expired
entry is removed and counts as missing. -/
def get (c : Cache v) (now : Int) (key : String) : Log.Outcome (Cache v) (Option v) :=
  match c.find? key with
  | none => .quiet { c with misses := c.misses + 1 } none
  | some e =>
      if isExpired c.options now e then
        { state :=
            { c with
              stored := c.without key
              expirations := c.expirations + 1
              misses := c.misses + 1 }
          result := none
          log := [.debug "cache entry expired" [("key", .text key)]] }
      else
        .quiet
          { c with
            stored := { e with hits := nextHits e.hits } :: c.without key
            hits := c.hits + 1 }
          (some e.value)

def has (c : Cache v) (now : Int) (key : String) : Bool :=
  match c.find? key with
  | some e => !isExpired c.options now e
  | none => false

/-- The live entries, most recently used first. -/
def entries (c : Cache v) (now : Int) : List (Entry v) :=
  c.stored.filter fun e => !isExpired c.options now e

/-!
# Removing
-/

def delete (c : Cache v) (key : String) : Cache v × Bool :=
  match c.find? key with
  | some _ => ({ c with stored := c.without key }, true)
  | none => (c, false)

def deleteAll (c : Cache v) (keys : List String) : Cache v × Nat :=
  keys.foldl
    (fun (c, removed) key =>
      let (c, found) := c.delete key
      (c, if found then removed + 1 else removed))
    (c, 0)

def invalidate (c : Cache v) (key : String) (dependents : List String) :
    Log.Outcome (Cache v) Nat :=
  let (c, removed) := c.deleteAll (key :: dependents)
  { state := c
    result := removed
    log :=
      [.debug "invalidated cache entries" [("key", .text key), ("removed", .nat removed)]] }

/-- Remove all entries; the counters stay. -/
def clear (c : Cache v) : Cache v :=
  { c with stored := [] }

def prune (c : Cache v) (now : Int) : Log.Outcome (Cache v) Nat :=
  let expired := c.stored.filter (isExpired c.options now)
  let count := expired.length
  { state := { c with stored := c.entries now, expirations := c.expirations + count }
    result := count
    log :=
      if count = 0 then []
      else [.debug "pruned expired cache entries" [("count", .nat count)]] }

/-!
# Counters
-/

structure Stats where
  hits : Nat
  misses : Nat
  evictions : Nat
  expirations : Nat
  /-- Hits by look-ups; zero when nothing was looked up. -/
  hitRatio : Float
  size : Nat
  maxSize : Nat
deriving DecidableEq, Repr

def hitRatio (hits misses : Nat) : Float :=
  if hits + misses = 0 then 0 else Float.ofNat hits / Float.ofNat (hits + misses)

def stats (c : Cache v) : Stats :=
  { hits := c.hits
    misses := c.misses
    evictions := c.evictions
    expirations := c.expirations
    hitRatio := hitRatio c.hits c.misses
    size := c.size
    maxSize := c.options.maxSize }

/-- Set the counters to zero; the entries stay. -/
def resetStats (c : Cache v) : Cache v :=
  { c with hits := 0, misses := 0, evictions := 0, expirations := 0 }

def describe (c : Cache v) : String :=
  "ResultCache \x7b len: " ++ Text.Decimal.natText c.size ++
    ", options: " ++ c.options.describe ++ " \x7d"

end Cache
end CodeSurvey
