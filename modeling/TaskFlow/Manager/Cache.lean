import TaskFlow.Store
import TaskFlow.Table.Basic
import TaskFlow.Task.Info

namespace TaskFlow

inductive CacheError
  | alreadyStored (id : String)
  | notFound (id : String)
  | notFetched (id : String)
  deriving DecidableEq, Repr

def CacheError.text : CacheError → String
  | .alreadyStored id => "ya hay un resultado guardado para " ++ id
  | .notFound id => "no hay resultado para " ++ id
  | .notFetched id => "el resultado de " ++ id ++ " todavía no fue leído"

/-- A stored table with its bytes, the time of its last access, and whether it was ever read. -/
structure CacheEntry where
  table : Table
  bytes : Nat
  lastAccess : Nat
  fetched : Bool
  deriving Inhabited

/-- The entries under their budget of bytes. Their total is kept in 64 bits; the clock, which counts
accesses, is taken not to reach 2^64. -/
structure Cache where
  maxBytes : Nat
  entries : Store CacheEntry := []
  totalBytes : Nat := 0
  clock : Nat := 0

namespace Cache

def drop (c : Cache) (id : String) : Cache :=
  match c.entries.get? id with
  | none => c
  | some e => { c with entries := c.entries.erase id, totalBytes := c.totalBytes - e.bytes }

def older (a b : String × CacheEntry) : String × CacheEntry :=
  if b.2.lastAccess < a.2.lastAccess then b else a

def oldest? (c : Cache) (keep : String) : Option String :=
  match c.entries.filter fun e => !(e.1 == keep) with
  | [] => none
  | e :: es => some (es.foldl older e).1

/-- Drops the oldest entries, at most `fuel` of them, until the budget is kept; one entry stays. -/
def enforceBudget (keep : String) : Nat → Cache → Cache
  | 0, c => c
  | fuel + 1, c =>
    if c.totalBytes > c.maxBytes then
      match c.oldest? keep with
      | some id => enforceBudget keep fuel (c.drop id)
      | none => c
    else c

def put (c : Cache) (id : String) (table : Table) (bytes : Nat) :
    Cache × Except CacheError ResultRef :=
  if c.entries.has id then (c, .error (.alreadyStored id))
  else
    let entry : CacheEntry := ⟨table, bytes, c.clock + 1, false⟩
    let c := { c with
      clock := c.clock + 1
      entries := c.entries.insert id entry
      totalBytes := (c.totalBytes + bytes) % UInt64.size }
    (c.enforceBudget id c.entries.length, .ok ⟨id, table.length, bytes⟩)

def get (c : Cache) (id : String) : Cache × Except CacheError Table :=
  let now := c.clock + 1
  match c.entries.get? id with
  | none => ({ c with clock := now }, .error (.notFound id))
  | some e =>
    ({ c with
        clock := now
        entries := c.entries.modify id fun e => { e with lastAccess := now, fetched := true } },
      .ok e.table)

def contains (c : Cache) (id : String) : Bool := c.entries.has id

def evict (c : Cache) (id : String) : Cache × Bool := (c.drop id, c.contains id)

def acknowledge (c : Cache) (id : String) : Cache × Except CacheError Unit :=
  match c.entries.get? id with
  | none => (c, .error (.notFound id))
  | some e => if e.fetched then (c.drop id, .ok ()) else (c, .error (.notFetched id))

def length (c : Cache) : Nat := c.entries.length

end Cache

end TaskFlow
