import TaskFlow.Proofs.Cache.Basic

namespace TaskFlow

/-- A kept table: whose it is, its bytes, and whether it was ever read. -/
structure Kept where
  id : String
  table : Table
  bytes : Nat
  fetched : Bool

def Kept.ofEntry (e : String × CacheEntry) : Kept := ⟨e.1, e.2.table, e.2.bytes, e.2.fetched⟩

/-- Kept tables in the order of their last successful access, storing included; the longest ago
comes first. -/
abbrev Recency := List Kept

namespace Recency

def total : Recency → Nat
  | [] => 0
  | k :: l => k.bytes + total l

def get? (l : Recency) (id : String) : Option Kept := l.find? (·.id == id)

def without (l : Recency) (id : String) : Recency := l.filter fun k => !(k.id == id)

/-- Drops tables from the front until the budget is kept or one table is left. -/
def trim (budget : Nat) : Recency → Recency
  | old :: next :: l =>
    if total (old :: next :: l) > budget then trim budget (next :: l) else old :: next :: l
  | l => l

def put (budget : Nat) (l : Recency) (id : String) (table : Table) (bytes : Nat) :
    Recency × Except CacheError ResultRef :=
  if (l.get? id).isSome then (l, .error (.alreadyStored id))
  else (trim budget (l ++ [⟨id, table, bytes, false⟩]), .ok ⟨id, table.length, bytes⟩)

def get (l : Recency) (id : String) : Recency × Except CacheError Table :=
  match l.get? id with
  | none => (l, .error (.notFound id))
  | some k => (l.without id ++ [{ k with fetched := true }], .ok k.table)

def evict (l : Recency) (id : String) : Recency × Bool := (l.without id, (l.get? id).isSome)

def acknowledge (l : Recency) (id : String) : Recency × Except CacheError Unit :=
  match l.get? id with
  | none => (l, .error (.notFound id))
  | some k => if k.fetched then (l.without id, .ok ()) else (l, .error (.notFetched id))

variable {l l' : Recency} {budget : Nat} {k : Kept} {id : String}

theorem total_append : total (l ++ l') = total l + total l' := by
  induction l with
  | nil => simp [total]
  | cons k l ih => rw [List.cons_append, total, total, ih, Nat.add_assoc]

theorem total_perm (h : l.Perm l') : total l = total l' := by
  induction h with
  | nil => rfl
  | cons k _ ih => rw [total, total, ih]
  | swap k k' l => simp only [total]; omega
  | trans _ _ ih ih' => exact ih.trans ih'

theorem total_sublist (h : l'.Sublist l) : total l' ≤ total l := by
  induction h with
  | slnil => exact Nat.le_refl _
  | cons k _ ih => rw [total]; omega
  | cons_cons k _ ih => rw [total, total]; omega

theorem without_le (h : l.get? id = some k) :
    total (l.without id) + k.bytes ≤ total l ∧ (l.without id).length < l.length := by
  obtain ⟨hk, before, after, rfl, -⟩ := List.find?_eq_some_iff_append.mp h
  have left : (without (before ++ k :: after) id).Sublist (before ++ after) := by
    rw [without, List.filter_append, List.filter_cons_of_neg (by simp [hk])]
    exact List.filter_sublist.append List.filter_sublist
  have bytes := total_sublist left
  have length := left.length_le
  simp only [total_append, total, List.length_append, List.length_cons] at bytes length ⊢
  omega

/-- Whether the budget is kept, or exceeded by one table alone. -/
def Within (budget : Nat) (l : Recency) : Prop := total l ≤ budget ∨ l.length = 1

theorem Within.sublist (h : Within budget l) (hs : l'.Sublist l) : Within budget l' := by
  rcases h with kept | single
  · exact .inl (Nat.le_trans (total_sublist hs) kept)
  · by_cases empty : l' = []
    · exact .inl (by rw [empty]; exact Nat.zero_le _)
    · have short : l'.length ≤ 1 := single ▸ hs.length_le
      have long : 0 < l'.length := List.length_pos_iff.mpr empty
      exact .inr (by omega)

theorem trim_cons (h : l ≠ []) :
    trim budget (k :: l) = if total (k :: l) > budget then trim budget l else k :: l := by
  cases l with
  | nil => exact absurd rfl h
  | cons next l => rfl

theorem within_trim (h : l ≠ []) : Within budget (trim budget l) := by
  induction l with
  | nil => exact absurd rfl h
  | cons old l ih =>
    by_cases single : l = []
    · subst single
      exact .inr rfl
    · rw [trim_cons single]
      split
      · exact ih single
      · next kept => exact .inl (Nat.le_of_not_gt kept)

end Recency

namespace Cache

inductive Request
  | put (id : String) (table : Table) (bytes : Nat)
  | get (id : String)
  | evict (id : String)
  | acknowledge (id : String)

namespace Request

abbrev Answer : Request → Type
  | .put .. => Except CacheError ResultRef
  | .get _ => Except CacheError Table
  | .evict _ => Bool
  | .acknowledge _ => Except CacheError Unit

def apply : (q : Request) → Cache → Cache × q.Answer
  | .put id table bytes, c => c.put id table bytes
  | .get id, c => c.get id
  | .evict id, c => c.evict id
  | .acknowledge id, c => c.acknowledge id

def replay (budget : Nat) : (q : Request) → Recency → Recency × q.Answer
  | .put id table bytes, l => l.put budget id table bytes
  | .get id, l => l.get id
  | .evict id, l => l.evict id
  | .acknowledge id, l => l.acknowledge id

end Request

def serve : Cache → List Request → Cache × List (Σ q : Request, q.Answer)
  | c, [] => (c, [])
  | c, q :: qs =>
    let (c', answer) := q.apply c
    ((serve c' qs).1, ⟨q, answer⟩ :: (serve c' qs).2)

end Cache

def Recency.serve (budget : Nat) : Recency → List Cache.Request →
    Recency × List (Σ q : Cache.Request, q.Answer)
  | l, [] => (l, [])
  | l, q :: qs =>
    let (l', answer) := q.replay budget l
    ((serve budget l' qs).1, ⟨q, answer⟩ :: (serve budget l' qs).2)

/-- Whether the bytes that are held, a table that is just stored included, always fit into 64
bits. -/
def Recency.Fits (budget : Nat) : Recency → List Cache.Request → Prop
  | _, [] => True
  | l, q :: qs =>
    (∀ id table bytes, q = .put id table bytes → l.get? id = none →
      l.total + bytes < UInt64.size) ∧ Fits budget (q.replay budget l).1 qs

namespace Cache

open Recency (total trim)

variable {c : Cache} {id keep : String} {es : Store CacheEntry} {e x : String × CacheEntry}
  {a : CacheEntry} {table : Table} {bytes budget : Nat} {l : Recency} {q : Request}
  {qs : List Request}

/-- The entries of a cache in the order of their last access, the longest ago first. -/
structure InOrder (c : Cache) (es : Store CacheEntry) : Prop where
  perm : es.Perm c.entries
  nodup : es.ids.Nodup
  sorted : es.Pairwise fun a b => a.2.lastAccess < b.2.lastAccess
  past : ∀ e ∈ es, e.2.lastAccess ≤ c.clock
  bytes : c.totalBytes = total (es.map Kept.ofEntry)

theorem get?_map_ofEntry :
    Recency.get? (es.map Kept.ofEntry) id = (es.get? id).map fun e => Kept.ofEntry (id, e) := by
  induction es with
  | nil => rfl
  | cons e es ih =>
    rw [Store.get?_cons]
    by_cases h : e.1 = id
    · subst h
      simp [Recency.get?, Kept.ofEntry]
    · simpa [Recency.get?, Kept.ofEntry, h] using ih

theorem without_map_ofEntry :
    Recency.without (es.map Kept.ofEntry) id = (es.erase id).map Kept.ofEntry :=
  List.filter_map

theorem InOrder.get?_eq (h : InOrder c es) : es.get? id = c.entries.get? id :=
  Store.get?_perm h.nodup h.perm

theorem InOrder.get?_ofEntry (h : InOrder c es) :
    Recency.get? (es.map Kept.ofEntry) id =
      (c.entries.get? id).map fun e => Kept.ofEntry (id, e) := by
  rw [get?_map_ofEntry, h.get?_eq]

theorem InOrder.drop (h : InOrder c es) : InOrder (c.drop id) (es.erase id) := by
  unfold Cache.drop
  split
  · next absent => rwa [Store.erase_of_absent (h.get?_eq.trans absent)]
  · next e found =>
    refine ⟨h.perm.filter _, Store.nodup_erase h.nodup, h.sorted.filter _, ?_, ?_⟩
    · exact fun e he => h.past e (List.mem_of_mem_filter he)
    · -- the running total was exact, so taking the entry off it leaves the others
      have apart := (Store.perm_cons_erase h.nodup (h.get?_eq.trans found)).map Kept.ofEntry
      have all := Recency.total_perm apart
      rw [List.map_cons, total, ← h.bytes] at all
      simp only [all, Kept.ofEntry, Nat.add_sub_cancel_left]

theorem foldl_older_mem : es.foldl older e ∈ e :: es := by
  induction es generalizing e with
  | nil => exact List.mem_cons_self
  | cons x es ih =>
    have either : older e x = e ∨ older e x = x := by
      unfold older
      split
      · exact .inr rfl
      · exact .inl rfl
    rw [List.foldl_cons]
    rcases List.mem_cons.mp (ih (e := older e x)) with first | later
    · rw [first]
      rcases either with h | h <;> simp [h]
    · simp [later]

theorem foldl_older_le (hx : x ∈ e :: es) :
    (es.foldl older e).2.lastAccess ≤ x.2.lastAccess := by
  induction es generalizing e x with
  | nil =>
    obtain rfl := List.mem_singleton.mp hx
    exact Nat.le_refl _
  | cons y es ih =>
    have least : (older e y).2.lastAccess ≤ e.2.lastAccess ∧
        (older e y).2.lastAccess ≤ y.2.lastAccess := by
      unfold older
      split <;> omega
    have first := ih (e := older e y) List.mem_cons_self
    rw [List.foldl_cons]
    rcases List.mem_cons.mp hx with rfl | hx
    · omega
    rcases List.mem_cons.mp hx with rfl | hx
    · omega
    · exact ih (List.mem_cons_of_mem _ hx)

/-- The first of several entries in order is the oldest one, whichever comes first in the table. -/
theorem InOrder.oldest?_cons (h : InOrder c (x :: es)) (hk : x.1 ≠ keep) :
    c.oldest? keep = some x.1 := by
  have mine : x ∈ c.entries.filter fun e => !(e.1 == keep) :=
    List.mem_filter.mpr ⟨h.perm.subset List.mem_cons_self, by simpa using hk⟩
  unfold oldest?
  split
  · next none => rw [none] at mine; cases mine
  · next e rest some =>
    rw [some] at mine
    have found : rest.foldl older e ∈ c.entries.filter fun e => !(e.1 == keep) :=
      some ▸ foldl_older_mem
    have le := foldl_older_le mine
    rcases List.mem_cons.mp (h.perm.symm.subset (List.mem_of_mem_filter found)) with same | other
    · rw [same]
    · have lt := (List.pairwise_cons.mp h.sorted).1 _ other
      omega

theorem InOrder.oldest?_singleton (h : InOrder c [(keep, a)]) : c.oldest? keep = none := by
  have alone : c.entries = [(keep, a)] := List.perm_singleton.mp h.perm.symm
  simp [oldest?, alone]

@[simp] theorem maxBytes_drop : (c.drop id).maxBytes = c.maxBytes := by
  unfold Cache.drop
  split <;> rfl

theorem InOrder.enforceBudget {fuel : Nat} {before : Store CacheEntry}
    (h : InOrder c (before ++ [(keep, a)])) (enough : before.length < fuel) :
    ∃ es, InOrder (c.enforceBudget keep fuel) es ∧ es.map Kept.ofEntry =
      trim c.maxBytes ((before ++ [(keep, a)]).map Kept.ofEntry) := by
  induction fuel generalizing c before with
  | zero => omega
  | succ fuel ih =>
    rw [Cache.enforceBudget]
    cases before with
    | nil =>
      rw [h.oldest?_singleton]
      exact ⟨_, by split <;> exact h, rfl⟩
    | cons x before =>
      rw [List.cons_append] at h
      have hk : x.1 ≠ keep := by
        rintro rfl
        exact (List.nodup_cons.mp h.nodup).1 (Store.mem_ids_of_mem (a := a) (by simp))
      have rest : (before ++ [(keep, a)]).map Kept.ofEntry ≠ [] := by simp
      rw [h.oldest?_cons hk, h.bytes, List.cons_append, List.map_cons, Recency.trim_cons rest]
      split
      · have dropped : InOrder (c.drop x.1) (Store.erase _ x.1) := h.drop
        rw [Store.erase_cons_self h.nodup] at dropped
        obtain ⟨es, inOrder, same⟩ := ih dropped (by simp at enough; omega)
        exact ⟨es, inOrder, by rwa [maxBytes_drop] at same⟩
      · exact ⟨_, h, rfl⟩

/-- A cache holds the tables of a list, and knows their order. -/
def Reflects (c : Cache) (l : Recency) : Prop := ∃ es, InOrder c es ∧ es.map Kept.ofEntry = l

theorem InOrder.get?_isSome (h : InOrder c es) :
    (Recency.get? (es.map Kept.ofEntry) id).isSome = c.entries.has id := by
  rw [h.get?_ofEntry, Option.isSome_map, Store.has]

theorem InOrder.without (h : InOrder c es) :
    Reflects (c.drop id) (Recency.without (es.map Kept.ofEntry) id) :=
  ⟨_, h.drop, without_map_ofEntry.symm⟩

theorem sorted_push {now : Nat} (sorted : es.Pairwise fun a b => a.2.lastAccess < b.2.lastAccess)
    (past : ∀ e ∈ es, e.2.lastAccess ≤ now) (hx : x.2.lastAccess = now + 1) :
    (es ++ [x]).Pairwise (fun a b => a.2.lastAccess < b.2.lastAccess) ∧
      ∀ e ∈ es ++ [x], e.2.lastAccess ≤ now + 1 := by
  refine ⟨List.pairwise_append.mpr ⟨sorted, List.pairwise_singleton .., ?_⟩, fun e he => ?_⟩
  · intro e he y hy
    obtain rfl := List.mem_singleton.mp hy
    have := past e he
    omega
  · rcases List.mem_append.mp he with he | he
    · have := past e he
      omega
    · obtain rfl := List.mem_singleton.mp he
      omega

def added (c : Cache) (id : String) (table : Table) (bytes : Nat) : Cache :=
  { c with
    clock := c.clock + 1
    entries := c.entries.insert id ⟨table, bytes, c.clock + 1, false⟩
    totalBytes := (c.totalBytes + bytes) % UInt64.size }

def readAt (now : Nat) (e : CacheEntry) : CacheEntry :=
  { e with lastAccess := now, fetched := true }

theorem InOrder.added (h : InOrder c es) (absent : c.entries.get? id = none)
    (fits : c.totalBytes + bytes < UInt64.size) :
    InOrder (c.added id table bytes) (es ++ [(id, ⟨table, bytes, c.clock + 1, false⟩)]) := by
  have fresh : id ∉ es.ids := Store.not_mem_ids (h.get?_eq.trans absent)
  obtain ⟨sorted, past⟩ := sorted_push (x := (id, ⟨table, bytes, c.clock + 1, false⟩))
    h.sorted h.past rfl
  refine ⟨?_, ?_, sorted, past, ?_⟩
  · rw [Cache.added, Store.insert, Store.erase_of_absent absent]
    exact (List.perm_append_singleton ..).trans (h.perm.cons _)
  · rw [Store.ids, List.map_append]
    exact (List.perm_append_singleton ..).nodup_iff.mpr (List.nodup_cons.mpr ⟨fresh, h.nodup⟩)
  · rw [Cache.added, Nat.mod_eq_of_lt fits, List.map_append, Recency.total_append, ← h.bytes]
    rfl

theorem InOrder.read (h : InOrder c es) (found : c.entries.get? id = some a) :
    InOrder { c with
      clock := c.clock + 1
      entries := c.entries.modify id (readAt (c.clock + 1)) }
      (es.erase id ++ [(id, readAt (c.clock + 1) a)]) := by
  have found : es.get? id = some a := h.get?_eq.trans found
  have moved := Store.modify_perm (f := readAt (c.clock + 1)) h.nodup found
  have nodup : (es.modify id (readAt (c.clock + 1))).ids.Nodup := by
    rw [Store.ids_modify]
    exact h.nodup
  obtain ⟨sorted, past⟩ := sorted_push (x := (id, readAt (c.clock + 1) a))
    (h.sorted.filter _) (fun e he => h.past e (List.mem_of_mem_filter he)) rfl
  refine ⟨moved.symm.trans (h.perm.map _), (moved.map _).nodup_iff.mp nodup, sorted, past, ?_⟩
  have apart := (Store.perm_cons_erase h.nodup found).map Kept.ofEntry
  rw [h.bytes, Recency.total_perm apart, List.map_append, Recency.total_append, List.map_cons,
    total, Nat.add_comm]
  rfl

theorem InOrder.put (h : InOrder c es)
    (fits : c.entries.has id = false → c.totalBytes + bytes < UInt64.size) :
    Reflects (c.put id table bytes).1
        (Recency.put c.maxBytes (es.map Kept.ofEntry) id table bytes).1 ∧
      (c.put id table bytes).2 =
        (Recency.put c.maxBytes (es.map Kept.ofEntry) id table bytes).2 := by
  rw [Recency.put, h.get?_isSome, put_snd]
  cases has : c.entries.has id with
  | true => simpa [Cache.put, has] using ⟨es, h, rfl⟩
  | false =>
    have absent : c.entries.get? id = none := by simpa [Store.has] using has
    have added : InOrder (c.added id table bytes) _ := h.added absent (fits has)
    have enough : es.length < (c.added id table bytes).entries.length := by
      rw [← added.perm.length_eq]
      simp
    obtain ⟨es', inOrder, same⟩ := added.enforceBudget enough
    have stored : (c.put id table bytes).1 =
        (c.added id table bytes).enforceBudget id (c.added id table bytes).entries.length := by
      simp only [Cache.put, has]
      rfl
    refine ⟨⟨es', stored ▸ inOrder, ?_⟩, rfl⟩
    rw [same, List.map_append]
    rfl

theorem InOrder.get (h : InOrder c es) :
    Reflects (c.get id).1 (Recency.get (es.map Kept.ofEntry) id).1 ∧
      (c.get id).2 = (Recency.get (es.map Kept.ofEntry) id).2 := by
  rw [Recency.get, h.get?_ofEntry, Cache.get]
  cases found : c.entries.get? id with
  | none =>
    -- the clock goes on even if there is nothing to read
    refine ⟨⟨es, ⟨h.perm, h.nodup, h.sorted, fun e he => ?_, h.bytes⟩, rfl⟩, rfl⟩
    exact Nat.le_succ_of_le (h.past e he)
  | some e =>
    refine ⟨⟨_, h.read found, ?_⟩, rfl⟩
    rw [List.map_append, ← without_map_ofEntry]
    rfl

theorem InOrder.evict (h : InOrder c es) :
    Reflects (c.evict id).1 (Recency.evict (es.map Kept.ofEntry) id).1 ∧
      (c.evict id).2 = (Recency.evict (es.map Kept.ofEntry) id).2 :=
  ⟨h.without, h.get?_isSome.symm⟩

theorem InOrder.acknowledge (h : InOrder c es) :
    Reflects (c.acknowledge id).1 (Recency.acknowledge (es.map Kept.ofEntry) id).1 ∧
      (c.acknowledge id).2 = (Recency.acknowledge (es.map Kept.ofEntry) id).2 := by
  rw [Recency.acknowledge, h.get?_ofEntry, Cache.acknowledge]
  cases c.entries.get? id with
  | none => exact ⟨⟨es, h, rfl⟩, rfl⟩
  | some e =>
    simp only [Option.map_some, Kept.ofEntry]
    split
    · exact ⟨h.without, rfl⟩
    · exact ⟨⟨es, h, rfl⟩, rfl⟩

@[simp] theorem maxBytes_enforceBudget {fuel : Nat} :
    (c.enforceBudget keep fuel).maxBytes = c.maxBytes := by
  induction fuel generalizing c with
  | zero => rfl
  | succ fuel ih =>
    rw [Cache.enforceBudget]
    split
    · split
      · rw [ih, maxBytes_drop]
      · rfl
    · rfl

@[simp] theorem maxBytes_apply : (q.apply c).1.maxBytes = c.maxBytes := by
  cases q with
  | put id table bytes =>
    simp only [Request.apply, Cache.put]
    split
    · rfl
    · exact maxBytes_enforceBudget
  | get id =>
    simp only [Request.apply, Cache.get]
    split <;> rfl
  | evict id => exact maxBytes_drop
  | acknowledge id =>
    simp only [Request.apply, Cache.acknowledge]
    split
    · rfl
    · split
      · exact maxBytes_drop
      · rfl

theorem Reflects.apply (h : Reflects c l)
    (fits : ∀ id table bytes, q = .put id table bytes → l.get? id = none →
      l.total + bytes < UInt64.size) :
    Reflects (q.apply c).1 (q.replay c.maxBytes l).1 ∧
      (q.apply c).2 = (q.replay c.maxBytes l).2 := by
  obtain ⟨es, h, rfl⟩ := h
  cases q with
  | put id table bytes =>
    refine h.put fun has => ?_
    rw [h.bytes]
    refine fits id table bytes rfl ?_
    simpa [h.get?_ofEntry, Store.has] using has
  | get id => exact h.get
  | evict id => exact h.evict
  | acknowledge id => exact h.acknowledge

theorem Reflects.serve (h : Reflects c l) (fits : l.Fits c.maxBytes qs) :
    Reflects (c.serve qs).1 (l.serve c.maxBytes qs).1 ∧
      (c.serve qs).2 = (l.serve c.maxBytes qs).2 := by
  induction qs generalizing c l with
  | nil => exact ⟨h, rfl⟩
  | cons q qs ih =>
    obtain ⟨next, answer⟩ := h.apply fits.1
    have later := ih next (by simpa using fits.2)
    rw [maxBytes_apply] at later
    simp only [Cache.serve, Recency.serve, later.2, answer]
    exact ⟨later.1, trivial⟩

theorem within_replay (h : Recency.Within budget l) :
    Recency.Within budget (q.replay budget l).1 := by
  cases q with
  | put id table bytes =>
    simp only [Request.replay, Recency.put]
    split
    · exact h
    · exact Recency.within_trim (by simp)
  | get id =>
    simp only [Request.replay, Recency.get]
    split
    · exact h
    · next k found =>
      obtain ⟨bytes, length⟩ := Recency.without_le found
      rcases h with kept | single
      · left
        simp only [Recency.total_append, total]
        omega
      · right
        simp only [List.length_append, List.length_singleton]
        omega
  | evict id => exact h.sublist List.filter_sublist
  | acknowledge id =>
    simp only [Request.replay, Recency.acknowledge]
    split
    · exact h
    · split
      · exact h.sublist List.filter_sublist
      · exact h

theorem within_serve (h : Recency.Within budget l) :
    Recency.Within budget (l.serve budget qs).1 := by
  induction qs generalizing l with
  | nil => exact h
  | cons q qs ih => exact ih (within_replay h)

/-- The cache answers every sequence of requests as a list of tables in the order of last access
does, and holds the same tables. -/
theorem serves_as_recency_list (budget : Nat) (fits : Recency.Fits budget [] qs) :
    let (c, answers) := Cache.serve { maxBytes := budget } qs
    let (l, expected) := Recency.serve budget [] qs
    answers = expected ∧ (c.entries.map Kept.ofEntry).Perm l ∧
      c.totalBytes = total (c.entries.map Kept.ofEntry) ∧
      (c.totalBytes ≤ budget ∨ c.length = 1) := by
  have empty : InOrder { maxBytes := budget } [] := ⟨.nil, .nil, .nil, by simp, rfl⟩
  have start : Reflects { maxBytes := budget } [] := ⟨[], empty, rfl⟩
  obtain ⟨⟨es, inOrder, same⟩, answers⟩ := start.serve fits
  have perm := inOrder.perm.map Kept.ofEntry
  have bytes := inOrder.bytes
  -- the bound is kept by the list, whose bytes the cache only counts
  have within : Recency.Within budget (Recency.serve budget [] qs).1 :=
    within_serve (.inl (Nat.zero_le _))
  rw [← same] at within
  refine ⟨answers, same ▸ perm.symm, bytes.trans (Recency.total_perm perm), ?_⟩
  rcases within with kept | single
  · exact .inl (bytes ▸ kept)
  · right
    rw [Cache.length, ← inOrder.perm.length_eq]
    simpa using single

/-- Two tables, the first one read again, and a third one for which there is no room. -/
def readAgain : List Request :=
  [.put "a" default 40, .put "b" default 40, .get "a", .put "c" default 40]

/-- The table that was read again stays, the other one goes. -/
theorem readAgain_stays : Recency.Fits 100 [] readAgain ∧
    ((Cache.serve { maxBytes := 100 } readAgain).1.entries.map Kept.ofEntry).Perm
      [⟨"a", default, 40, true⟩, ⟨"c", default, 40, false⟩] ∧
    (Cache.serve { maxBytes := 100 } readAgain).1.totalBytes = 80 := by
  have fits : Recency.Fits 100 [] readAgain := by
    refine ⟨?_, ?_, ?_, ?_, trivial⟩ <;> rintro id table bytes ⟨⟩ - <;> decide
  obtain ⟨-, perm, bytes, -⟩ := serves_as_recency_list 100 fits
  exact ⟨fits, perm, bytes.trans (Recency.total_perm perm)⟩

end Cache

end TaskFlow
