import ArchGraph.Sequence

/-!
Tables: keys with values in order of first arrival. Every operation that adds is one `upsert`,
which changes the value under a key in its place, or appends.
-/

namespace ArchGraph

structure Table (κ α : Type) where
  entries : List (κ × α)
  deriving DecidableEq, Repr

namespace Table

variable {κ α β : Type} [DecidableEq κ]

instance : Inhabited (Table κ α) := ⟨⟨[]⟩⟩

instance : EmptyCollection (Table κ α) := ⟨⟨[]⟩⟩

def keys (t : Table κ α) : List κ := t.entries.map (·.1)

def values (t : Table κ α) : List α := t.entries.map (·.2)

def size (t : Table κ α) : Nat := t.entries.length

def find? (t : Table κ α) (k : κ) : Option α := t.entries.lookup k

def contains (t : Table κ α) (k : κ) : Bool := (t.find? k).isSome

def upsertIn (k : κ) (f : Option α → α) : List (κ × α) → List (κ × α)
  | [] => [(k, f none)]
  | (k', a) :: rest => if k' = k then (k', f (some a)) :: rest else (k', a) :: upsertIn k f rest

/-- Give `k` the value `f` makes of its present one; a new key goes to the end. -/
def upsert (t : Table κ α) (k : κ) (f : Option α → α) : Table κ α := ⟨upsertIn k f t.entries⟩

/-- The later value wins and the place stays. -/
def insert (t : Table κ α) (k : κ) (a : α) : Table κ α := t.upsert k (fun _ => a)

/-- The earlier value wins. -/
def insertNew (t : Table κ α) (k : κ) (a : α) : Table κ α := t.upsert k (·.getD a)

/-- Change the value under `k` if there is one. -/
def modify (t : Table κ α) (k : κ) (f : α → α) : Table κ α :=
  ⟨t.entries.map (fun e => if e.1 = k then (e.1, f e.2) else e)⟩

def erase (t : Table κ α) (k : κ) : Table κ α := ⟨t.entries.filter (fun e => e.1 ≠ k)⟩

/-- Insert every pair in turn. -/
def insertAll (t : Table κ α) (pairs : List (κ × α)) : Table κ α :=
  pairs.foldl (fun t e => t.insert e.1 e.2) t

def ofList (pairs : List (κ × α)) : Table κ α := insertAll ∅ pairs

def map (f : α → β) (t : Table κ α) : Table κ β := ⟨t.entries.map (fun e => (e.1, f e.2))⟩

/-- Each key occurs once. -/
def Distinct (t : Table κ α) : Prop := t.keys.Nodup

omit [DecidableEq κ] in
@[simp] theorem keys_empty : (∅ : Table κ α).keys = [] := rfl

@[simp] theorem find?_empty (k : κ) : (∅ : Table κ α).find? k = none := rfl

theorem keys_upsertIn (k : κ) (f : Option α → α) (es : List (κ × α)) :
    (upsertIn k f es).map (·.1) = addNew (es.map (·.1)) k := by
  induction es with
  | nil => simp [upsertIn, addNew]
  | cons e es ih =>
      obtain ⟨k', a⟩ := e
      by_cases h : k' = k
      · simp [upsertIn, addNew, h]
      · have h' : ¬ k = k' := fun e => h e.symm
        simp only [upsertIn, h, if_false, List.map_cons, ih]
        by_cases hk : k ∈ es.map (·.1)
        · simp only [addNew, hk, if_true, List.mem_cons, h', false_or]
        · simp only [addNew, hk, if_false, List.mem_cons, h', false_or, List.cons_append]

@[simp] theorem keys_upsert (t : Table κ α) (k : κ) (f : Option α → α) :
    (t.upsert k f).keys = addNew t.keys k := keys_upsertIn k f t.entries

theorem lookup_upsertIn (k k' : κ) (f : Option α → α) (es : List (κ × α)) :
    (upsertIn k f es).lookup k' = if k' = k then some (f (es.lookup k)) else es.lookup k' := by
  induction es with
  | nil =>
      by_cases h : k' = k
      · simp [upsertIn, h]
      · have hb : (k' == k) = false := by simpa using h
        simp [upsertIn, List.lookup_cons, h, hb]
  | cons e es ih =>
      obtain ⟨l, a⟩ := e
      by_cases h : l = k
      · subst h
        by_cases hk : k' = l
        · simp [upsertIn, hk]
        · have hb : (k' == l) = false := by simpa using hk
          simp [upsertIn, List.lookup_cons, hk, hb]
      · have hl : (k == l) = false := by simpa using fun e : k = l => h e.symm
        simp only [upsertIn, h, if_false, List.lookup_cons]
        by_cases hk : k' = l
        · subst hk
          simp [h]
        · have : (k' == l) = false := by simpa using hk
          rw [this, hl, ih]

theorem find?_upsert (t : Table κ α) (k k' : κ) (f : Option α → α) :
    (t.upsert k f).find? k' = if k' = k then some (f (t.find? k)) else t.find? k' :=
  lookup_upsertIn k k' f t.entries

theorem distinct_upsert {t : Table κ α} (h : t.Distinct) (k : κ) (f : Option α → α) :
    (t.upsert k f).Distinct := by
  simpa [Distinct] using nodup_addNew h k

end Table

end ArchGraph
