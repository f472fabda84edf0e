import ArchGraph.Table

/-!
What can be read from a table after each way of changing it.
-/

namespace ArchGraph.Table

variable {κ α β : Type} [DecidableEq κ]

@[simp] theorem find?_insert (t : Table κ α) (k l : κ) (a : α) :
    (t.insert k a).find? l = if l = k then some a else t.find? l :=
  find?_upsert t k l (fun _ => a)

@[simp] theorem keys_insert (t : Table κ α) (k : κ) (a : α) :
    (t.insert k a).keys = addNew t.keys k := keys_upsert t k (fun _ => a)

/-- Of the pairs inserted under one key the last counts. -/
theorem find?_insertAll (t : Table κ α) (pairs : List (κ × α)) (k : κ) :
    (t.insertAll pairs).find? k = (pairs.reverse.lookup k).or (t.find? k) := by
  induction pairs generalizing t with
  | nil => rfl
  | cons e pairs ih =>
      obtain ⟨l, a⟩ := e
      have hstep : t.insertAll ((l, a) :: pairs) = (t.insert l a).insertAll pairs := rfl
      rw [hstep, ih, List.reverse_cons, List.lookup_append, Option.or_assoc, find?_insert]
      congr 1
      by_cases h : k = l
      · simp [h]
      · have hb : (k == l) = false := by simpa using h
        simp [h, List.lookup_cons, hb]

/-- A key that has a value keeps it. -/
theorem find?_insertNew (t : Table κ α) (k l : κ) (a : α) :
    (t.insertNew k a).find? l = (t.find? l).or (if l = k then some a else none) := by
  unfold insertNew
  rw [find?_upsert]
  by_cases h : l = k
  · subst h
    cases t.find? l <;> simp
  · simp [h]

/-- Of the items inserted under one key the first counts. -/
theorem find?_foldl_insertNew_each {ι : Type} (key : ι → κ) (value : ι → α) (xs : List ι)
    (t : Table κ α) (l : κ) :
    (xs.foldl (fun t x => t.insertNew (key x) (value x)) t).find? l =
      (t.find? l).or ((xs.find? (fun x => decide (key x = l))).map value) := by
  induction xs generalizing t with
  | nil => simp
  | cons x xs ih =>
      rw [List.foldl_cons, ih, find?_insertNew, Option.or_assoc, List.find?_cons]
      congr 1
      by_cases h : key x = l
      · simp [h]
      · simp [h, Ne.symm h]

theorem find?_foldl_insertNew {ι : Type} (key : ι → κ) (a : α) (xs : List ι) (t : Table κ α)
    (l : κ) :
    (xs.foldl (fun t x => t.insertNew (key x) a) t).find? l =
      (t.find? l).or (if l ∈ xs.map key then some a else none) := by
  rw [find?_foldl_insertNew_each key (fun _ => a)]
  congr 1
  cases hfind : xs.find? (fun x => decide (key x = l)) with
  | none =>
      have habsent : l ∉ xs.map key := by simpa using hfind
      rw [if_neg habsent, Option.map_none]
  | some x =>
      have hkey : key x = l := by simpa using List.find?_some hfind
      have hmem : key x ∈ xs.map key := List.mem_map_of_mem (List.mem_of_find?_eq_some hfind)
      rw [if_pos (hkey ▸ hmem), Option.map_some]

theorem distinct_insert {t : Table κ α} (h : t.Distinct) (k : κ) (a : α) :
    (t.insert k a).Distinct := distinct_upsert h k (fun _ => a)

@[simp] theorem keys_insertNew (t : Table κ α) (k : κ) (a : α) :
    (t.insertNew k a).keys = addNew t.keys k := keys_upsert t k (·.getD a)

theorem distinct_insertNew {t : Table κ α} (h : t.Distinct) (k : κ) (a : α) :
    (t.insertNew k a).Distinct := distinct_upsert h k (·.getD a)

theorem contains_iff (t : Table κ α) (k : κ) : t.contains k = true ↔ k ∈ t.keys := by
  unfold contains find? keys
  rw [List.lookup_isSome_iff, List.mem_map]
  constructor
  · rintro ⟨e, he, hk⟩
    exact ⟨e, he, (eq_of_beq hk).symm⟩
  · rintro ⟨e, he, rfl⟩
    exact ⟨e, he, BEq.refl _⟩

theorem mem_entries_of_find? {t : Table κ α} {k : κ} {a : α} (h : t.find? k = some a) :
    (k, a) ∈ t.entries := by
  obtain ⟨before, after, he, _⟩ := List.lookup_eq_some_iff.mp h
  rw [he]
  exact List.mem_append_right _ List.mem_cons_self

theorem find?_insertAll_mem (t : Table κ α) {pairs : List (κ × α)} {k : κ}
    (h : ∃ e ∈ pairs, e.1 = k) :
    ∃ e ∈ pairs, e.1 = k ∧ (t.insertAll pairs).find? k = some e.2 := by
  obtain ⟨e, he, rfl⟩ := h
  have hkey : (pairs.reverse.lookup e.1).isSome :=
    List.lookup_isSome_iff.mpr ⟨e, List.mem_reverse.mpr he, BEq.refl _⟩
  obtain ⟨a, ha⟩ := Option.isSome_iff_exists.mp hkey
  have hmem : (e.1, a) ∈ pairs.reverse := mem_entries_of_find? (t := ⟨pairs.reverse⟩) ha
  rw [find?_insertAll, ha]
  exact ⟨(e.1, a), List.mem_reverse.mp hmem, rfl, rfl⟩

/-- After two insertions for each item, a key of an item leads to a value of an item with that
key. -/
theorem find?_foldl_insert₂ {ι : Type} (k l : ι → κ) (v w : ι → α) {xs : List ι} {key : κ}
    (h : ∃ x ∈ xs, k x = key ∨ l x = key) :
    ∃ x ∈ xs, ∃ a, (k x = key ∧ a = v x ∨ l x = key ∧ a = w x) ∧
      (xs.foldl (fun t x => (t.insert (k x) (v x)).insert (l x) (w x)) (∅ : Table κ α)).find? key =
        some a := by
  have hall : xs.foldl (fun t x => (t.insert (k x) (v x)).insert (l x) (w x)) (∅ : Table κ α) =
      (∅ : Table κ α).insertAll (xs.flatMap (fun x => [(k x, v x), (l x, w x)])) := by
    unfold insertAll
    rw [List.foldl_flatMap]
    rfl
  obtain ⟨x, hx, hkey⟩ := h
  have hpair : ∃ e ∈ xs.flatMap (fun x => [(k x, v x), (l x, w x)]), e.1 = key := by
    rcases hkey with rfl | rfl
    · exact ⟨_, List.mem_flatMap.mpr ⟨x, hx, List.mem_cons_self⟩, rfl⟩
    · exact ⟨_, List.mem_flatMap.mpr ⟨x, hx, List.mem_cons_of_mem _ List.mem_cons_self⟩, rfl⟩
  obtain ⟨e, he, hname, hfind⟩ := find?_insertAll_mem ∅ hpair
  obtain ⟨y, hy, he⟩ := List.mem_flatMap.mp he
  refine ⟨y, hy, e.2, ?_, hall ▸ hfind⟩
  simp only [List.mem_cons, List.not_mem_nil, or_false] at he
  rcases he with rfl | rfl
  · exact .inl ⟨hname, rfl⟩
  · exact .inr ⟨hname, rfl⟩

theorem lookup_map_value (f : κ → α → β) (es : List (κ × α)) (k : κ) :
    (es.map (fun e => (e.1, f e.1 e.2))).lookup k = (es.lookup k).map (f k) := by
  induction es with
  | nil => rfl
  | cons e es ih =>
      obtain ⟨l, a⟩ := e
      cases h : k == l with
      | true =>
          have hk : k = l := eq_of_beq h
          simp [hk]
      | false => simp [List.lookup_cons, h, ih]

/-- In a list of items by their names, the first of a name is found. -/
theorem lookup_map_item {ι : Type} (key : ι → κ) (value : ι → α) (xs : List ι) (k : κ) :
    (xs.map (fun x => (key x, value x))).lookup k =
      (xs.find? (fun x => decide (key x = k))).map value := by
  induction xs with
  | nil => rfl
  | cons x xs ih =>
      by_cases h : key x = k
      · simp [h]
      · have hb : (k == key x) = false := by simpa using Ne.symm h
        simp [List.lookup_cons, h, hb, ih]

theorem modify_eq_map (t : Table κ α) (k : κ) (f : α → α) :
    t.modify k f = ⟨t.entries.map (fun e => (e.1, if e.1 = k then f e.2 else e.2))⟩ := by
  unfold modify
  congr 1
  apply List.map_congr_left
  intro e _
  by_cases h : e.1 = k <;> simp [h]

@[simp] theorem keys_modify (t : Table κ α) (k : κ) (f : α → α) : (t.modify k f).keys = t.keys := by
  simp [modify_eq_map, keys]

theorem find?_modify (t : Table κ α) (k l : κ) (f : α → α) :
    (t.modify k f).find? l = if l = k then (t.find? k).map f else t.find? l := by
  rw [modify_eq_map]
  unfold find?
  rw [lookup_map_value (fun l a => if l = k then f a else a)]
  by_cases h : l = k <;> simp [h]

theorem modify_comm (t : Table κ α) {k l : κ} (h : k ≠ l) (f g : α → α) :
    (t.modify k f).modify l g = (t.modify l g).modify k f := by
  simp only [modify_eq_map, List.map_map]
  congr 1
  apply List.map_congr_left
  intro e _
  by_cases hk : e.1 = k
  · simp [hk, h]
  · simp [hk]

theorem modify_modify (t : Table κ α) (k : κ) (f g : α → α) :
    (t.modify k f).modify k g = t.modify k (fun a => g (f a)) := by
  simp only [modify_eq_map, List.map_map]
  congr 1
  apply List.map_congr_left
  intro e _
  by_cases hk : e.1 = k <;> simp [hk]

theorem modify_id (t : Table κ α) (k : κ) : t.modify k (fun a => a) = t := by
  simp [modify_eq_map]

theorem distinct_modify {t : Table κ α} (h : t.Distinct) (k : κ) (f : α → α) :
    (t.modify k f).Distinct := by
  unfold Distinct
  rw [keys_modify]
  exact h

omit [DecidableEq κ] in
@[simp] theorem keys_map (f : α → β) (t : Table κ α) : (t.map f).keys = t.keys := by
  simp [map, keys]

theorem find?_map (f : α → β) (t : Table κ α) (k : κ) : (t.map f).find? k = (t.find? k).map f :=
  lookup_map_value (fun _ => f) t.entries k

omit [DecidableEq κ] in
theorem map_map {γ : Type} (f : α → β) (g : β → γ) (t : Table κ α) :
    (t.map f).map g = t.map (fun a => g (f a)) := by
  simp only [map, List.map_map]
  rfl

@[simp] theorem contains_map (f : α → β) (t : Table κ α) (k : κ) :
    (t.map f).contains k = t.contains k := by
  rw [contains, contains, find?_map, Option.isSome_map]

/-- Changing a value and then translating it is translating it and then changing it. -/
theorem map_upsert {f : α → β} {g : Option α → α} {g' : Option β → β}
    (h : ∀ known, f (g known) = g' (known.map f)) (t : Table κ α) (k : κ) :
    (t.upsert k g).map f = (t.map f).upsert k g' := by
  have run : ∀ es : List (κ × α), (upsertIn k g es).map (fun e => (e.1, f e.2)) =
      upsertIn k g' (es.map (fun e => (e.1, f e.2))) := by
    intro es
    induction es with
    | nil => simp [upsertIn, h]
    | cons e es ih =>
        by_cases hk : e.1 = k
        · simp [upsertIn, hk, h]
        · simp [upsertIn, hk, ih]
  exact congrArg Table.mk (run t.entries)

theorem map_insert (f : α → β) (t : Table κ α) (k : κ) (a : α) :
    (t.insert k a).map f = (t.map f).insert k (f a) := by
  apply map_upsert
  intro known
  rfl

theorem map_insertNew (f : α → β) (t : Table κ α) (k : κ) (a : α) :
    (t.insertNew k a).map f = (t.map f).insertNew k (f a) := by
  apply map_upsert
  intro known
  cases known <;> rfl

theorem map_modify {f : α → β} {g : α → α} {g' : β → β} (h : ∀ a, f (g a) = g' (f a))
    (t : Table κ α) (k : κ) : (t.modify k g).map f = (t.map f).modify k g' := by
  simp only [modify_eq_map, map, List.map_map]
  congr 1
  apply List.map_congr_left
  intro e _
  by_cases hk : e.1 = k
  · simp [hk, h]
  · simp [hk]

theorem mem_keys_iff {t : Table κ α} {k : κ} : k ∈ t.keys ↔ ∃ a, t.find? k = some a := by
  rw [← contains_iff, contains, Option.isSome_iff_exists]

theorem mem_keys_of_find? {t : Table κ α} {k : κ} {a : α} (h : t.find? k = some a) : k ∈ t.keys :=
  mem_keys_iff.mpr ⟨a, h⟩

theorem find?_eq_none_iff {t : Table κ α} {k : κ} : t.find? k = none ↔ k ∉ t.keys := by
  rw [mem_keys_iff, ← Option.isSome_iff_exists, Bool.not_eq_true, Option.isSome_eq_false_iff,
    Option.isNone_iff_eq_none]

@[simp] theorem keys_erase (t : Table κ α) (k : κ) : (t.erase k).keys = t.keys.filter (· ≠ k) := by
  simp only [erase, keys, List.filter_map]
  rfl

theorem distinct_erase {t : Table κ α} (h : t.Distinct) (k : κ) : (t.erase k).Distinct := by
  unfold Distinct
  rw [keys_erase]
  exact h.filter _

/-- A table of which only some keys are kept. -/
theorem find?_filter (t : Table κ α) (p : κ → Bool) (k : κ) :
    (⟨t.entries.filter (fun e => p e.1)⟩ : Table κ α).find? k = if p k then t.find? k
      else none := by
  unfold find?
  induction t.entries with
  | nil => simp
  | cons e es ih =>
      obtain ⟨k', a⟩ := e
      rw [List.filter_cons, List.lookup_cons]
      by_cases hk : k = k'
      · subst hk
        cases hp : p k with
        | true => simp
        | false => simpa [hp] using ih
      · have hb : (k == k') = false := by simpa using hk
        cases hp : p k' with
        | true => simpa [List.lookup_cons, hb] using ih
        | false => simpa [hb] using ih

theorem find?_erase (t : Table κ α) (k l : κ) :
    (t.erase k).find? l = if l = k then none else t.find? l := by
  have hkept := find?_filter t (fun k' => decide (k' ≠ k)) l
  by_cases h : l = k
  · simpa [erase, h] using hkept
  · simpa [erase, h] using hkept

theorem foldl_erase {ι : Type} (key : ι → κ) (xs : List ι) (t : Table κ α) :
    xs.foldl (fun t x => t.erase (key x)) t =
      ⟨t.entries.filter (fun e => e.1 ∉ xs.map key)⟩ := by
  induction xs generalizing t with
  | nil => exact congrArg Table.mk (List.filter_eq_self.mpr (by simp)).symm
  | cons x xs ih =>
      rw [List.foldl_cons, ih, erase, List.filter_filter]
      congr 1
      apply List.filter_congr
      intro e _
      by_cases h : e.1 = key x <;> simp [h]

theorem erase_eq_self_iff (t : Table κ α) (k : κ) : t.erase k = t ↔ k ∉ t.keys := by
  have hentries : t.erase k = t ↔ t.entries.filter (fun e => e.1 ≠ k) = t.entries :=
    ⟨congrArg Table.entries, congrArg Table.mk⟩
  rw [hentries, List.filter_eq_self, keys, List.mem_map]
  constructor
  · rintro hall ⟨e, he, rfl⟩
    simpa using hall e he
  · intro hnone e he
    exact decide_eq_true fun heq => hnone ⟨e, he, heq⟩

/-- What was put under a key is gone once the key is. -/
theorem erase_insert (t : Table κ α) (k : κ) (a : α) : (t.insert k a).erase k = t.erase k := by
  have run : ∀ es : List (κ × α), (upsertIn k (fun _ => a) es).filter (fun e => e.1 ≠ k) =
      es.filter (fun e => e.1 ≠ k) := by
    intro es
    induction es with
    | nil => simp [upsertIn]
    | cons e es ih =>
        by_cases he : e.1 = k
        · simp [upsertIn, he]
        · simp only [upsertIn, he, if_false, List.filter_cons, ih]
  exact congrArg Table.mk (run t.entries)

/-! ## What holds of every entry -/

/-- Whatever is found under a key has a property. -/
def All (P : κ → α → Prop) (t : Table κ α) : Prop := ∀ k a, t.find? k = some a → P k a

variable {P Q : κ → α → Prop} {t : Table κ α}

theorem All.empty : (∅ : Table κ α).All P := fun _ _ h => nomatch h

theorem All.imp (h : t.All P) (hPQ : ∀ k a, P k a → Q k a) : t.All Q :=
  fun k a ha => hPQ k a (h k a ha)

theorem All.upsert (h : t.All P) {k : κ} {f : Option α → α} (hf : P k (f (t.find? k))) :
    (t.upsert k f).All P := by
  intro l a hl
  rw [find?_upsert] at hl
  split at hl
  · rename_i heq
    obtain rfl := Option.some.inj hl
    exact heq ▸ hf
  · exact h l a hl

theorem All.insert (h : t.All P) {k : κ} {a : α} (ha : P k a) : (t.insert k a).All P :=
  h.upsert ha

theorem All.insertNew (h : t.All P) {k : κ} {a : α} (ha : P k a) : (t.insertNew k a).All P := by
  apply h.upsert
  cases hk : t.find? k with
  | none => exact ha
  | some b => exact h k b hk

theorem All.modify (h : t.All P) {k : κ} {f : α → α} (hf : ∀ a, P k a → P k (f a)) :
    (t.modify k f).All P := by
  intro l a hl
  rw [find?_modify] at hl
  split at hl
  · rename_i heq
    obtain ⟨b, hb, rfl⟩ := Option.map_eq_some_iff.mp hl
    exact heq ▸ hf b (h k b hb)
  · exact h l a hl

theorem All.erase (h : t.All P) (k : κ) : (t.erase k).All P := by
  intro l a hl
  rw [find?_erase] at hl
  split at hl
  · cases hl
  · exact h l a hl

theorem All.map {R : κ → β → Prop} {f : α → β} (h : t.All P) (hf : ∀ k a, P k a → R k (f a)) :
    (t.map f).All R := by
  intro k b hb
  rw [find?_map] at hb
  obtain ⟨a, ha, rfl⟩ := Option.map_eq_some_iff.mp hb
  exact hf k a (h k a ha)

/-! ## Tables without repeated keys -/

theorem find?_of_mem {t : Table κ α} (h : t.Distinct) {k : κ} {a : α} (hm : (k, a) ∈ t.entries) :
    t.find? k = some a := by
  have run : ∀ es : List (κ × α), (es.map (·.1)).Nodup → (k, a) ∈ es → es.lookup k = some a := by
    intro es
    induction es with
    | nil => exact fun _ hm => absurd hm List.not_mem_nil
    | cons e es ih =>
        obtain ⟨l, b⟩ := e
        intro hn hm
        rw [List.map_cons, List.nodup_cons] at hn
        rcases List.mem_cons.mp hm with heq | hrest
        · obtain ⟨rfl, rfl⟩ := Prod.mk.inj heq
          exact List.lookup_cons_self
        · have hne : (k == l) = false := by
            apply beq_false_of_ne
            rintro rfl
            exact hn.1 (List.mem_map.mpr ⟨_, hrest, rfl⟩)
          rw [List.lookup_cons, hne]
          exact ih hn.2 hrest
  exact run t.entries h hm

/-- Where values name the keys they stand under, their names are the keys. -/
theorem map_values {t : Table κ α} (h : t.Distinct) {name : α → κ}
    (hname : t.All (fun k a => name a = k)) : t.values.map name = t.keys := by
  unfold values keys
  rw [List.map_map]
  apply List.map_congr_left
  intro e he
  exact hname e.1 e.2 (find?_of_mem h he)

theorem mem_values_iff {t : Table κ α} (h : t.Distinct) {name : α → κ}
    (hname : t.All (fun k a => name a = k)) {a : α} : a ∈ t.values ↔ t.find? (name a) = some a := by
  constructor
  · intro ha
    obtain ⟨e, he, rfl⟩ := List.mem_map.mp ha
    have hfind := find?_of_mem h he
    rw [hname e.1 e.2 hfind]
    exact hfind
  · intro hfind
    exact List.mem_map_of_mem (mem_entries_of_find? hfind)

theorem find?_perm {t u : Table κ α} (h : t.Distinct) (hp : t.entries.Perm u.entries) (k : κ) :
    t.find? k = u.find? k := by
  have hkeys : t.keys.Perm u.keys := hp.map _
  have hu : u.Distinct := hkeys.nodup_iff.mp h
  cases ht : t.find? k with
  | some a => rw [find?_of_mem hu (hp.mem_iff.mp (mem_entries_of_find? ht))]
  | none =>
      cases hk : u.find? k with
      | none => rfl
      | some a =>
          rw [find?_of_mem h (hp.mem_iff.mpr (mem_entries_of_find? hk))] at ht
          cases ht

theorem upsertIn_new (k : κ) (f : Option α → α) (es : List (κ × α)) (h : k ∉ es.map (·.1)) :
    upsertIn k f es = es ++ [(k, f none)] := by
  induction es with
  | nil => rfl
  | cons e es ih =>
      rw [List.map_cons, List.mem_cons, not_or] at h
      have hne : ¬ e.1 = k := fun he => h.1 he.symm
      rw [upsertIn, if_neg hne, ih h.2, List.cons_append]

/-- Filling a table under new keys lists them in their order. -/
theorem foldl_upsert_new {ι : Type} (key : ι → κ) (f : ι → Option α → α) (xs : List ι)
    (t : Table κ α) (h : (t.keys ++ xs.map key).Nodup) :
    xs.foldl (fun t x => t.upsert (key x) (f x)) t =
      ⟨t.entries ++ xs.map (fun x => (key x, f x none))⟩ := by
  induction xs generalizing t with
  | nil => simp
  | cons x xs ih =>
      have hnew : key x ∉ t.keys := by
        rw [List.nodup_append] at h
        exact fun hin => h.2.2 (key x) hin (key x) (by simp) rfl
      have hstep : t.upsert (key x) (f x) = ⟨t.entries ++ [(key x, f x none)]⟩ :=
        congrArg Table.mk (upsertIn_new (key x) (f x) t.entries hnew)
      rw [List.foldl_cons, hstep, ih]
      · simp
      · simpa [keys] using h

theorem insertAll_new {t : Table κ α} {pairs : List (κ × α)}
    (h : (t.keys ++ pairs.map (·.1)).Nodup) : t.insertAll pairs = ⟨t.entries ++ pairs⟩ := by
  have hfilled := foldl_upsert_new (fun e : κ × α => e.1) (fun e _ => e.2) pairs t h
  have hsame : pairs.map (fun e => (e.1, e.2)) = pairs := List.map_id pairs
  rw [hsame] at hfilled
  exact hfilled

theorem ofList_eq {pairs : List (κ × α)} (h : (pairs.map (·.1)).Nodup) : ofList pairs = ⟨pairs⟩ :=
  insertAll_new h

/-! ## Several changes under one key -/

theorem upsert_upsert (t : Table κ α) (k : κ) (f g : Option α → α) :
    (t.upsert k f).upsert k g = t.upsert k (fun known => g (some (f known))) := by
  have run : ∀ es : List (κ × α), upsertIn k g (upsertIn k f es) =
      upsertIn k (fun known => g (some (f known))) es := by
    intro es
    induction es with
    | nil => simp [upsertIn]
    | cons e es ih =>
        by_cases hk : e.1 = k
        · simp [upsertIn, hk]
        · simp [upsertIn, hk, ih]
  exact congrArg Table.mk (run t.entries)

theorem entries_upsert_ne_nil (t : Table κ α) (k : κ) (f : Option α → α) :
    (t.upsert k f).entries ≠ [] := by
  intro hnil
  have hmem : k ∈ (t.upsert k f).keys := by simp
  rw [keys, hnil] at hmem
  cases hmem

theorem foldl_upsert_same {ι : Type} (k : κ) (f : ι → Option α → α) (g : Option α → α)
    (xs : List ι) (t : Table κ α) :
    xs.foldl (fun t x => t.upsert k (f x)) (t.upsert k g) =
      t.upsert k (fun known => xs.foldl (fun a x => f x (some a)) (g known)) := by
  induction xs generalizing g with
  | nil => rfl
  | cons x xs ih =>
      rw [List.foldl_cons, upsert_upsert, ih]
      rfl

/-- A change that leaves the value as it is. -/
theorem upsert_of_find? {t : Table κ α} {k : κ} {a : α} (h : t.find? k = some a)
    {f : Option α → α} (hf : f (some a) = a) : t.upsert k f = t := by
  have run : ∀ es : List (κ × α), es.lookup k = some a → upsertIn k f es = es := by
    intro es
    induction es with
    | nil => simp
    | cons e es ih =>
        obtain ⟨l, b⟩ := e
        intro hfind
        by_cases hk : l = k
        · subst hk
          rw [List.lookup_cons_self] at hfind
          obtain rfl := Option.some.inj hfind
          simp [upsertIn, hf]
        · have hne : (k == l) = false := by simpa using fun e : k = l => hk e.symm
          rw [List.lookup_cons, hne] at hfind
          simp [upsertIn, hk, ih hfind]
  exact congrArg Table.mk (run t.entries h)

/-- Changing a value into itself changes nothing. -/
theorem modify_eq_self {t : Table κ α} (h : t.Distinct) {k : κ} {f : α → α}
    (hf : ∀ a, t.find? k = some a → f a = a) : t.modify k f = t := by
  have hsame : ∀ e ∈ t.entries, (if e.1 = k then (e.1, f e.2) else e) = e := by
    intro e he
    split
    · rename_i hk
      rw [hf e.2 (hk ▸ find?_of_mem h he)]
    · rfl
  unfold modify
  rw [List.map_congr_left hsame, List.map_id']

theorem foldl_modify_same {ι : Type} {key : ι → κ} {k : κ} (f : ι → α → α) {xs : List ι}
    (h : ∀ x ∈ xs, key x = k) (t : Table κ α) :
    xs.foldl (fun t x => t.modify (key x) (f x)) t =
      t.modify k (fun a => xs.foldl (fun a x => f x a) a) := by
  induction xs generalizing t with
  | nil => exact (modify_id t k).symm
  | cons x xs ih =>
      obtain ⟨hx, hxs⟩ := List.forall_mem_cons.mp h
      rw [List.foldl_cons, ih hxs, hx, modify_modify]
      rfl

theorem modify_between {before after : List (κ × α)} {k : κ} {a : α}
    (hbefore : k ∉ before.map (·.1)) (hafter : k ∉ after.map (·.1)) (f : α → α) :
    (⟨before ++ (k, a) :: after⟩ : Table κ α).modify k f = ⟨before ++ (k, f a) :: after⟩ := by
  have others : ∀ es : List (κ × α), k ∉ es.map (·.1) →
      es.map (fun e => if e.1 = k then (e.1, f e.2) else e) = es := by
    intro es hk
    rw [List.map_congr_left (g := id), List.map_id]
    intro e he
    apply if_neg
    rintro rfl
    exact hk (List.mem_map_of_mem he)
  simp [modify, others before hbefore, others after hafter]

/-- Changing every value in turn. -/
theorem foldl_modify_each (f : κ × α → β → β) (g : α → β) {es : List (κ × α)}
    (h : (es.map (·.1)).Nodup) :
    es.foldl (fun (t : Table κ β) e => t.modify e.1 (f e)) ⟨es.map (fun e => (e.1, g e.2))⟩ =
      ⟨es.map (fun e => (e.1, f e (g e.2)))⟩ := by
  have run : ∀ rest before : List (κ × α), ((before ++ rest).map (·.1)).Nodup →
      rest.foldl (fun (t : Table κ β) e => t.modify e.1 (f e))
        ⟨before.map (fun e => (e.1, f e (g e.2))) ++ rest.map (fun e => (e.1, g e.2))⟩ =
      ⟨(before ++ rest).map (fun e => (e.1, f e (g e.2)))⟩ := by
    intro rest
    induction rest with
    | nil => simp
    | cons e rest ih =>
        intro before hn
        have hsplit : before ++ e :: rest = (before ++ [e]) ++ rest := by simp
        have hone : e.1 ∉ before.map (·.1) ∧ e.1 ∉ rest.map (·.1) := by
          rw [List.map_append, List.map_cons, List.nodup_append, List.nodup_cons] at hn
          exact ⟨fun hin => hn.2.2 _ hin _ List.mem_cons_self rfl, hn.2.1.1⟩
        rw [List.foldl_cons, List.map_cons, modify_between]
        · rw [hsplit] at hn ⊢
          rw [← ih _ hn]
          simp
        · simpa using hone.1
        · simpa using hone.2
  exact run es [] h

end ArchGraph.Table
