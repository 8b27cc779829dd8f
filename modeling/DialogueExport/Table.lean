/-!
# Tables that keep the order of their keys

A `Table` maps keys to values and remembers in which order its keys first came.  Everything
this library reads from a document is shown again in the document's order, so the order
belongs to the type.

* `insert` writes a value: a key that is already there keeps its place and takes the new
  value, a new key goes to the end (`keys_insert`, `get?_insert`);
* `ofEntries` reads a list of pairs from left to right, so of a repeated key the first place
  and the last value remain (`get?_ofEntries`);
* that no key occurs twice is a field of the type, hence an entry is the same thing as a
  successful look-up (`mem_entries_iff`).
-/

namespace DialogueExport

/-- Keys with their values, in order of first insertion. -/
structure Table (κ α : Type) where
  /-- The pairs, in order of first insertion. -/
  entries : List (κ × α)
  /-- No key occurs twice. -/
  keys_nodup : (entries.map Prod.fst).Nodup

namespace Table

variable {κ α : Type}

/-! ## 1. Views -/

/-- The table without entries. -/
def empty : Table κ α := ⟨[], List.Pairwise.nil⟩

instance : Inhabited (Table κ α) := ⟨empty⟩

/-- The keys, in order of first insertion. -/
def keys (t : Table κ α) : List κ := t.entries.map Prod.fst

/-- The values, in the order of their keys. -/
def values (t : Table κ α) : List α := t.entries.map Prod.snd

/-- The number of entries. -/
def size (t : Table κ α) : Nat := t.entries.length

@[ext] theorem ext {s t : Table κ α} (h : s.entries = t.entries) : s = t := by
  cases s; cases t; cases h; rfl

theorem nodup_keys (t : Table κ α) : t.keys.Nodup := t.keys_nodup

@[simp] theorem keys_empty : (empty : Table κ α).keys = [] := rfl

@[simp] theorem entries_empty : (empty : Table κ α).entries = [] := rfl

theorem nodup_append_entry {t : Table κ α} {k : κ} (a : α) (h : k ∉ t.keys) :
    ((t.entries ++ [(k, a)]).map Prod.fst).Nodup := by
  rw [List.map_append]
  refine List.nodup_append.2 ⟨t.keys_nodup, by simp, ?_⟩
  intro x hx y hy hxy
  simp only [List.map_cons, List.map_nil, List.mem_singleton] at hy
  exact h (hy ▸ hxy ▸ hx)

theorem nodup_filter_entries (t : Table κ α) (p : κ × α → Bool) :
    ((t.entries.filter p).map Prod.fst).Nodup :=
  List.Nodup.sublist (List.Sublist.map _ List.filter_sublist) t.keys_nodup

theorem nodup_filterMap_entries {β : Type} (t : Table κ α) (f : α → Option β) :
    ((t.entries.filterMap fun e => (f e.2).map (Prod.mk e.1)).map Prod.fst).Nodup := by
  refine List.Nodup.sublist ?_ t.keys_nodup
  generalize t.entries = l
  induction l with
  | nil => exact List.Sublist.refl _
  | cons e l ih =>
    rw [List.filterMap_cons]
    cases f e.2 with
    | none => exact ih.cons e.1
    | some b => exact ih.cons_cons e.1

/-- The entries whose values have an image, with these images. -/
def filterMap {β : Type} (t : Table κ α) (f : α → Option β) : Table κ β :=
  ⟨t.entries.filterMap fun e => (f e.2).map (Prod.mk e.1), t.nodup_filterMap_entries f⟩

variable [DecidableEq κ]

/-- The value of a key, if the key is there. -/
def get? (t : Table κ α) (k : κ) : Option α := t.entries.lookup k

/-- The value of a key, or `d` for a key that is not there. -/
def getD (t : Table κ α) (k : κ) (d : α) : α := (t.get? k).getD d

/-- Whether a key is there. -/
def contains (t : Table κ α) (k : κ) : Bool := decide (k ∈ t.keys)

@[simp] theorem contains_iff {t : Table κ α} {k : κ} : t.contains k = true ↔ k ∈ t.keys := by
  simp [contains]

/-! ## 2. Look-up in a list of pairs -/

theorem lookup_eq_none_iff : ∀ {l : List (κ × α)} {k : κ},
    l.lookup k = none ↔ k ∉ l.map Prod.fst
  | [], _ => by simp
  | (j, a) :: l, k => by
    have ih := @lookup_eq_none_iff l k
    by_cases h : k = j
    · subst h; simp
    · have hb : (k == j) = false := by simp [h]
      simp [List.lookup_cons, hb, ih, h]

theorem lookup_eq_some_iff_mem : ∀ {l : List (κ × α)} {k : κ} {a : α},
    (l.map Prod.fst).Nodup → (l.lookup k = some a ↔ (k, a) ∈ l)
  | [], _, _, _ => by simp
  | (j, b) :: l, k, a, hn => by
    have hn' : j ∉ l.map Prod.fst ∧ (l.map Prod.fst).Nodup := by simpa using hn
    have ih := @lookup_eq_some_iff_mem l k a hn'.2
    by_cases h : k = j
    · subst h
      have : (k, a) ∉ l := fun hm => hn'.1 (List.mem_map.2 ⟨(k, a), hm, rfl⟩)
      simp [this, eq_comm]
    · have hb : (k == j) = false := by simp [h]
      simp [List.lookup_cons, hb, ih, h]

/-- An entry of a table is a key with the value that looking it up gives. -/
theorem mem_entries_iff {t : Table κ α} {k : κ} {a : α} :
    (k, a) ∈ t.entries ↔ t.get? k = some a :=
  (lookup_eq_some_iff_mem t.keys_nodup).symm

/-- Looking up all keys gives all values. -/
theorem map_get?_keys (t : Table κ α) : t.keys.map t.get? = t.values.map some := by
  rw [keys, values, List.map_map, List.map_map]
  exact List.map_congr_left fun e he => mem_entries_iff.1 he

theorem get?_eq_none_iff {t : Table κ α} {k : κ} : t.get? k = none ↔ k ∉ t.keys :=
  lookup_eq_none_iff

theorem mem_keys_iff {t : Table κ α} {k : κ} : k ∈ t.keys ↔ ∃ a, t.get? k = some a := by
  simp only [keys, List.mem_map, ← mem_entries_iff]
  constructor
  · rintro ⟨e, he, rfl⟩
    exact ⟨e.2, he⟩
  · rintro ⟨a, ha⟩
    exact ⟨(k, a), ha, rfl⟩

/-- Looking up an image is looking up the value and taking its image. -/
theorem get?_filterMap {β : Type} (t : Table κ α) (f : α → Option β) (k : κ) :
    (t.filterMap f).get? k = (t.get? k).bind f := by
  refine Option.ext fun b => ?_
  rw [← mem_entries_iff, Option.bind_eq_some_iff]
  simp only [filterMap, List.mem_filterMap, Option.map_eq_some_iff, Prod.mk.injEq]
  constructor
  · rintro ⟨e, he, b', hb, rfl, rfl⟩
    exact ⟨e.2, mem_entries_iff.1 he, hb⟩
  · rintro ⟨a, ha, hb⟩
    exact ⟨(k, a), mem_entries_iff.2 ha, b, hb, rfl, rfl⟩

@[simp] theorem get?_empty (k : κ) : (empty : Table κ α).get? k = none := rfl

/-! ## 3. Writing -/

/-- Gives `k` the value `a` in every pair whose key is `k`. -/
def replace (k : κ) (a : α) (l : List (κ × α)) : List (κ × α) :=
  l.map fun e => if e.1 = k then (k, a) else e

@[simp] theorem map_fst_replace (k : κ) (a : α) (l : List (κ × α)) :
    (replace k a l).map Prod.fst = l.map Prod.fst := by
  induction l with
  | nil => rfl
  | cons e l ih =>
    by_cases h : e.1 = k
    · simp_all [replace]
    · simp_all [replace]

theorem lookup_replace_self (k : κ) (a : α) : ∀ {l : List (κ × α)},
    k ∈ l.map Prod.fst → (replace k a l).lookup k = some a
  | [], h => by simp at h
  | (j, b) :: l, h => by
    by_cases hj : j = k
    · subst hj; simp [replace]
    · have hm : k ∈ l.map Prod.fst := by
        rcases List.mem_cons.1 h with h | h
        · exact absurd h.symm hj
        · exact h
      have hb : (k == j) = false := by simp [Ne.symm hj]
      have ih := lookup_replace_self k a hm
      simpa [replace, List.lookup_cons, hj, hb] using ih

theorem lookup_replace_of_ne {k i : κ} (a : α) (hi : i ≠ k) : ∀ l : List (κ × α),
    (replace k a l).lookup i = l.lookup i
  | [] => rfl
  | (j, b) :: l => by
    have ih := lookup_replace_of_ne a hi l
    by_cases hj : j = k
    · subst hj
      have hb : (i == j) = false := by simp [hi]
      simpa [replace, List.lookup_cons, hb] using ih
    · simp only [replace, List.map_cons, hj, if_false, List.lookup_cons]
      split
      · rfl
      · exact ih

theorem nodup_replace {t : Table κ α} (k : κ) (a : α) :
    ((replace k a t.entries).map Prod.fst).Nodup := by
  rw [map_fst_replace]
  exact t.keys_nodup

/-- Writes a value: a key that is there keeps its place, a new one goes to the end. -/
def insert (t : Table κ α) (k : κ) (a : α) : Table κ α :=
  if h : k ∈ t.keys then ⟨replace k a t.entries, nodup_replace k a⟩
  else ⟨t.entries ++ [(k, a)], nodup_append_entry a h⟩

theorem entries_insert_of_mem {t : Table κ α} {k : κ} (a : α) (h : k ∈ t.keys) :
    (t.insert k a).entries = replace k a t.entries := by
  simp [insert, h]

theorem entries_insert_of_not_mem {t : Table κ α} {k : κ} (a : α) (h : k ∉ t.keys) :
    (t.insert k a).entries = t.entries ++ [(k, a)] := by
  simp [insert, h]

theorem keys_insert (t : Table κ α) (k : κ) (a : α) :
    (t.insert k a).keys = if k ∈ t.keys then t.keys else t.keys ++ [k] := by
  by_cases h : k ∈ t.keys
  · simp only [keys] at h
    simp [keys, insert, h]
  · simp only [keys] at h
    simp [keys, insert, h]

theorem mem_keys_insert {t : Table κ α} {k i : κ} {a : α} :
    i ∈ (t.insert k a).keys ↔ i = k ∨ i ∈ t.keys := by
  rw [keys_insert]
  split
  · constructor
    · exact Or.inr
    · rintro (rfl | h) <;> assumption
  · simp [or_comm]

@[simp] theorem get?_insert_self (t : Table κ α) (k : κ) (a : α) :
    (t.insert k a).get? k = some a := by
  by_cases h : k ∈ t.keys
  · rw [get?, entries_insert_of_mem a h]
    exact lookup_replace_self k a h
  · have hn : t.entries.lookup k = none := lookup_eq_none_iff.2 h
    rw [get?, entries_insert_of_not_mem a h]
    simp [List.lookup_append, hn]

theorem get?_insert_of_ne (t : Table κ α) {k i : κ} (a : α) (hi : i ≠ k) :
    (t.insert k a).get? i = t.get? i := by
  by_cases h : k ∈ t.keys
  · rw [get?, entries_insert_of_mem a h]
    exact lookup_replace_of_ne a hi t.entries
  · have hb : (i == k) = false := by simp [hi]
    rw [get?, entries_insert_of_not_mem a h]
    simp [List.lookup_append, List.lookup_cons, hb, get?]

theorem get?_insert (t : Table κ α) (k i : κ) (a : α) :
    (t.insert k a).get? i = if i = k then some a else t.get? i := by
  by_cases h : i = k
  · subst h; simp
  · simp [h, get?_insert_of_ne t a h]

/-- Takes a key out; the other entries keep their order. -/
def erase (t : Table κ α) (k : κ) : Table κ α :=
  ⟨t.entries.filter fun e => e.1 ≠ k, t.nodup_filter_entries _⟩

theorem get?_erase (t : Table κ α) (k i : κ) :
    (t.erase k).get? i = if i = k then none else t.get? i := by
  refine Option.ext fun a => ?_
  rw [← mem_entries_iff]
  by_cases h : i = k
  · simp [erase, h]
  · rw [if_neg h, ← mem_entries_iff]
    simp [erase, h]

/-! ## 4. Reading a list of pairs -/

/-- Writes the pairs one after the other into a table. -/
def insertAll (t : Table κ α) (l : List (κ × α)) : Table κ α :=
  l.foldl (fun t e => t.insert e.1 e.2) t

/-- The table of a list of pairs: a repeated key keeps its first place and its last value. -/
def ofEntries (l : List (κ × α)) : Table κ α := empty.insertAll l

@[simp] theorem insertAll_nil (t : Table κ α) : t.insertAll [] = t := rfl

@[simp] theorem insertAll_cons (t : Table κ α) (e : κ × α) (l : List (κ × α)) :
    t.insertAll (e :: l) = (t.insert e.1 e.2).insertAll l := rfl

theorem get?_insertAll (t : Table κ α) (l : List (κ × α)) (k : κ) :
    (t.insertAll l).get? k = (l.reverse.lookup k).or (t.get? k) := by
  induction l generalizing t with
  | nil => simp
  | cons e l ih =>
    obtain ⟨j, a⟩ := e
    rw [insertAll_cons, ih, List.reverse_cons, List.lookup_append, Option.or_assoc]
    congr 1
    rw [get?_insert]
    by_cases h : k = j
    · subst h; simp
    · have hb : (k == j) = false := by simp [h]
      simp [List.lookup_cons, hb, h]

/-- Of a repeated key the last value remains. -/
theorem get?_ofEntries (l : List (κ × α)) (k : κ) :
    (ofEntries l).get? k = l.reverse.lookup k := by
  simp [ofEntries, get?_insertAll]

/-- A list without repeated keys is its table, entry by entry. -/
theorem entries_insertAll_of_nodup (t : Table κ α) (l : List (κ × α))
    (h : (t.keys ++ l.map Prod.fst).Nodup) : (t.insertAll l).entries = t.entries ++ l := by
  induction l generalizing t with
  | nil => simp
  | cons e l ih =>
    have hk : e.1 ∉ t.keys := by
      intro hm
      have := (List.nodup_append.1 h).2.2 e.1 hm e.1 (by simp)
      exact this rfl
    have hk' : (t.insert e.1 e.2).keys = t.keys ++ [e.1] := by simp [keys_insert, hk]
    rw [insertAll_cons, ih _ (by rw [hk']; simpa using h), entries_insert_of_not_mem _ hk]
    simp

theorem entries_ofEntries_of_nodup (l : List (κ × α)) (h : (l.map Prod.fst).Nodup) :
    (ofEntries l).entries = l := by
  have := entries_insertAll_of_nodup (empty : Table κ α) l (by simpa using h)
  simpa [ofEntries] using this

end Table

end DialogueExport
