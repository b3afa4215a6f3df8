/-!
# Tables in insertion order

A `Keyed κ α` maps keys to values and keeps the order in which the keys were first put in.
Overwriting a key leaves it where it stands, removing one closes the gap, and no key occurs twice.
The lemmas say what each operation does to `get?` and to the list of entries.
-/

namespace TiddlerShelf

/-- A table of values under distinct keys, in the order in which the keys were first put in. -/
structure Keyed (κ α : Type) where
  entries : List (κ × α)
  nodup : (entries.map Prod.fst).Nodup

/-- What a list comes to when each item counts for as much as `f` says. -/
def total {α : Type} (f : α → Nat) : List α → Nat
  | [] => 0
  | a :: as => f a + total f as

theorem total_append {α : Type} (f : α → Nat) (as bs : List α) :
    total f (as ++ bs) = total f as + total f bs := by
  induction as with
  | nil => exact (Nat.zero_add _).symm
  | cons a as ih => rw [List.cons_append, total, total, ih, Nat.add_assoc]

theorem total_map {α β : Type} (f : β → Nat) (g : α → β) (as : List α) :
    total f (as.map g) = total (fun a => f (g a)) as := by
  induction as with
  | nil => rfl
  | cons a as ih => rw [List.map_cons, total, total, ih]

namespace Keyed

variable {κ α β : Type}

/-- The keys, in order. -/
def keys (t : Keyed κ α) : List κ := t.entries.map Prod.fst

/-- The values, in the order of their keys. -/
def values (t : Keyed κ α) : List α := t.entries.map Prod.snd

/-- The number of entries. -/
def size (t : Keyed κ α) : Nat := t.entries.length

/-- Whether there is no entry. -/
def isEmpty (t : Keyed κ α) : Bool := t.entries.isEmpty

/-- Replaces every value by what `f` makes of it. -/
def mapValues (f : α → β) (t : Keyed κ α) : Keyed κ β :=
  ⟨t.entries.map fun e => (e.1, f e.2), by simpa [Function.comp_def] using t.nodup⟩

/-- Removes every entry whose value fails a test. -/
def filterValues (p : α → Bool) (t : Keyed κ α) : Keyed κ α :=
  ⟨t.entries.filter fun e => p e.2, by
    have h := t.nodup
    rw [List.Nodup, List.pairwise_map] at h ⊢
    exact h.filter _⟩

variable [DecidableEq κ]

instance [DecidableEq α] : DecidableEq (Keyed κ α) := fun s t =>
  decidable_of_iff (s.entries = t.entries)
    ⟨fun h => by cases s; cases t; simp_all, fun h => h ▸ rfl⟩

/-- The table without entries. -/
def empty : Keyed κ α := ⟨[], .nil⟩

instance : EmptyCollection (Keyed κ α) := ⟨empty⟩
instance : Inhabited (Keyed κ α) := ⟨empty⟩

/-- The value of the first entry under a key. -/
def lookup (k : κ) : List (κ × α) → Option α
  | [] => none
  | (k', a) :: rest => if k' = k then some a else lookup k rest

/-- Overwrites the entry under a key, or puts one at the end. -/
def put (k : κ) (a : α) : List (κ × α) → List (κ × α)
  | [] => [(k, a)]
  | (k', b) :: rest => if k' = k then (k, a) :: rest else (k', b) :: put k a rest

theorem mem_keys_put {k x : κ} {a : α} {es : List (κ × α)} :
    x ∈ (put k a es).map Prod.fst ↔ x = k ∨ x ∈ es.map Prod.fst := by
  induction es with
  | nil => simp [put]
  | cons e es ih =>
    obtain ⟨k', b⟩ := e
    simp only [put]
    split
    · rename_i h
      subst h
      simp
    · simp only [List.map_cons, List.mem_cons, ih]
      constructor <;> (rintro (h | h | h) <;> simp [h])

theorem nodup_put {k : κ} {a : α} {es : List (κ × α)} (h : (es.map Prod.fst).Nodup) :
    ((put k a es).map Prod.fst).Nodup := by
  induction es with
  | nil => simp [put]
  | cons e es ih =>
    obtain ⟨k', b⟩ := e
    simp only [List.map_cons, List.nodup_cons] at h
    simp only [put]
    split
    · rename_i hk
      subst hk
      simpa using h
    · rename_i hk
      simp only [List.map_cons, List.nodup_cons, mem_keys_put, not_or]
      exact ⟨⟨hk, h.1⟩, ih h.2⟩

theorem lookup_put (k x : κ) (a : α) (es : List (κ × α)) :
    lookup x (put k a es) = if x = k then some a else lookup x es := by
  induction es with
  | nil => simp [put, lookup, eq_comm]
  | cons e es ih =>
    obtain ⟨k', b⟩ := e
    simp only [put]
    split
    · rename_i hk
      subst hk
      by_cases hx : x = k'
      · simp [lookup, hx]
      · simp [lookup, hx, Ne.symm hx]
    · rename_i hk
      by_cases hx : k' = x
      · subst hx
        simp [lookup, hk]
      · simp [lookup, hx, ih]

/-- A value whose key is new is put at the end. -/
theorem put_of_not_mem {k : κ} {a : α} {es : List (κ × α)} (h : k ∉ es.map Prod.fst) :
    put k a es = es ++ [(k, a)] := by
  induction es with
  | nil => rfl
  | cons e es ih =>
    obtain ⟨k', b⟩ := e
    rw [List.map_cons, List.mem_cons, not_or] at h
    obtain ⟨hne, hrest⟩ := h
    rw [put, if_neg (Ne.symm hne), ih hrest]
    rfl

/-- Putting in a value leaves the keys in their order. A new one comes last. -/
theorem map_fst_put (k : κ) (a : α) (es : List (κ × α)) :
    (put k a es).map Prod.fst =
      if k ∈ es.map Prod.fst then es.map Prod.fst else es.map Prod.fst ++ [k] := by
  induction es with
  | nil => rfl
  | cons e es ih =>
    obtain ⟨k', b⟩ := e
    by_cases hk : k' = k
    · simp [put, hk]
    · rw [put, if_neg hk, List.map_cons, List.map_cons, ih]
      by_cases hmem : k ∈ es.map Prod.fst <;> simp [hmem, Ne.symm hk]

theorem put_eq_self {k : κ} {a : α} {es : List (κ × α)} (h : lookup k es = some a) :
    put k a es = es := by
  induction es with
  | nil => contradiction
  | cons e es ih =>
    obtain ⟨k', b⟩ := e
    by_cases hk : k' = k
    · simp_all [lookup, put]
    · simp_all [lookup, put]

/-- The value under a key. -/
def get? (t : Keyed κ α) (k : κ) : Option α := lookup k t.entries

/-- Puts a value under a key. -/
def insert (t : Keyed κ α) (k : κ) (a : α) : Keyed κ α := ⟨put k a t.entries, nodup_put t.nodup⟩

/-- Removes the entry under a key. -/
def erase (t : Keyed κ α) (k : κ) : Keyed κ α :=
  ⟨t.entries.filter fun e => e.1 ≠ k, by
    have h := t.nodup
    rw [List.Nodup, List.pairwise_map] at h ⊢
    exact h.filter _⟩

/-- Whether there is a value under a key. -/
def contains (t : Keyed κ α) (k : κ) : Bool := (t.get? k).isSome

/-- The table that results from putting in pairs one after the other. -/
def ofList (es : List (κ × α)) : Keyed κ α := es.foldl (fun t e => t.insert e.1 e.2) empty

/-- The value under a key, or `fallback` if there is none. -/
def getD (t : Keyed κ α) (k : κ) (fallback : α) : α := (t.get? k).getD fallback

@[simp] theorem get?_empty (k : κ) : (empty : Keyed κ α).get? k = none := rfl

theorem get?_insert (t : Keyed κ α) (k x : κ) (a : α) :
    (t.insert k a).get? x = if x = k then some a else t.get? x :=
  lookup_put k x a t.entries

theorem keys_insert (t : Keyed κ α) (k : κ) (a : α) :
    (t.insert k a).keys = if k ∈ t.keys then t.keys else t.keys ++ [k] :=
  map_fst_put k a t.entries

@[simp] theorem get?_insert_self (t : Keyed κ α) (k : κ) (a : α) :
    (t.insert k a).get? k = some a := by
  simp [get?_insert]

theorem lookup_filter_ne (k x : κ) (es : List (κ × α)) :
    lookup x (es.filter fun e => e.1 ≠ k) = if x = k then none else lookup x es := by
  induction es with
  | nil => simp [lookup]
  | cons e es ih =>
    obtain ⟨k', b⟩ := e
    by_cases hk : k' = k
    · subst hk
      by_cases hx : x = k'
      · subst hx
        simpa using ih
      · simpa [lookup, hx, Ne.symm hx] using ih
    · by_cases hx : k' = x
      · subst hx
        simp [hk, lookup]
      · simpa [hk, lookup, hx] using ih

theorem get?_erase (t : Keyed κ α) (k x : κ) :
    (t.erase k).get? x = if x = k then none else t.get? x :=
  lookup_filter_ne k x t.entries

@[simp] theorem get?_erase_self (t : Keyed κ α) (k : κ) : (t.erase k).get? k = none := by
  simp [get?_erase]

theorem getD_insert (t : Keyed κ α) (k x : κ) (a fallback : α) :
    (t.insert k a).getD x fallback = if x = k then a else t.getD x fallback := by
  unfold getD
  rw [get?_insert]
  split <;> rfl

theorem getD_erase (t : Keyed κ α) (k x : κ) (fallback : α) :
    (t.erase k).getD x fallback = if x = k then fallback else t.getD x fallback := by
  unfold getD
  rw [get?_erase]
  split <;> rfl

theorem get?_mapValues (f : α → β) (t : Keyed κ α) (k : κ) :
    (t.mapValues f).get? k = (t.get? k).map f := by
  obtain ⟨es, h⟩ := t
  show lookup k (es.map fun e => (e.1, f e.2)) = (lookup k es).map f
  clear h
  induction es with
  | nil => rfl
  | cons e es ih =>
    by_cases hk : e.1 = k
    · simp [lookup, hk]
    · simp [lookup, hk, ih]

/-- Overwriting a value replaces what it adds to the total of all values. -/
theorem total_put (f : α → Nat) (k : κ) (a : α) (es : List (κ × α)) :
    total (fun e => f e.2) (put k a es) + ((lookup k es).map f).getD 0 =
      total (fun e => f e.2) es + f a := by
  induction es with
  | nil => simp [put, lookup, total]
  | cons e es ih =>
    obtain ⟨k', b⟩ := e
    by_cases hk : k' = k
    · simp only [put, lookup, if_pos hk, total, Option.map_some, Option.getD_some]
      omega
    · simp only [put, lookup, if_neg hk, total]
      omega

theorem total_insert (f : α → Nat) (t : Keyed κ α) (k : κ) (a : α) :
    total f (t.insert k a).values + ((t.get? k).map f).getD 0 = total f t.values + f a := by
  have h := total_put f k a t.entries
  rwa [← total_map f Prod.snd, ← total_map f Prod.snd] at h

/-- A key has a value exactly when an entry carries both. -/
theorem get?_eq_some_iff {t : Keyed κ α} {k : κ} {a : α} :
    t.get? k = some a ↔ (k, a) ∈ t.entries := by
  obtain ⟨es, h⟩ := t
  simp only [get?]
  induction es with
  | nil => simp [lookup]
  | cons e es ih =>
    obtain ⟨k', b⟩ := e
    simp only [List.map_cons, List.nodup_cons] at h
    by_cases hk : k' = k
    · subst hk
      simp only [lookup, if_true, List.mem_cons, Prod.mk.injEq, true_and, Option.some.injEq]
      constructor
      · exact fun hb => .inl hb.symm
      · rintro (hb | hm)
        · exact hb.symm
        · exact absurd (List.mem_map_of_mem hm) h.1
    · simp only [lookup, if_neg hk, ih h.2, List.mem_cons, Prod.mk.injEq]
      constructor
      · exact .inr
      · rintro (⟨hk', -⟩ | hm)
        · exact absurd hk'.symm hk
        · exact hm

theorem mem_values_iff {t : Keyed κ α} {a : α} : a ∈ t.values ↔ ∃ k, t.get? k = some a := by
  simp only [values, List.mem_map, Prod.exists, exists_eq_right, get?_eq_some_iff]

theorem get?_eq_none_iff {t : Keyed κ α} {k : κ} : t.get? k = none ↔ k ∉ t.keys := by
  rw [← Option.not_isSome_iff_eq_none, Option.isSome_iff_exists]
  simp only [get?_eq_some_iff, keys, List.mem_map, Prod.exists, exists_and_right, exists_eq_right]

/-- Overwriting a value leaves the keys as they are. -/
theorem keys_insert_of_isSome {t : Keyed κ α} {k : κ} {a : α} (h : (t.get? k).isSome) :
    (t.insert k a).keys = t.keys := by
  rw [keys_insert]
  split
  · rfl
  · rename_i hnew
    rw [get?_eq_none_iff.2 hnew] at h
    contradiction

end Keyed

end TiddlerShelf
