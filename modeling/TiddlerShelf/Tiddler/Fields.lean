/-!
# Free-form fields

The fields of a tiddler beyond the built-in ones: values under distinct names, kept in the order of
the names by code points.
-/

namespace TiddlerShelf

/-- Values under distinct names, in increasing order of the names. -/
structure Fields where
  entries : List (String × String)
  sorted : entries.Pairwise fun a b => a.1 < b.1

namespace Fields

instance : DecidableEq Fields := fun s t =>
  decidable_of_iff (s.entries = t.entries)
    ⟨fun h => by cases s; cases t; simp_all, fun h => h ▸ rfl⟩

/-- No fields. -/
def empty : Fields := ⟨[], .nil⟩

instance : EmptyCollection Fields := ⟨empty⟩
instance : Inhabited Fields := ⟨empty⟩

/-- Puts a field where its name belongs, overwriting one of the same name. -/
def put (name value : String) : List (String × String) → List (String × String)
  | [] => [(name, value)]
  | (n, v) :: rest =>
    if name < n then (name, value) :: (n, v) :: rest
    else if n < name then (n, v) :: put name value rest
    else (name, value) :: rest

theorem fst_of_mem_put {name value : String} {es : List (String × String)} {e : String × String}
    (h : e ∈ put name value es) : e.1 = name ∨ e ∈ es := by
  induction es with
  | nil => simp_all [put]
  | cons f es ih =>
    obtain ⟨n, v⟩ := f
    simp only [put] at h
    split at h
    · simp only [List.mem_cons] at h ⊢
      rcases h with rfl | h
      · exact .inl rfl
      · exact .inr h
    · split at h
      · simp only [List.mem_cons] at h ⊢
        rcases h with rfl | h
        · exact .inr (.inl rfl)
        · exact (ih h).imp_right .inr
      · simp only [List.mem_cons] at h ⊢
        rcases h with rfl | h
        · exact .inl rfl
        · exact .inr (.inr h)

theorem sorted_put {name value : String} {es : List (String × String)}
    (h : es.Pairwise fun a b => a.1 < b.1) : (put name value es).Pairwise fun a b => a.1 < b.1 := by
  induction es with
  | nil => simp [put]
  | cons f es ih =>
    obtain ⟨n, v⟩ := f
    have ⟨hhead, htail⟩ := List.pairwise_cons.1 h
    simp only [put]
    split
    · rename_i hlt
      refine List.pairwise_cons.2 ⟨fun e he => ?_, h⟩
      rcases List.mem_cons.1 he with rfl | he
      · exact hlt
      · exact String.lt_trans hlt (hhead e he)
    · split
      · rename_i hlt
        refine List.pairwise_cons.2 ⟨fun e he => ?_, ih htail⟩
        rcases fst_of_mem_put he with heq | he
        · exact heq ▸ hlt
        · exact hhead e he
      · rename_i hle hge
        have heq : name = n := String.le_antisymm (String.not_lt.1 hge) (String.not_lt.1 hle)
        subst heq
        exact List.pairwise_cons.2 ⟨hhead, htail⟩

/-- Puts a value under a name. -/
def insert (fs : Fields) (name value : String) : Fields :=
  ⟨put name value fs.entries, sorted_put fs.sorted⟩

/-- The value under a name. -/
def get? (fs : Fields) (name : String) : Option String :=
  (fs.entries.find? fun e => e.1 == name).map Prod.snd

/-- The fields that result from putting in pairs one after the other. -/
def ofList (es : List (String × String)) : Fields := es.foldl (fun fs e => fs.insert e.1 e.2) empty

end Fields

end TiddlerShelf
