import TiddlerShelf.Proofs.CacheFiles

/-! # Cache files that refuse to be written

A file that cannot be read is not written either, since what it holds would be lost, and a quota
lets no new key in once it is used up. Whatever is refused leaves the file as it is, and what is not
refused leaves the other entries as they are, although the whole file is written anew. This holds
after all requests, whatever was in the file in the beginning (`refused_writes_change_nothing`). -/

namespace TiddlerShelf

theorem exists_of_mem_mapM {α β : Type} {f : α → Option β} {as : List α} {bs : List β}
    (h : as.mapM f = some bs) {b : β} (hb : b ∈ bs) : ∃ a ∈ as, f a = some b := by
  induction as generalizing bs with
  | nil =>
    cases h
    contradiction
  | cons a as ih =>
    rw [List.mapM_cons] at h
    obtain ⟨b', hb', h⟩ := Option.bind_eq_some_iff.1 h
    obtain ⟨bs', hbs', h⟩ := Option.bind_eq_some_iff.1 h
    cases h
    rcases List.mem_cons.1 hb with rfl | hb
    · exact ⟨a, List.mem_cons_self, hb'⟩
    · obtain ⟨c, hc, hfc⟩ := ih hbs' hb
      exact ⟨c, List.mem_cons_of_mem a hc, hfc⟩

namespace Json

theorem lt_of_nat? {v : Json} {n : Nat} (h : v.nat? = some n) : n < wordLimit := by
  unfold nat? at h
  split at h
  · split at h
    · rename_i hword
      obtain rfl := Option.some.inj h
      exact of_decide_eq_true (Bool.and_eq_true_iff.1 hword).2
    · contradiction
  · contradiction

end Json

namespace Tiddler

theorem exists_of_optional? {α : Type} {read? : Json → Option α} {slot : Option Json} {a : α}
    (h : optional? read? slot = some (some a)) : ∃ v, read? v = some a := by
  cases slot with
  | none => cases h
  | some v =>
    change Json.nullable? read? v = _ at h
    unfold Json.nullable? at h
    split at h
    · cases h
    · obtain ⟨b, hb, hba⟩ := Option.map_eq_some_iff.1 h
      cases hba
      exact ⟨v, hb⟩

/-- A tiddler that has been read has a revision that fits into a word. -/
theorem revision_lt_of_ofJson? {v : Json} {t : Tiddler} (h : ofJson? v = some t) :
    ∀ r ∈ t.revision, r < Json.wordLimit := by
  have hpass : ∀ {α : Type} {x : Option α} {f : α → Option Tiddler} {p : Prop},
      (∀ a, x = some a → f a = some t → p) → (x >>= f) = some t → p := by
    intro α x f p hp hbind
    obtain ⟨a, ha, hfa⟩ := Option.bind_eq_some_iff.1 hbind
    exact hp a ha hfa
  unfold ofJson? at h
  obtain ⟨slots, -, h⟩ := Option.bind_eq_some_iff.1 h
  split at h
  · revert h
    -- Four slots come before the revision, the first of which is read in two steps.
    iterate 5 refine hpass fun _ _ => ?_
    refine hpass fun revision hrevision => ?_
    iterate 9 refine hpass fun _ _ => ?_
    rintro ⟨⟩ r rfl
    obtain ⟨_, hv⟩ := exists_of_optional? hrevision
    exact Json.lt_of_nat? hv
  · contradiction

end Tiddler

namespace Keyed

variable {κ α : Type} [DecidableEq κ]

theorem size_insert (t : Keyed κ α) (k : κ) (a : α) :
    (t.insert k a).size = if k ∈ t.keys then t.size else t.size + 1 := by
  have hlength : ∀ u : Keyed κ α, u.size = u.keys.length := fun u => (List.length_map _).symm
  rw [hlength, hlength, keys_insert]
  split
  · rfl
  · exact List.length_append

theorem size_erase_le (t : Keyed κ α) (k : κ) : (t.erase k).size ≤ t.size :=
  List.length_filter_le _ _

end Keyed

/-- A cache after requests, one after the other. -/
def Cache.after (c : Cache) : List Cache.Request → Cache
  | [] => c
  | r :: rs => (c.reply r).2.after rs

namespace CacheFile

theorem revision_lt_of_load? {f : CacheFile} {entries : Keyed String Tiddler}
    (h : f.load? = some entries) :
    ∀ e ∈ entries.entries, ∀ r ∈ e.2.revision, r < Json.wordLimit := by
  unfold load? at h
  split at h
  · unfold entriesOfText? at h
    split at h
    · cases h
      exact fun _ he => absurd he List.not_mem_nil
    · split at h
      · obtain ⟨es, hes, rfl⟩ := Option.map_eq_some_iff.1 h
        intro e he
        obtain ⟨m, -, hm⟩ := exists_of_mem_mapM hes (Keyed.mem_of_mem_ofList he)
        obtain ⟨key, -, hm⟩ := Option.bind_eq_some_iff.1 hm
        obtain ⟨t, ht, hm⟩ := Option.bind_eq_some_iff.1 hm
        cases hm
        exact Tiddler.revision_lt_of_ofJson? ht
      · contradiction
  · cases h
    exact fun _ he => absurd he List.not_mem_nil

/-- Whether the quota keeps a key out: it is new, and there are as many entries as there may be. -/
def Refuses (f : CacheFile) (entries : Keyed String Tiddler) (key : String) : Prop :=
  key ∉ entries.keys ∧ ∃ limit ∈ f.quota, limit ≤ entries.size

section

variable {f g : CacheFile} {entries : Keyed String Tiddler} {t : Tiddler} {key : String}

theorem admits_iff : f.admits entries key = true ↔ ¬f.Refuses entries key := by
  unfold admits Refuses Keyed.contains
  rw [Bool.or_eq_true, Option.isSome_iff_ne_none, ne_eq, Keyed.get?_eq_none_iff,
    Option.all_eq_true_iff_get]
  cases f.quota <;> simp [or_iff_not_imp_left]

theorem set_of_refuses (hkey : t.durableKey? = some key) (hload : f.load? = some entries)
    (h : f.Refuses entries key) : f.set t = f := by
  unfold set
  rw [hkey, hload]
  exact if_neg fun hadmits => admits_iff.1 hadmits h

theorem set_of_not_refuses (hkey : t.durableKey? = some key) (hload : f.load? = some entries)
    (h : ¬f.Refuses entries key) : f.set t = f.write (entries.insert key t) := by
  unfold set
  rw [hkey, hload]
  exact if_pos (admits_iff.2 h)

theorem set_of_unreadable (h : f.load? = none) (t : Tiddler) : f.set t = f := by
  unfold set
  rw [h]
  cases t.durableKey? <;> rfl

theorem remove_of_unreadable (h : f.load? = none) (t : Tiddler) : f.remove t = f := by
  unfold remove
  rw [h]
  cases t.durableKey? <;> rfl

end

/-- Whether a file can be written, has this quota and keeps no more entries than the quota allows or
than there were at the start, all of which can be written again. -/
structure Fits (allowed : Option Nat) (start : Nat) (f : CacheFile) : Prop where
  quota : f.quota = allowed
  blocked : f.blocked = false
  writable : ∀ entries, f.load? = some entries → ∀ e ∈ entries.entries, e.2.Writable
  size : ∀ entries, f.load? = some entries → ∀ limit ∈ allowed, entries.size ≤ max limit start

/-- What requests make of a file if some of them clear it, or none. Only clearing makes a file
readable, and one that is not stays the same file until then. -/
structure LeadsTo (f : CacheFile) (clears : Prop) (g : CacheFile) : Prop where
  readable : g.load?.isSome ↔ f.load?.isSome ∨ clears
  unread : f.load? = none → ¬clears → g = f

section

variable {f g : CacheFile} {allowed : Option Nat} {start : Nat}

theorem LeadsTo.refl (f : CacheFile) : f.LeadsTo False f :=
  ⟨(iff_of_eq (or_false _)).symm, fun _ _ => rfl⟩

theorem LeadsTo.trans {g' : CacheFile} {p q : Prop} (h : f.LeadsTo p g) (h' : g.LeadsTo q g') :
    f.LeadsTo (p ∨ q) g' := by
  refine ⟨h'.readable.trans ((or_congr_left h.readable).trans or_assoc), fun hf hnot => ?_⟩
  obtain ⟨hp, hq⟩ := not_or.1 hnot
  obtain rfl := h.unread hf hp
  exact h'.unread hf hq

/-- What is written fits if it is no more than there may be. -/
theorem Fits.write (h : f.Fits allowed start) {entries : Keyed String Tiddler}
    (hwritable : ∀ e ∈ entries.entries, e.2.Writable)
    (hsize : ∀ limit ∈ allowed, entries.size ≤ max limit start) :
    (f.write entries).Fits allowed start := by
  have hload := load?_write h.blocked hwritable
  refine ⟨(f.quota_write entries).trans h.quota, (f.blocked_write entries).trans h.blocked, ?_, ?_⟩
  · intro entries' h'
    obtain rfl := Option.some.inj (hload.symm.trans h')
    exact hwritable
  · intro entries' h'
    obtain rfl := Option.some.inj (hload.symm.trans h')
    exact hsize

variable {entries : Keyed String Tiddler} {t : Tiddler} {key : String}

/-- What an entry more or another one leaves can be written again, and reads back. -/
theorem Fits.writable_insert (h : f.Fits allowed start) (hload : f.load? = some entries)
    (ht : t.Writable) (key : String) : ∀ e ∈ (entries.insert key t).entries, e.2.Writable := by
  intro e he
  have hget := Keyed.get?_eq_some_iff.2 he
  rw [Keyed.get?_insert] at hget
  split at hget
  · exact Option.some.inj hget ▸ ht
  · exact h.writable entries hload e (Keyed.get?_eq_some_iff.1 hget)

theorem Fits.size_insert (h : f.Fits allowed start) (hload : f.load? = some entries)
    (hnot : ¬f.Refuses entries key) :
    ∀ limit ∈ allowed, (entries.insert key t).size ≤ max limit start := by
  intro limit hlimit
  rw [Keyed.size_insert]
  split
  · exact h.size entries hload limit hlimit
  · rename_i hnew
    have hroom : ¬limit ≤ entries.size := fun hfull => hnot ⟨hnew, limit, h.quota ▸ hlimit, hfull⟩
    omega

theorem Fits.set (h : f.Fits allowed start) (ht : t.Writable) :
    (f.set t).Fits allowed start ∧ f.LeadsTo False (f.set t) := by
  cases hload : f.load? with
  | none =>
    rw [set_of_unreadable hload]
    exact ⟨h, .refl f⟩
  | some entries =>
    cases hkey : t.durableKey? with
    | none =>
      have hset : f.set t = f := Cache.file.inj (Cache.set_of_none hkey (.file f))
      rw [hset]
      exact ⟨h, .refl f⟩
    | some key =>
      by_cases hrefuses : f.Refuses entries key
      · rw [set_of_refuses hkey hload hrefuses]
        exact ⟨h, .refl f⟩
      · have hwritable := h.writable_insert hload ht key
        rw [set_of_not_refuses hkey hload hrefuses]
        refine ⟨h.write hwritable (h.size_insert hload hrefuses), ?_, fun hnone => ?_⟩
        · rw [load?_write h.blocked hwritable, hload]
          simp
        · rw [hnone] at hload
          contradiction

theorem Fits.remove (h : f.Fits allowed start) (t : Tiddler) :
    (f.remove t).Fits allowed start ∧ f.LeadsTo False (f.remove t) := by
  cases hload : f.load? with
  | none =>
    rw [remove_of_unreadable hload]
    exact ⟨h, .refl f⟩
  | some entries =>
    cases hkey : t.durableKey? with
    | none =>
      have hremove : f.remove t = f := Cache.file.inj (Cache.remove_of_none hkey (.file f))
      rw [hremove]
      exact ⟨h, .refl f⟩
    | some key =>
      have hwritable : ∀ e ∈ (entries.erase key).entries, e.2.Writable :=
        fun e he => h.writable entries hload e (List.mem_filter.1 he).1
      have hsize : ∀ limit ∈ allowed, (entries.erase key).size ≤ max limit start :=
        fun limit hlimit => (entries.size_erase_le key).trans (h.size entries hload limit hlimit)
      have hremove : f.remove t = f.write (entries.erase key) := by
        unfold CacheFile.remove
        rw [hkey, hload]
      rw [hremove]
      refine ⟨h.write hwritable hsize, ?_, fun hnone => ?_⟩
      · rw [load?_write h.blocked hwritable, hload]
        simp
      · rw [hnone] at hload
        contradiction

theorem Fits.clear (h : f.Fits allowed start) :
    f.clear.Fits allowed start ∧ f.clear.load? = some .empty := by
  have hwritable : ∀ e ∈ (Keyed.empty : Keyed String Tiddler).entries, e.2.Writable :=
    fun _ he => absurd he List.not_mem_nil
  exact ⟨h.write hwritable fun _ _ => Nat.zero_le _, load?_write h.blocked hwritable⟩

/-- One request. -/
theorem Fits.reply (h : f.Fits allowed start) {r : Cache.Request} (hr : r.Writable)
    (hopen : r ≠ .reopen) : ∃ g, ((Cache.file f).reply r).2 = .file g ∧ g.Fits allowed start ∧
      f.LeadsTo (r = .clear) g := by
  have hnot : ∀ {g : CacheFile}, r ≠ .clear → f.LeadsTo False g → f.LeadsTo (r = .clear) g := by
    intro g hne hleads
    rwa [eq_false hne]
  cases r with
  | set t => exact ⟨f.set t, rfl, (h.set hr).1, hnot nofun (h.set hr).2⟩
  | remove t => exact ⟨f.remove t, rfl, (h.remove t).1, hnot nofun (h.remove t).2⟩
  | get t => exact ⟨f, rfl, h, hnot nofun (.refl f)⟩
  | list => exact ⟨f, rfl, h, hnot nofun (.refl f)⟩
  | clear =>
    refine ⟨f.clear, rfl, h.clear.1, ?_, fun _ hne => absurd rfl hne⟩
    rw [h.clear.2]
    simp
  | reopen => contradiction

/-- All requests, one after the other. -/
theorem Fits.after (h : f.Fits allowed start) {rs : List Cache.Request} (hrs : ∀ r ∈ rs, r.Writable)
    (hopen : .reopen ∉ rs) : ∃ g, (Cache.file f).after rs = .file g ∧ g.Fits allowed start ∧
      f.LeadsTo (.clear ∈ rs) g := by
  induction rs generalizing f with
  | nil => exact ⟨f, rfl, h, by simpa using LeadsTo.refl f⟩
  | cons r rs ih =>
    rw [List.mem_cons, not_or] at hopen
    obtain ⟨f', hreply, hfits, hleads⟩ := h.reply (hrs r List.mem_cons_self) (Ne.symm hopen.1)
    obtain ⟨g, hafter, hfits', hleads'⟩ :=
      ih hfits (fun q hq => hrs q (List.mem_cons_of_mem r hq)) hopen.2
    refine ⟨g, ?_, hfits', ?_⟩
    · rw [Cache.after, hreply, hafter]
    · simpa only [List.mem_cons, @eq_comm _ Cache.Request.clear] using hleads.trans hleads'

/-- What is not refused is kept under its key, at its old place or at the end, and the other entries
are read as before. -/
theorem Fits.load?_set (h : f.Fits allowed start) (hkey : t.durableKey? = some key)
    (hload : f.load? = some entries) (hnot : ¬f.Refuses entries key) (ht : t.Writable) :
    ∃ entries', (f.set t).load? = some entries' ∧
      entries'.keys = (if key ∈ entries.keys then entries.keys else entries.keys ++ [key]) ∧
      (∀ k, k ≠ key → entries'.get? k = entries.get? k) ∧ (f.set t).get? t = some t := by
  have hread : (f.set t).load? = some (entries.insert key t) := by
    rw [set_of_not_refuses hkey hload hnot]
    exact load?_write h.blocked (h.writable_insert hload ht key)
  refine ⟨_, hread, entries.keys_insert key t, fun k hk => ?_, ?_⟩
  · rw [Keyed.get?_insert, if_neg hk]
  · unfold get?
    rw [hread, hkey]
    exact entries.get?_insert_self key t

end

/-- After any requests to a file that was there or not, whatever text and quota it had, the file is
readable if it was so or has been cleared. If it is not, its text is the one of the beginning, no
request but to clear it changes it, and nothing is found in it. If it is, there are no more entries
than the quota allows or than there were in the beginning. A new key at the quota leaves the file
alone; any other tiddler that can be written is found again, with all other entries as they were. -/
theorem refused_writes_change_nothing {text : Option String} {quota : Option Nat}
    {rs : List Cache.Request}
    (hstart : ∀ entries, load? { text, quota } = some entries →
      ∀ e ∈ entries.entries, e.2.lastSync = none)
    (hset : ∀ t, .set t ∈ rs → t.Writable) (hopen : .reopen ∉ rs) :
    let f : CacheFile := { text, quota }
    ∃ g, (Cache.file f).after rs = .file g ∧ g.quota = quota ∧
      (g.load?.isSome ↔ f.load?.isSome ∨ .clear ∈ rs) ∧
      (g.load? = none → g.text = text ∧ g.list = [] ∧ g.clear.load? = some .empty ∧
        ∀ t, g.set t = g ∧ g.remove t = g ∧ g.get? t = none) ∧
      ∀ entries, g.load? = some entries →
        (∀ limit ∈ quota, entries.size ≤ max limit ((f.load?.map Keyed.size).getD 0)) ∧
        ∀ t key, t.durableKey? = some key →
          (g.Refuses entries key → g.set t = g) ∧
          (¬g.Refuses entries key → t.Writable → ∃ entries', (g.set t).load? = some entries' ∧
            entries'.keys = (if key ∈ entries.keys then entries.keys else entries.keys ++ [key]) ∧
            (∀ k, k ≠ key → entries'.get? k = entries.get? k) ∧ (g.set t).get? t = some t) := by
  intro f
  have hf : f.Fits quota ((f.load?.map Keyed.size).getD 0) := by
    refine ⟨rfl, rfl, fun entries hload e he => ?_, fun entries hload limit _ => ?_⟩
    · exact ⟨hstart entries hload e he, revision_lt_of_load? hload e he⟩
    · rw [hload]
      exact Nat.le_max_right _ _
  have hrs : ∀ r ∈ rs, r.Writable := by
    intro r hr
    cases r with
    | set t => exact hset t hr
    | _ => trivial
  obtain ⟨g, hafter, hg, hleads⟩ := hf.after hrs hopen
  refine ⟨g, hafter, hg.quota, hleads.readable, fun hnone => ?_, fun entries hload => ?_⟩
  · have hsame : g = f := by
      have hnot := mt hleads.readable.2 (by simp [hnone])
      exact hleads.unread (by simpa using (not_or.1 hnot).1) (not_or.1 hnot).2
    refine ⟨congrArg CacheFile.text hsame, ?_, hg.clear.2, fun t => ?_⟩
    · rw [list, hnone]
      rfl
    · refine ⟨set_of_unreadable hnone t, remove_of_unreadable hnone t, ?_⟩
      rw [get?, hnone]
      rfl
  · exact ⟨hg.size entries hload, fun t key hkey =>
      ⟨set_of_refuses hkey hload, hg.load?_set hkey hload⟩⟩

/-- A file with a text that cannot be read and a quota of one keeps nothing until it is cleared, and
then one tiddler, but no second one. -/
theorem second_tiddler_refused :
    let f : CacheFile := { text := some "\x7bnot json", quota := some 1 }
    let rs : List Cache.Request := [.set Cache.slashed, .clear, .set Cache.slashed]
    f.load? = none ∧ .reopen ∉ rs ∧ (∀ t, .set t ∈ rs → t.Writable) ∧
      ∃ g, (Cache.file f).after rs = .file g ∧ g.get? Cache.slashed = some Cache.slashed ∧
        g.set Cache.nameless = g := by
  intro f rs
  have hnone : f.load? = none := by decide +kernel
  have hstart : ∀ entries, f.load? = some entries → ∀ e ∈ entries.entries, e.2.lastSync = none := by
    intro entries h
    rw [hnone] at h
    contradiction
  have hwritable : Cache.slashed.Writable := ⟨rfl, by decide⟩
  have hset : ∀ t, .set t ∈ rs → t.Writable := by
    intro t ht
    simp only [rs, List.mem_cons, Cache.Request.set.injEq, reduceCtorEq, false_or, or_false,
      List.not_mem_nil, or_self] at ht
    exact ht ▸ hwritable
  have hopen : .reopen ∉ rs := by simp [rs]
  obtain ⟨key, hkey⟩ : ∃ key, Cache.slashed.durableKey? = some key := ⟨_, rfl⟩
  obtain ⟨key', hkey'⟩ : ∃ key, Cache.nameless.durableKey? = some key := ⟨_, rfl⟩
  have hne : key' ≠ key := by
    rintro rfl
    have hkeys : Cache.nameless.durableKey? ≠ Cache.slashed.durableKey? := by decide +kernel
    exact hkeys (hkey'.trans hkey.symm)
  -- Up to the clearing, and then to the end.
  have hset' : ∀ t, .set t ∈ rs.take 2 → t.Writable := fun t ht => hset t (List.mem_of_mem_take ht)
  obtain ⟨g, hg, -, -, -, hfirst⟩ := refused_writes_change_nothing hstart hset'
    fun h => hopen (List.mem_of_mem_take h)
  obtain rfl : (f.set Cache.slashed).clear = g := Cache.file.inj hg
  obtain ⟨g, hg', hquota, -, -, hsecond⟩ := refused_writes_change_nothing hstart hset hopen
  obtain rfl : ((f.set Cache.slashed).clear).set Cache.slashed = g := Cache.file.inj hg'
  have hcleared : (f.set Cache.slashed).clear.load? = some .empty := by
    rw [set_of_unreadable hnone]
    exact load?_write rfl fun _ he => absurd he List.not_mem_nil
  have hroom : ¬(f.set Cache.slashed).clear.Refuses .empty key := by
    rw [set_of_unreadable hnone]
    rintro ⟨-, limit, hlimit, hfull⟩
    cases hlimit
    contradiction
  obtain ⟨entries, hload, hkeys, -, hfound⟩ := ((hfirst _ hcleared).2 _ _ hkey).2 hroom hwritable
  refine ⟨hnone, hopen, hset, _, hg', hfound, ((hsecond _ hload).2 _ _ hkey').1 ⟨?_, 1, hquota, ?_⟩⟩
  · rw [hkeys]
    simpa [Keyed.keys, Keyed.empty] using hne
  · have hsize : entries.keys.length = 1 := by rw [hkeys]; rfl
    exact (hsize.symm.trans (List.length_map _)).le

end CacheFile

end TiddlerShelf
