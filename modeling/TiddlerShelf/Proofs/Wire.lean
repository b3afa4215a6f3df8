import Mathlib.Data.List.TakeWhile
import TiddlerShelf.Cache.File
import TiddlerShelf.Proofs.JsonText
import TiddlerShelf.Proofs.Trimming

/-! # Tiddlers read back

What is written of a tiddler reads back as that tiddler: each slot of the record reads back as what
was written into it, so the tiddlers of a cache file are read as they were written, in their order.
This takes a revision that fits into a word and a stamp whose text reads back. An edit carries no
stamp at all. -/

namespace TiddlerShelf

open TiddlerShelf.Text

theorem mapM_map_of_inverse {α β : Type} {f : α → β} {g : β → Option α} {as : List α}
    (h : ∀ a ∈ as, g (f a) = some a) : (as.map f).mapM g = some as := by
  induction as with
  | nil => rfl
  | cons a as ih =>
    rw [List.map_cons, List.mapM_cons, h a List.mem_cons_self,
      ih fun b hb => h b (List.mem_cons_of_mem _ hb)]
    rfl

namespace Json

@[simp] theorem text?_ofString (s : String) : (ofString s).text? = some s := rfl

@[simp] theorem slot?_some {α : Type} (read? : Json → Option α) (default : α) (v : Json) :
    slot? read? default (some v) = read? v := rfl

@[simp] theorem texts?_ofTexts (items : List String) : texts? (ofTexts items) = some items :=
  mapM_map_of_inverse fun _ _ => rfl

theorem nat?_ofNat {n : Nat} (h : n < wordLimit) : nat? (ofNat n) = some n := by
  have hall : (digits n).all isDigit = true :=
    List.all_eq_true.2 fun c => isDigit_of_mem_digits
  unfold nat? ofNat
  dsimp only
  rw [hall, digitsValue_digits, Bool.true_and, if_pos (decide_eq_true h)]

theorem nullable?_ofOption {α : Type} {write : α → Json} {read? : Json → Option α} {o : Option α}
    (h : ∀ a ∈ o, read? (write a) = some a ∧ write a ≠ .null) :
    nullable? read? (ofOption write o) = some o := by
  cases o with
  | none => rfl
  | some a =>
    obtain ⟨hread, hne⟩ := h a rfl
    show nullable? read? (write a) = some (some a)
    rw [nullable?.eq_2 _ _ hne, hread]
    rfl

theorem plain_ofTexts (items : List String) : (ofTexts items).Plain := by
  refine .array fun v hv => ?_
  obtain ⟨s, -, rfl⟩ := List.mem_map.1 hv
  exact .string s

theorem plain_ofOption {α : Type} {write : α → Json} {o : Option α} (h : ∀ a ∈ o, (write a).Plain) :
    (ofOption write o).Plain := by
  cases o with
  | none => exact .null
  | some a => exact h a rfl

end Json

namespace Fields

/-- A field whose name comes after all others is put at the end. -/
theorem put_of_lt {name value : String} {es : List (String × String)}
    (h : ∀ e ∈ es, e.1 < name) : put name value es = es ++ [(name, value)] := by
  induction es with
  | nil => rfl
  | cons e es ih =>
    obtain ⟨n, v⟩ := e
    have hlt : n < name := h _ List.mem_cons_self
    have hnot : ¬name < n := fun hlt' => String.lt_irrefl n (String.lt_trans hlt hlt')
    rw [put, if_neg hnot, if_pos hlt, ih fun e he => h e (List.mem_cons_of_mem _ he)]
    rfl

/-- Fields that are put in one after the other come to be the same fields. -/
theorem ofList_entries (fs : Fields) : ofList fs.entries = fs := by
  have hfold : ∀ (es : List (String × String)) (gs : Fields),
      (gs.entries ++ es).Pairwise (fun a b => a.1 < b.1) →
      (es.foldl (fun fs e => fs.insert e.1 e.2) gs).entries = gs.entries ++ es := by
    intro es
    induction es with
    | nil => exact fun gs _ => (List.append_nil _).symm
    | cons e es ih =>
      intro gs hsorted
      have hinsert : (gs.insert e.1 e.2).entries = gs.entries ++ [e] :=
        put_of_lt fun d hd => (List.pairwise_append.1 hsorted).2.2 d hd e List.mem_cons_self
      have happend : gs.entries ++ e :: es = (gs.insert e.1 e.2).entries ++ es := by
        rw [hinsert, List.append_assoc]
        rfl
      rw [happend] at hsorted ⊢
      exact ih _ hsorted
  have hentries := hfold fs.entries .empty fs.sorted
  obtain ⟨es, hsorted⟩ := fs
  unfold ofList
  generalize es.foldl _ empty = gs at hentries
  cases gs
  cases hentries
  rfl

theorem ofJson?_toJson (fs : Fields) : ofJson? fs.toJson = some fs := by
  have hmembers : (fs.entries.map fun e => (some e.1, Json.ofString e.2)).mapM
      ofJson?.readMember? = some fs.entries :=
    mapM_map_of_inverse fun _ _ => rfl
  show ((fs.entries.map fun e => (some e.1, Json.ofString e.2)).mapM ofJson?.readMember?).map
    ofList = some fs
  rw [hmembers, Option.map_some, ofList_entries]

theorem plain_toJson (fs : Fields) : fs.toJson.Plain := by
  refine .object (fun m hm => ?_) fun m hm => ?_
  all_goals obtain ⟨e, -, rfl⟩ := List.mem_map.1 hm
  · rfl
  · exact .string e.2

end Fields

namespace Container

theorem ofJson?_toJson (c : Container) : ofJson? c.toJson = some c := by
  have hkind : Kind.ofJson? (.ofString c.kind.word) = some c.kind := by
    cases c.kind <;> rfl
  have hbags : ∃ bags, c.toJson.slots? slotNames =
        some [some (.ofString c.kind.word), some (.ofString c.name), some (.ofString c.host),
          bags] ∧
      Json.slot? Json.texts? [] bags = some c.bags := by
    cases hempty : c.bags.isEmpty with
    | true =>
      refine ⟨none, by simp [toJson, hempty, Json.slots?, slotNames, Json.member?], ?_⟩
      rw [List.isEmpty_iff.1 hempty]
      rfl
    | false =>
      exact ⟨some (.ofTexts c.bags),
        by simp [toJson, hempty, Json.slots?, slotNames, Json.member?], Json.texts?_ofTexts _⟩
  obtain ⟨bags, hslots, hbags⟩ := hbags
  unfold ofJson?
  rw [hslots]
  simp [hkind, hbags]

theorem plain_toJson (c : Container) : c.toJson.Plain := by
  unfold toJson
  cases c.bags.isEmpty <;>
    refine .object ?_ ?_ <;>
    simp [Json.ofString, Json.Plain.string, Json.plain_ofTexts]

end Container

namespace Tiddler

/-- What can be kept of a tiddler: it carries no stamp, and its revision fits into a word. -/
structure Writable (t : Tiddler) : Prop where
  unstamped : t.lastSync = none
  revision : ∀ r ∈ t.revision, r < Json.wordLimit

theorem optional?_ofOption {α : Type} {write : α → Json} {read? : Json → Option α} {o : Option α}
    (h : ∀ a ∈ o, read? (write a) = some a ∧ write a ≠ .null) :
    optional? read? (some (.ofOption write o)) = some o :=
  Json.nullable?_ofOption h

/-- A tiddler that is written reads back as that tiddler, if its stamp does. -/
theorem ofJson?_toJson {t : Tiddler} (hword : ∀ r ∈ t.revision, r < Json.wordLimit)
    (htime : ∀ i ∈ t.lastSync, Instant.parseLoose? i.toText = some i) :
    ofJson? t.toJson = some t := by
  have htext : ∀ o : Option String, optional? Json.text? (some (.ofOption .ofString o)) = some o :=
    fun o => optional?_ofOption fun s _ => ⟨rfl, nofun⟩
  have hcontainer : ∀ o : Option Container,
      optional? Container.ofJson? (some (.ofOption Container.toJson o)) = some o :=
    fun o => optional?_ofOption fun c _ => ⟨c.ofJson?_toJson, nofun⟩
  have hrevision : optional? Json.nat? (some (.ofOption .ofNat t.revision)) = some t.revision :=
    optional?_ofOption fun r hr => ⟨Json.nat?_ofNat (hword r hr), nofun⟩
  have hstamp : optional? (fun v => v.text?.bind Instant.parseLoose?)
      (some (.ofOption (fun i => .ofString i.toText) t.lastSync)) = some t.lastSync := by
    refine optional?_ofOption fun i hi => ⟨?_, nofun⟩
    rw [Json.text?_ofString, Option.bind_some]
    exact htime i hi
  have hslots : t.toJson.slots? slotNames = some [
      some (.ofString t.title), some (.ofString t.text), some (.ofTexts t.tags),
      some t.fields.toJson, some (.ofOption .ofNat t.revision),
      some (.ofOption .ofString t.modifier), some (.ofOption .ofString t.creator),
      some (.ofOption .ofString t.modified), some (.ofOption .ofString t.created),
      some (.ofOption .ofString t.contentType), some (.ofTexts t.permissions),
      some (.ofOption Container.toJson t.bag), some (.ofOption Container.toJson t.recipe),
      some (.ofOption (fun i => .ofString i.toText) t.lastSync)] := rfl
  unfold ofJson?
  rw [hslots]
  -- One slot after the other; simp would look at what is left anew for each of them.
  have hread : ∀ {α : Type} {x : Option α} {a : α} {f : α → Option Tiddler}, x = some a →
      f a = some t → (x >>= f) = some t := by
    intro α x a f hx hf
    rw [hx]
    exact hf
  exact hread rfl <| hread rfl <| hread rfl <| hread rfl <| hread (Json.texts?_ofTexts _) <|
    hread t.fields.ofJson?_toJson <| hread hrevision <| hread (htext _) <| hread (htext _) <|
    hread (htext _) <| hread (htext _) <| hread (htext _) <| hread (Json.texts?_ofTexts _) <|
    hread (hcontainer _) <| hread (hcontainer _) <| hread hstamp rfl

theorem Writable.ofJson?_toJson {t : Tiddler} (h : t.Writable) : ofJson? t.toJson = some t :=
  Tiddler.ofJson?_toJson h.revision fun i hi => by
    rw [h.unstamped] at hi
    exact absurd hi (Option.not_mem_none i)

theorem plain_toJson (t : Tiddler) : t.toJson.Plain := by
  have htext : ∀ o : Option String, (Json.ofOption .ofString o).Plain :=
    fun o => Json.plain_ofOption fun s _ => .string s
  have hcontainer : ∀ o : Option Container, (Json.ofOption Container.toJson o).Plain :=
    fun o => Json.plain_ofOption fun c _ => c.plain_toJson
  have hrevision : (Json.ofOption .ofNat t.revision).Plain :=
    Json.plain_ofOption fun r _ => .number r
  have hstamp : (Json.ofOption (fun i => .ofString i.toText) t.lastSync).Plain :=
    Json.plain_ofOption fun i _ => .string i.toText
  refine .object (by simp) ?_
  simp only [List.forall_mem_cons]
  exact ⟨.string _, .string _, Json.plain_ofTexts _, t.fields.plain_toJson, hrevision, htext _,
    htext _, htext _, htext _, htext _, Json.plain_ofTexts _, hcontainer _, hcontainer _, hstamp,
    fun _ hm => absurd hm List.not_mem_nil⟩

end Tiddler

namespace Keyed

variable {κ α : Type} [DecidableEq κ]

/-- Entries that are put in one after the other come to be the same table. -/
theorem ofList_entries (t : Keyed κ α) : ofList t.entries = t := by
  have hfold : ∀ (es : List (κ × α)) (u : Keyed κ α), ((u.entries ++ es).map Prod.fst).Nodup →
      (es.foldl (fun t e => t.insert e.1 e.2) u).entries = u.entries ++ es := by
    intro es
    induction es with
    | nil => exact fun u _ => (List.append_nil _).symm
    | cons e es ih =>
      intro u hnodup
      have hnew : e.1 ∉ u.entries.map Prod.fst := by
        rw [List.map_append, List.nodup_append] at hnodup
        exact fun hmem => hnodup.2.2 _ hmem _ List.mem_cons_self rfl
      have hinsert : (u.insert e.1 e.2).entries = u.entries ++ [e] := put_of_not_mem hnew
      have happend : u.entries ++ e :: es = (u.insert e.1 e.2).entries ++ es := by
        rw [hinsert, List.append_assoc]
        rfl
      rw [happend] at hnodup ⊢
      exact ih _ hnodup
  have hentries := hfold t.entries .empty t.nodup
  obtain ⟨es, hnodup⟩ := t
  unfold ofList
  generalize es.foldl _ empty = u at hentries
  cases u
  cases hentries
  rfl

end Keyed

namespace CacheFile

theorem isEmpty_trim_textOfEntries (entries : Keyed String Tiddler) :
    (Text.trim (textOfEntries entries).toList).isEmpty = false := by
  unfold textOfEntries Json.pretty
  rw [String.toList_ofList]
  cases entries.entries.map fun e => (some e.1, e.2.toJson) with
  | nil => rfl
  | cons m members => exact Text.isEmpty_trim_cons rfl _

/-- What is written of tiddlers reads back as those tiddlers, under their keys and in their
order. -/
theorem entriesOfText?_textOfEntries {entries : Keyed String Tiddler}
    (h : ∀ e ∈ entries.entries, e.2.Writable) :
    entriesOfText? (textOfEntries entries) = some entries := by
  have hplain : (Json.object (entries.entries.map fun e => (some e.1, e.2.toJson))).Plain := by
    refine .object (fun m hm => ?_) fun m hm => ?_
    all_goals obtain ⟨e, he, rfl⟩ := List.mem_map.1 hm
    · rfl
    · exact e.2.plain_toJson
  have hread : (entries.entries.map fun e => (some e.1, e.2.toJson)).mapM entriesOfText?.entry? =
      some entries.entries := by
    refine mapM_map_of_inverse fun e he => ?_
    show (Tiddler.ofJson? e.2.toJson).bind _ = _
    rw [(h e he).ofJson?_toJson]
    rfl
  have hblank : (Text.trim (textOfEntries entries).toList).isEmpty = false :=
    isEmpty_trim_textOfEntries entries
  unfold entriesOfText?
  rw [hblank]
  unfold textOfEntries
  rw [Json.parse?_pretty hplain]
  show (List.mapM entriesOfText?.entry? _).map Keyed.ofList = _
  rw [hread, Option.map_some, Keyed.ofList_entries]

end CacheFile

end TiddlerShelf
