import TiddlerShelf.Proofs.Mirror

/-! # Files and memory as caches

A cache in a file answers as one in memory does, although every request reads the whole file and
every change writes it anew: both hold one and the same table after each request, as long as the
file can be read and written and has no quota. -/

namespace TiddlerShelf.Cache

/-- What can be asked of a cache. A file may also be opened anew, with no quota. -/
inductive Request
  | set (t : Tiddler)
  | get (t : Tiddler)
  | remove (t : Tiddler)
  | list
  | clear
  | reopen

/-- What a cache answers. -/
inductive Reply
  | done
  | found (t : Option Tiddler)
  | listed (ts : List Tiddler)
deriving DecidableEq

/-- Opens the file behind a cache anew. A cache in memory stays as it is. -/
def reopened : Cache → Cache
  | file f => file { f with quota := Option.none }
  | c => c

/-- Answers a request. -/
def reply (c : Cache) : Request → Reply × Cache
  | .set t => (.done, c.set t)
  | .get t => (.found (c.get? t), c)
  | .remove t => (.done, c.remove t)
  | .list => (.listed c.list, c)
  | .clear => (.done, c.clear)
  | .reopen => (.done, c.reopened)

/-- Answers requests one after the other. -/
def replies (c : Cache) : List Request → List Reply
  | [] => []
  | r :: rs => (c.reply r).1 :: (c.reply r).2.replies rs

/-- Whether a request hands over only what can be written. -/
def Request.Writable : Request → Prop
  | .set t => t.Writable
  | _ => True

variable {c d : Cache} {table : Keyed String Tiddler}

theorem Holds.get? (h : c.Holds table) (t : Tiddler) :
    c.get? t = t.durableKey?.bind table.get? := by
  cases c with
  | none => cases h
  | memory entries =>
    obtain rfl : entries = table := h
    rfl
  | file f =>
    obtain ⟨-, -, hload⟩ := h
    show (f.load?.bind fun entries => t.durableKey?.bind entries.get?) = _
    rw [hload]
    rfl

theorem Holds.clear (h : c.Holds table) : c.clear.Holds .empty := by
  cases c with
  | none => cases h
  | memory entries => rfl
  | file f => exact holds_write h.1 h.2.1 fun _ he => absurd he List.not_mem_nil

theorem Holds.reopened (h : c.Holds table) : c.reopened.Holds table := by
  cases c with
  | none => cases h
  | memory entries => exact h
  | file f => exact ⟨rfl, h.2.1, h.2.2⟩

/-- Whether two caches hold one table, all of which can be written. -/
def Alike (c d : Cache) : Prop :=
  ∃ table, c.Holds table ∧ d.Holds table ∧ ∀ e ∈ table.entries, e.2.Writable

/-- Caches that hold one table answer alike, and hold one table afterwards. -/
theorem Alike.reply (h : c.Alike d) {r : Request} (hr : r.Writable) :
    (c.reply r).1 = (d.reply r).1 ∧ (c.reply r).2.Alike (d.reply r).2 := by
  obtain ⟨table, hc, hd, hwritable⟩ := h
  cases r with
  | set t =>
    refine ⟨rfl, ?_⟩
    show (c.set t).Alike (d.set t)
    cases hkey : t.durableKey? with
    | none =>
      rw [set_of_none hkey, set_of_none hkey]
      exact ⟨table, hc, hd, hwritable⟩
    | some key =>
      have hinserted : ∀ e ∈ (table.insert key t).entries, e.2.Writable := by
        intro e he
        have hget := Keyed.get?_eq_some_iff.2 he
        rw [Keyed.get?_insert] at hget
        split at hget
        · exact Option.some.inj hget ▸ hr
        · exact hwritable e (Keyed.get?_eq_some_iff.1 hget)
      exact ⟨_, hc.set hkey hinserted, hd.set hkey hinserted, hinserted⟩
  | get t =>
    refine ⟨?_, table, hc, hd, hwritable⟩
    exact congrArg Reply.found ((hc.get? t).trans (hd.get? t).symm)
  | remove t =>
    refine ⟨rfl, ?_⟩
    show (c.remove t).Alike (d.remove t)
    cases hkey : t.durableKey? with
    | none =>
      rw [remove_of_none hkey, remove_of_none hkey]
      exact ⟨table, hc, hd, hwritable⟩
    | some key =>
      have herased : ∀ e ∈ (table.erase key).entries, e.2.Writable :=
        fun e he => hwritable e (List.mem_filter.1 he).1
      exact ⟨_, hc.remove hkey hwritable, hd.remove hkey hwritable, herased⟩
  | list =>
    refine ⟨?_, table, hc, hd, hwritable⟩
    exact congrArg Reply.listed (hc.list.trans hd.list.symm)
  | clear => exact ⟨rfl, .empty, hc.clear, hd.clear, fun _ he => absurd he List.not_mem_nil⟩
  | reopen => exact ⟨rfl, table, hc.reopened, hd.reopened, hwritable⟩

theorem Alike.replies (h : c.Alike d) {rs : List Request} (hrs : ∀ r ∈ rs, r.Writable) :
    c.replies rs = d.replies rs := by
  induction rs generalizing c d with
  | nil => rfl
  | cons r rs ih =>
    obtain ⟨heq, hnext⟩ := h.reply (hrs r List.mem_cons_self)
    rw [Cache.replies, Cache.replies, heq, ih hnext fun q hq => hrs q (List.mem_cons_of_mem r hq)]

theorem alike_empty : (Cache.file {}).Alike (.memory .empty) :=
  ⟨.empty, ⟨rfl, rfl, rfl⟩, rfl, fun _ he => absurd he List.not_mem_nil⟩

/-- A cache in a file that is not there yet answers all requests as one in memory does, if all that
it is to keep carries no stamp and has a revision that fits into a word. -/
theorem file_replies_as_memory {rs : List Request} (h : ∀ t, .set t ∈ rs → t.Writable) :
    (Cache.file {}).replies rs = (Cache.memory .empty).replies rs := by
  refine alike_empty.replies fun r hr => ?_
  cases r with
  | set t => exact h t hr
  | _ => trivial

/-- A tiddler whose title and bag have signs that keys escape. -/
def slashed : Tiddler := { title := "a/b", bag := some (.bag "x%") }

/-- A tiddler in a bag of the empty name. -/
def nameless : Tiddler := { title := "\"", bag := some { kind := .bag, name := "", bags := ["y"] } }

/-- Requests that keep two tiddlers, open the file anew and overwrite the first one. -/
def overwriting : List Request :=
  [.set slashed, .set nameless, .reopen, .set { slashed with revision := some 7 },
    .set { title := "no bag" }, .list, .remove nameless, .get slashed, .clear, .list]

/-- The file answers them as memory does: what is overwritten stays where it stands. -/
theorem replies_overwriting :
    (∀ t, .set t ∈ overwriting → t.Writable) ∧
      (Cache.file {}).replies overwriting = (Cache.memory .empty).replies overwriting ∧
      (Cache.memory .empty).replies overwriting =
        [.done, .done, .done, .done, .done, .listed [{ slashed with revision := some 7 }, nameless],
          .done, .found (some { slashed with revision := some 7 }), .done, .listed []] := by
  have hwritable : ∀ t, .set t ∈ overwriting → t.Writable := by
    intro t ht
    simp only [overwriting, List.mem_cons, Request.set.injEq, reduceCtorEq, false_or, or_false,
      List.not_mem_nil] at ht
    rcases ht with rfl | rfl | rfl | rfl
    all_goals exact ⟨rfl, by decide⟩
  exact ⟨hwritable, file_replies_as_memory hwritable, by decide +kernel⟩

end TiddlerShelf.Cache
