import TiddlerShelf.Tiddler.Key

/-! # Keys tell bag and title apart

Escaping a character gives a code that no other code begins with, and it leaves no slash in a name.
The only slash of a key is thus the one in between: a key gives back the bag and the title it was
made from (`Key.ofNames_inj`). -/

namespace TiddlerShelf

namespace Key

/-- Two characters have a code of three, and all others stand for themselves. -/
theorem escapeChar_cases (c : Char) :
    c = '%' ∧ escapeChar c = ['%', '2', '5'] ∨ c = '/' ∧ escapeChar c = ['%', '2', 'F'] ∨
      c ≠ '%' ∧ c ≠ '/' ∧ escapeChar c = [c] := by
  unfold escapeChar
  by_cases hc : c = '%'
  · exact .inl ⟨hc, if_pos hc⟩
  · rw [if_neg hc]
    by_cases hc' : c = '/'
    · exact .inr (.inl ⟨hc', if_pos hc'⟩)
    · exact .inr (.inr ⟨hc, hc', if_neg hc'⟩)

/-- A text that begins with an escaped character begins with no other one. -/
theorem escapeChar_append_inj {c d : Char} {xs ys : List Char}
    (h : escapeChar c ++ xs = escapeChar d ++ ys) : c = d ∧ xs = ys := by
  rcases escapeChar_cases c with ⟨rfl, hc⟩ | ⟨rfl, hc⟩ | ⟨hne, -, hc⟩ <;>
    rcases escapeChar_cases d with ⟨rfl, hd⟩ | ⟨rfl, hd⟩ | ⟨hne', -, hd⟩ <;>
    simp only [hc, hd, List.cons_append, List.nil_append, List.cons.injEq] at h <;>
    grind

theorem slash_not_mem_escapeChar (c : Char) : '/' ∉ escapeChar c := by
  rcases escapeChar_cases c with ⟨-, hc⟩ | ⟨-, hc⟩ | ⟨-, hne, hc⟩
  · rw [hc]
    decide
  · rw [hc]
    decide
  · rw [hc, List.mem_singleton]
    exact hne.symm

theorem slash_not_mem_escape (name : String) : '/' ∉ escape name := by
  intro h
  obtain ⟨c, -, hc⟩ := List.mem_flatMap.1 h
  exact slash_not_mem_escapeChar c hc

theorem flatMap_escapeChar_inj {xs ys : List Char}
    (h : xs.flatMap escapeChar = ys.flatMap escapeChar) : xs = ys := by
  have hne : ∀ c, escapeChar c ≠ [] := by
    intro c
    rcases escapeChar_cases c with ⟨-, hc⟩ | ⟨-, hc⟩ | ⟨-, -, hc⟩ <;>
      (rw [hc]; exact List.cons_ne_nil _ _)
  induction xs generalizing ys with
  | nil =>
    cases ys with
    | nil => rfl
    | cons y ys => exact absurd (List.append_eq_nil_iff.1 h.symm).1 (hne y)
  | cons x xs ih =>
    cases ys with
    | nil => exact absurd (List.append_eq_nil_iff.1 h).1 (hne x)
    | cons y ys =>
      obtain ⟨rfl, hrest⟩ := escapeChar_append_inj h
      rw [ih hrest]

theorem escape_inj {a b : String} (h : escape a = escape b) : a = b :=
  String.toList_injective (flatMap_escapeChar_inj h)

/-- A slash splits a text in one way where nothing before it is a slash. -/
theorem append_slash_inj {xs ys as bs : List Char} (hxs : '/' ∉ xs) (hys : '/' ∉ ys)
    (h : xs ++ '/' :: as = ys ++ '/' :: bs) : xs = ys ∧ as = bs := by
  induction xs generalizing ys with
  | nil =>
    cases ys with
    | nil => exact ⟨rfl, List.tail_eq_of_cons_eq h⟩
    | cons y ys =>
      have hy : '/' = y := List.head_eq_of_cons_eq h
      exact absurd (hy ▸ List.mem_cons_self) hys
  | cons x xs ih =>
    cases ys with
    | nil =>
      have hx : x = '/' := List.head_eq_of_cons_eq h
      exact absurd (hx ▸ List.mem_cons_self) hxs
    | cons y ys =>
      obtain ⟨rfl, hrest⟩ := List.cons_eq_cons.1 h
      obtain ⟨rfl, rfl⟩ :=
        ih (fun hm => hxs (List.mem_cons_of_mem _ hm)) (fun hm => hys (List.mem_cons_of_mem _ hm))
          hrest
      exact ⟨rfl, rfl⟩

theorem ofNames_inj {bag bag' title title' : String} :
    ofNames bag title = ofNames bag' title' ↔ bag = bag' ∧ title = title' := by
  constructor
  · intro h
    have hlist : escape bag ++ '/' :: escape title = escape bag' ++ '/' :: escape title' :=
      String.ofList_injective h
    obtain ⟨hbag, htitle⟩ :=
      append_slash_inj (slash_not_mem_escape bag) (slash_not_mem_escape bag') hlist
    exact ⟨escape_inj hbag, escape_inj htitle⟩
  · rintro ⟨rfl, rfl⟩
    rfl

end Key

namespace Tiddler

/-- Two tiddlers share a key exactly when they share the title and the name of the bag. -/
theorem key_eq_iff {s t : Tiddler} :
    s.key = t.key ↔ s.bagName.getD "" = t.bagName.getD "" ∧ s.title = t.title :=
  Key.ofNames_inj

theorem title_eq_of_key_eq {s t : Tiddler} (h : s.key = t.key) : s.title = t.title :=
  (key_eq_iff.1 h).2

theorem bagName_eq_of_key_eq {s t : Tiddler} (h : s.key = t.key) (hs : s.bag.isSome)
    (ht : t.bag.isSome) : s.bagName = t.bagName := by
  obtain ⟨a, ha⟩ := Option.isSome_iff_exists.1 hs
  obtain ⟨b, hb⟩ := Option.isSome_iff_exists.1 ht
  have hname := (key_eq_iff.1 h).1
  rw [bagName, bagName, ha, hb] at hname ⊢
  exact congrArg some hname

end Tiddler

end TiddlerShelf
