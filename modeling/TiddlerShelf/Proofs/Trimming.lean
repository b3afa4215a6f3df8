import TiddlerShelf.Text.Blank

/-! # Trimming

Trimming takes off the blanks at both ends of a text and nothing else: what it leaves begins and
ends in other characters, or is empty if the text is blank. -/

namespace TiddlerShelf.Text

/-- Whether a text ends in a character that is not blank. -/
def Filled (cs : List Char) : Prop := ∃ init c, cs = init ++ [c] ∧ isBlank c = false

theorem Filled.append {cs : List Char} (h : Filled cs) (before : List Char) :
    Filled (before ++ cs) := by
  obtain ⟨init, c, rfl, hc⟩ := h
  exact ⟨before ++ init, c, (List.append_assoc ..).symm, hc⟩

theorem Filled.cons {cs : List Char} (h : Filled cs) (c : Char) : Filled (c :: cs) :=
  h.append [c]

theorem filled_append_singleton (cs : List Char) {c : Char} (hc : isBlank c = false) :
    Filled (cs ++ [c]) := ⟨cs, c, rfl, hc⟩

theorem trimStart_cons {c : Char} (h : isBlank c = false) (cs : List Char) :
    trimStart (c :: cs) = c :: cs :=
  List.dropWhile_cons_of_neg (by simp [h])

/-- There is nothing to trim between two characters that are not blank. -/
theorem trim_eq_self {c : Char} {cs : List Char} (hc : isBlank c = false) (h : Filled (c :: cs)) :
    trim (c :: cs) = c :: cs := by
  obtain ⟨init, d, heq, hd⟩ := h
  rw [trim, trimStart_cons hc, heq, trimEndWhile, List.reverse_append, List.reverse_singleton,
    List.singleton_append, List.dropWhile_cons, hd]
  simp

theorem trim_blank_append {before : List Char} (h : before.all isBlank = true) (cs : List Char) :
    trim (before ++ cs) = trim cs := by
  rw [trim, trim, trimStart, List.dropWhile_append_of_pos (List.all_eq_true.1 h), trimStart]

theorem trim_blank_cons {c : Char} (cs : List Char) (hc : isBlank c = true) :
    trim (c :: cs) = trim cs :=
  trim_blank_append (List.all_eq_true.2 (List.forall_mem_singleton.2 hc)) cs

theorem trim_of_blank {cs : List Char} (h : cs.all isBlank = true) : trim cs = [] := by
  have htrim := trim_blank_append h []
  rw [List.append_nil] at htrim
  exact htrim

/-- Blanks behind a text that begins with another character are trimmed. -/
theorem trim_append_blank {c : Char} {cs after : List Char} (hc : isBlank c = false)
    (h : Filled (c :: cs)) (hafter : after.all isBlank = true) :
    trim (c :: cs ++ after) = c :: cs := by
  have hend : trimEndWhile isBlank (c :: cs ++ after) = trimEndWhile isBlank (c :: cs) := by
    rw [trimEndWhile, List.reverse_append, List.dropWhile_append_of_pos, trimEndWhile]
    intro d hd
    exact List.all_eq_true.1 hafter d (List.mem_reverse.1 hd)
  have hself := trim_eq_self hc h
  rw [trim, trimStart_cons hc] at hself
  rw [trim, List.cons_append, trimStart_cons hc, ← List.cons_append, hend, hself]

/-- Trimming takes off blanks alone. -/
theorem exists_trim (cs : List Char) : ∃ before after, before.all isBlank = true ∧
    after.all isBlank = true ∧ cs = before ++ trim cs ++ after := by
  let kept := trimStart cs
  refine ⟨cs.takeWhile isBlank, (kept.reverse.takeWhile isBlank).reverse, List.all_takeWhile, ?_,
    ?_⟩
  · rw [List.all_reverse]
    exact List.all_takeWhile
  · have hend : trim cs ++ (kept.reverse.takeWhile isBlank).reverse = kept := by
      rw [trim, trimEndWhile, ← List.reverse_append, List.takeWhile_append_dropWhile,
        List.reverse_reverse]
    rw [List.append_assoc, hend]
    exact List.takeWhile_append_dropWhile.symm

/-- What is left of a text ends in a character that is not blank. -/
theorem filled_trim {cs : List Char} (h : trim cs ≠ []) : Filled (trim cs) := by
  unfold trim trimEndWhile at h ⊢
  cases hkept : (trimStart cs).reverse.dropWhile isBlank with
  | nil => exact absurd (congrArg List.reverse hkept) h
  | cons d ds =>
    rw [List.reverse_cons]
    have hd := List.head_dropWhile_not isBlank (l := (trimStart cs).reverse) (by simp [hkept])
    simp only [hkept, List.head_cons] at hd
    exact filled_append_singleton _ hd

/-- It begins with one, too. -/
theorem isBlank_of_trim_cons {c : Char} {cs rest : List Char} (h : trim cs = c :: rest) :
    isBlank c = false := by
  have hstart : ∃ more, trimStart cs = c :: more := by
    obtain ⟨ending, hending⟩ := List.dropWhile_suffix (l := (trimStart cs).reverse) isBlank
    refine ⟨rest ++ ending.reverse, ?_⟩
    rw [← List.cons_append, ← h, trim, trimEndWhile, ← List.reverse_append, hending,
      List.reverse_reverse]
  obtain ⟨more, hmore⟩ := hstart
  have hc := List.head_dropWhile_not isBlank (l := cs) (by rw [trimStart] at hmore; simp [hmore])
  rw [trimStart] at hmore
  simpa only [hmore, List.head_cons] using hc

/-- A text that is trimmed to nothing is blank. -/
theorem blank_of_trim {cs : List Char} (h : trim cs = []) : cs.all isBlank = true := by
  obtain ⟨before, after, hbefore, hafter, heq⟩ := exists_trim cs
  rw [heq, h, List.append_nil, List.all_append, hbefore, hafter]
  rfl

/-- A text that begins with a character that is no blank is not blank. -/
theorem isEmpty_trim_cons {c : Char} (h : isBlank c = false) (cs : List Char) :
    (trim (c :: cs)).isEmpty = false := by
  rw [List.isEmpty_eq_false_iff]
  intro hnil
  have hblank := List.all_eq_true.1 (blank_of_trim hnil) c List.mem_cons_self
  rw [h] at hblank
  contradiction

end TiddlerShelf.Text
