import Mathlib.Data.List.Nodup
import TiddlerShelf.Hub.Basic
import TiddlerShelf.Proofs.Bagged

/-! # A hub as a list of registrations

What a hub keeps in tables and lists, one for each kind, each name and the predicates, is a single
list of registrations in the order of the calls: to register puts one at the end, and to cancel
drops those that the call covers (`Shows`, `shows_after`). Each table and list of the hub is what
the list holds of the matching sort, so an event calls those that the list tells it to
(`Shows.called_eq`), and the hub counts as many registrations as there are (`Shows.size_eq`). -/

namespace TiddlerShelf

namespace Keyed

variable {κ α : Type} [DecidableEq κ]

/-- The values stand under their keys. -/
theorem values_eq_map_getD (t : Keyed κ α) (fallback : α) :
    t.values = t.keys.map (t.getD · fallback) := by
  rw [keys, List.map_map]
  refine List.map_congr_left fun e he => ?_
  have hget : t.get? e.1 = some e.2 := get?_eq_some_iff.2 he
  rw [Function.comp_apply, getD, hget]
  rfl

/-- Dropping empty lists makes no difference where an absent list counts as empty. -/
theorem getD_filterValues_nonempty (t : Keyed κ (List α)) (k : κ) :
    (t.filterValues fun as => !as.isEmpty).getD k [] = t.getD k [] := by
  cases hget : (t.filterValues fun as => !as.isEmpty).get? k with
  | some as =>
    rw [getD, getD, hget, (get?_of_get?_filterValues hget).1]
  | none =>
    rw [getD, getD, hget]
    cases hold : t.get? k with
    | none => rfl
    | some as =>
      cases as with
      | nil => rfl
      | cons a as =>
        have hkept : (t.filterValues fun as => !as.isEmpty).get? k = some (a :: as) :=
          get?_eq_some_iff.2 (List.mem_filter.2 ⟨get?_eq_some_iff.1 hold, rfl⟩)
        rw [hget] at hkept
        cases hkept

end Keyed

theorem total_add {α : Type} (f g : α → Nat) (as : List α) :
    total (fun a => f a + g a) as = total f as + total g as := by
  induction as with
  | nil => rfl
  | cons a as ih =>
    rw [total, total, total, ih]
    omega

theorem total_indicator {α : Type} [DecidableEq α] (a : α) (as : List α) :
    total (fun a' => if a = a' then 1 else 0) as = as.count a := by
  induction as with
  | nil => rfl
  | cons a' as ih =>
    rw [total, ih, List.count_cons, Nat.add_comm]
    simp only [beq_iff_eq, eq_comm (a := a)]

/-- What is counted under distinct keys, one key after the other, is all that has one of them. -/
theorem total_countP {α κ : Type} [DecidableEq κ] (key : α → Option κ) {ks : List κ}
    (hnodup : ks.Nodup) {as : List α} (hcover : ∀ a ∈ as, ∀ k, key a = some k → k ∈ ks) :
    total (fun k => as.countP (key · = some k)) ks = as.countP fun a => (key a).isSome := by
  induction as with
  | nil => exact List.recOn ks rfl fun k ks ih => (Nat.zero_add _).trans ih
  | cons a as ih =>
    have hrest := ih fun a' ha' => hcover a' (List.mem_cons_of_mem a ha')
    cases hkey : key a with
    | none => simpa [List.countP_cons, hkey] using hrest
    | some k =>
      have hk := hcover a List.mem_cons_self k hkey
      simp only [List.countP_cons, hkey, Option.some.injEq, decide_eq_true_eq, total_add,
        Option.isSome_some, if_true]
      rw [hrest, total_indicator, List.count_eq_one_of_mem hnodup hk]

/-! ## Calls and registrations -/

/-- What a registration is for: the events of a kind, all or those of one name, or the changes of
tiddlers that a predicate accepts. -/
inductive Scope
  | events (kind : EventKind) (name : Option String)
  | accepted (predicate : Predicate)

/-- A listener and what it is registered for. -/
structure Registration (ℓ : Type) where
  scope : Scope
  listener : ℓ

namespace Registration

variable {ℓ : Type}

/-- Whether the registration is for events of a kind, all of them or those of some name. -/
def isOfKind (kind : EventKind) (r : Registration ℓ) : Bool :=
  match r.scope with
  | .events k _ => k = kind
  | .accepted _ => false

/-- The name that events must have for the registration, if it is for those of one name. -/
def name? (r : Registration ℓ) : Option String :=
  match r.scope with
  | .events _ name => name
  | .accepted _ => none

/-- The predicate that the registration is under, with the listener. -/
def underPredicate? (r : Registration ℓ) : Option (Predicate × ℓ) :=
  match r.scope with
  | .events _ _ => none
  | .accepted p => some (p, r.listener)

end Registration

/-- A call by which a client changes what is registered. -/
inductive HubCall (ℓ : Type)
  | bind (kind : EventKind) (name : Option String) (listener : ℓ)
  | bindFilter (predicate : Predicate) (listener : ℓ)
  | unbind (kind : EventKind) (name : Option String) (listener : Option ℓ)
  | unbindFilter (predicate : Predicate)

namespace HubCall

variable {ℓ : Type} [DecidableEq ℓ]

/-- What the hub makes of a call. -/
def onHub (h : Hub ℓ) : HubCall ℓ → Hub ℓ
  | bind kind name listener => h.bind kind name listener
  | bindFilter p listener => h.bindFilter p listener
  | unbind kind name listener => h.unbind kind name listener
  | unbindFilter p => h.unbindFilter p

/-- The registration that a call makes. -/
def makes : HubCall ℓ → List (Registration ℓ)
  | bind kind name listener => [⟨.events kind name, listener⟩]
  | bindFilter p listener => [⟨.accepted p, listener⟩]
  | unbind .. | unbindFilter _ => []

/-- Whether a call cancels a registration. Without a name, those of whatever name are meant, and
those for all names; without a listener, those of all. -/
def cancels : HubCall ℓ → Registration ℓ → Bool
  | unbind kind name listener, ⟨.events k n, l⟩ =>
    k = kind && name.all (n = some ·) && listener.all (l = ·)
  | unbindFilter p, ⟨.accepted q, _⟩ => q.id = p.id
  | _, _ => false

/-- What a call makes of a list of registrations. -/
def onLog (log : List (Registration ℓ)) (call : HubCall ℓ) : List (Registration ℓ) :=
  log.filter (!call.cancels ·) ++ call.makes

end HubCall

/-- The registrations that are left after some calls, in the order in which they were made. -/
def registrations {ℓ : Type} [DecidableEq ℓ] (calls : List (HubCall ℓ)) : List (Registration ℓ) :=
  calls.foldl HubCall.onLog []

/-- The hub after some calls. -/
def Hub.after {ℓ : Type} [DecidableEq ℓ] (calls : List (HubCall ℓ)) : Hub ℓ :=
  calls.foldl HubCall.onHub {}

section Log

variable {ℓ : Type}

/-- The listeners registered for events of a kind: for all names, or for one. -/
def listening (kind : EventKind) (name : Option String) (log : List (Registration ℓ)) : List ℓ :=
  (log.filter fun r => r.isOfKind kind && r.name? = name).map (·.listener)

/-- The predicates with the listeners registered under them. -/
def underPredicates (log : List (Registration ℓ)) : List (Predicate × ℓ) :=
  log.filterMap (·.underPredicate?)

/-- The listeners that an event calls, by the registrations there are: those for its kind, those for
its name, and those whose predicates accept the tiddler of a change. -/
def reached (log : List (Registration ℓ)) (e : Event) : List ℓ :=
  listening e.kind none log ++
  (if e.name.isSome then listening e.kind e.name log else []) ++
  match e.kind, e.change.tiddler? with
  | .tiddler, some t => ((underPredicates log).filter (·.1.accepts t)).map Prod.snd
  | _, _ => []

theorem listening_append (kind : EventKind) (name : Option String)
    (log log' : List (Registration ℓ)) :
    listening kind name (log ++ log') = listening kind name log ++ listening kind name log' := by
  unfold listening
  rw [List.filter_append, List.map_append]

theorem underPredicates_append (log log' : List (Registration ℓ)) :
    underPredicates (log ++ log') = underPredicates log ++ underPredicates log' :=
  List.filterMap_append

/-- What is kept of the registrations is kept of the listeners for a name, where it is a matter of
the listener. -/
theorem listening_filter {kind : EventKind} {name : Option String} {keep : Registration ℓ → Bool}
    (keep' : ℓ → Bool)
    (h : ∀ r : Registration ℓ, r.isOfKind kind → r.name? = name → keep r = keep' r.listener)
    (log : List (Registration ℓ)) :
    listening kind name (log.filter keep) = (listening kind name log).filter keep' := by
  unfold listening
  rw [List.filter_map, List.filter_filter, List.filter_filter]
  refine congrArg _ (List.filter_congr fun r _ => ?_)
  rw [Function.comp_apply]
  cases hr : (r.isOfKind kind && decide (r.name? = name)) with
  | false => rw [Bool.and_false, Bool.false_and]
  | true =>
    rw [Bool.and_eq_true, decide_eq_true_eq] at hr
    rw [h r hr.1 hr.2, Bool.and_true, Bool.true_and]

theorem underPredicates_filter {keep : Registration ℓ → Bool} (keep' : Predicate × ℓ → Bool)
    (h : ∀ p l, keep ⟨.accepted p, l⟩ = keep' (p, l)) (log : List (Registration ℓ)) :
    underPredicates (log.filter keep) = (underPredicates log).filter keep' := by
  unfold underPredicates
  induction log with
  | nil => rfl
  | cons r log ih =>
    obtain ⟨⟨kind, name⟩ | p, l⟩ := r
    · rw [List.filter_cons]
      split <;> simpa [Registration.underPredicate?] using ih
    · rw [List.filter_cons, h]
      cases hk : keep' (p, l) <;> simpa [Registration.underPredicate?, hk] using ih

end Log

namespace Bindings

variable {ℓ : Type}

theorem all_bind (b : Bindings ℓ) (name : Option String) (l : ℓ) :
    (b.bind name l).all = b.all ++ if name = none then [l] else [] := by
  cases name with
  | none => rfl
  | some n => exact (List.append_nil _).symm

theorem getD_bind (b : Bindings ℓ) (name : Option String) (l : ℓ) (x : String) :
    (b.bind name l).named.getD x [] = b.named.getD x [] ++ if name = some x then [l] else [] := by
  cases name with
  | none => exact (List.append_nil _).symm
  | some n =>
    rw [bind, Keyed.getD_insert]
    by_cases hx : x = n
    · simp [hx]
    · simp [hx, Ne.symm hx]

variable [DecidableEq ℓ]

theorem strip_eq_filter (listener : Option ℓ) (ls : List ℓ) :
    strip listener ls = ls.filter fun l => !listener.all (l = ·) := by
  cases listener with
  | none => exact (List.filter_eq_nil_iff.2 (by simp)).symm
  | some listener => simp [strip]

/-- Cancelling strips the lists of the names that are meant. -/
theorem getD_unbind (b : Bindings ℓ) (name : Option String) (listener : Option ℓ) (x : String) :
    (b.unbind name listener).named.getD x [] =
      if name.all (x = ·) then strip listener (b.named.getD x []) else b.named.getD x [] := by
  unfold unbind
  dsimp only
  rw [Keyed.getD_filterValues_nonempty]
  have hnil : strip listener ([] : List ℓ) = [] := by cases listener <;> rfl
  cases name with
  | none =>
    rw [Keyed.getD, Keyed.getD, Keyed.get?_mapValues]
    cases b.named.get? x with
    | none => simp [hnil]
    | some ls => simp
  | some n =>
    dsimp only
    cases hget : b.named.get? n with
    | none =>
      by_cases hx : x = n
      · simp [hx, Keyed.getD, hget, hnil]
      · simp [hx]
    | some ls =>
      dsimp only
      rw [Keyed.getD_insert]
      by_cases hx : x = n
      · simp [hx, Keyed.getD, hget]
      · simp [hx]

theorem all_unbind (b : Bindings ℓ) (name : Option String) (listener : Option ℓ) :
    (b.unbind name listener).all = if name.isNone then strip listener b.all else b.all := by
  cases name with
  | none => rfl
  | some n =>
    unfold unbind
    dsimp only
    split <;> rfl

end Bindings

@[simp] theorem Hub.bindings_modify {ℓ : Type} (h : Hub ℓ) (kind k : EventKind)
    (f : Bindings ℓ → Bindings ℓ) :
    (h.modify kind f).bindings k = if k = kind then f (h.bindings k) else h.bindings k := rfl

/-- Whether a hub is what a list of registrations comes to. -/
structure Shows {ℓ : Type} (h : Hub ℓ) (log : List (Registration ℓ)) : Prop where
  all (kind : EventKind) : (h.bindings kind).all = listening kind none log
  named (kind : EventKind) (name : String) :
    (h.bindings kind).named.getD name [] = listening kind (some name) log
  filters : h.filters = underPredicates log

namespace Shows

variable {ℓ : Type} {h : Hub ℓ} {log : List (Registration ℓ)}

theorem called_eq (hs : Shows h log) (e : Event) : h.called e = reached log e := by
  obtain ⟨kind, name, change⟩ := e
  unfold Hub.called reached Hub.accepting
  rw [hs.all, hs.filters]
  cases name with
  | none => rfl
  | some name =>
    rw [Bindings.forName, hs.named]
    rfl

/-- Every name that somebody is registered for has a list. -/
theorem mem_keys (hs : Shows h log) {kind : EventKind} {name : String} {r : Registration ℓ}
    (hmem : r ∈ log) (hkind : r.isOfKind kind) (hname : r.name? = some name) :
    name ∈ (h.bindings kind).named.keys := by
  by_contra hkey
  have hlist := hs.named kind name
  rw [Keyed.getD, Keyed.get?_eq_none_iff.2 hkey] at hlist
  have hlistening : r.listener ∈ listening kind (some name) log :=
    List.mem_map_of_mem (List.mem_filter.2 ⟨hmem, by simp [hkind, hname]⟩)
  rw [← hlist] at hlistening
  exact List.not_mem_nil hlistening

/-- The registrations for a kind are those for all names and those for each name. -/
theorem size_bindings (hs : Shows h log) (kind : EventKind) :
    (h.bindings kind).size = log.countP (·.isOfKind kind) := by
  have hcover : ∀ r ∈ log.filter (·.isOfKind kind), ∀ name, r.name? = some name →
      name ∈ (h.bindings kind).named.keys :=
    fun r hr _ => hs.mem_keys (List.mem_filter.1 hr).1 (List.mem_filter.1 hr).2
  have hnamed : total List.length (h.bindings kind).named.values =
      (log.filter (·.isOfKind kind)).countP (·.name?.isSome) := by
    rw [← total_countP _ (h.bindings kind).named.nodup hcover, Keyed.values_eq_map_getD _ [],
      total_map]
    refine congrArg (total · _) (funext fun name => ?_)
    rw [hs.named, listening, List.length_map, ← List.countP_eq_length_filter, List.countP_filter]
    exact List.countP_congr fun r _ => by rw [Bool.and_comm]
  have hall : (h.bindings kind).all.length =
      (log.filter (·.isOfKind kind)).countP fun r => !r.name?.isSome := by
    rw [hs.all, listening, List.length_map, ← List.countP_eq_length_filter, List.countP_filter]
    exact List.countP_congr fun r _ => by cases r.name? <;> simp
  have hsplit := List.length_eq_countP_add_countP (l := log.filter (·.isOfKind kind))
    fun r => r.name?.isSome
  simp only [Bool.not_eq_true, Bool.decide_eq_false] at hsplit
  rw [Bindings.size, hnamed, hall, List.countP_eq_length_filter (l := log), hsplit, Nat.add_comm]

/-- The hub counts as many registrations as there are. -/
theorem size_eq (hs : Shows h log) : h.size = log.length := by
  rw [Hub.size, hs.size_bindings, hs.size_bindings, hs.size_bindings, hs.filters]
  clear hs
  induction log with
  | nil => rfl
  | cons r log ih =>
    obtain ⟨⟨kind, name⟩ | p, l⟩ := r
    · have hsame : underPredicates (⟨.events kind name, l⟩ :: log) = underPredicates log := rfl
      simp only [List.countP_cons, hsame, List.length_cons, ← ih]
      cases kind <;> simp [Registration.isOfKind] <;> omega
    · have hone : underPredicates (⟨.accepted p, l⟩ :: log) = (p, l) :: underPredicates log := rfl
      simp only [List.countP_cons, hone, List.length_cons, ← ih]
      simp [Registration.isOfKind]
      omega

theorem bind (hs : Shows h log) (kind : EventKind) (name : Option String) (l : ℓ) :
    Shows (h.bind kind name l) (log ++ [⟨.events kind name, l⟩]) := by
  have hone (k : EventKind) (n : Option String) :
      listening k n [(⟨.events kind name, l⟩ : Registration ℓ)] =
        if k = kind then if name = n then [l] else [] else [] := by
    by_cases hk : k = kind <;> by_cases hn : name = n <;>
      simp [listening, Registration.isOfKind, Registration.name?, hk, hn, eq_comm (a := kind)]
  refine ⟨fun k => ?_, fun k n => ?_, ?_⟩
  · rw [listening_append, ← hs.all, hone, Hub.bind, Hub.bindings_modify]
    split
    · exact Bindings.all_bind _ _ _
    · exact (List.append_nil _).symm
  · rw [listening_append, ← hs.named, hone, Hub.bind, Hub.bindings_modify]
    split
    · exact Bindings.getD_bind _ _ _ _
    · exact (List.append_nil _).symm
  · rw [underPredicates_append, ← hs.filters]
    exact (List.append_nil _).symm

theorem bindFilter (hs : Shows h log) (p : Predicate) (l : ℓ) :
    Shows (h.bindFilter p l) (log ++ [⟨.accepted p, l⟩]) := by
  have hnone (k : EventKind) (n : Option String) :
      listening k n [(⟨.accepted p, l⟩ : Registration ℓ)] = [] := rfl
  refine ⟨fun k => ?_, fun k n => ?_, ?_⟩
  · rw [listening_append, hnone, List.append_nil]
    exact hs.all k
  · rw [listening_append, hnone, List.append_nil]
    exact hs.named k n
  · rw [underPredicates_append, ← hs.filters]
    rfl

variable [DecidableEq ℓ]

theorem unbind (hs : Shows h log) (kind : EventKind) (name : Option String) (l : Option ℓ) :
    Shows (h.unbind kind name l) (log.filter (!(HubCall.unbind kind name l).cancels ·)) := by
  have hleft (k : EventKind) (n : Option String) :
      listening k n (log.filter (!(HubCall.unbind kind name l).cancels ·)) =
        if k = kind then
          if name.all (n = some ·) then Bindings.strip l (listening k n log) else listening k n log
        else listening k n log := by
    rw [Bindings.strip_eq_filter, listening_filter fun l' =>
      !(k = kind && name.all (n = some ·) && l.all (l' = ·))]
    · by_cases hk : k = kind <;> cases hn : name.all (n = some ·) <;> simp [hk]
    · rintro ⟨⟨k', n'⟩ | p, l'⟩ hk hn
      · cases of_decide_eq_true hk
        cases hn
        rfl
      · cases hk
  refine ⟨fun k => ?_, fun k n => ?_, ?_⟩
  · rw [hleft, ← hs.all, Hub.unbind, Hub.bindings_modify]
    split
    · rw [Bindings.all_unbind]
      cases name <;> simp
    · rfl
  · rw [hleft, ← hs.named, Hub.unbind, Hub.bindings_modify]
    split
    · rw [Bindings.getD_unbind]
      simp only [Option.some.injEq]
    · rfl
  · rw [underPredicates_filter (fun _ => true) fun _ _ => rfl, List.filter_true]
    exact hs.filters

theorem unbindFilter (hs : Shows h log) (p : Predicate) :
    Shows (h.unbindFilter p) (log.filter (!(HubCall.unbindFilter p).cancels ·)) := by
  have hleft (k : EventKind) (n : Option String) :
      listening k n (log.filter (!(HubCall.unbindFilter p).cancels ·)) =
        listening k n log := by
    rw [listening_filter fun _ => true, List.filter_true]
    rintro ⟨⟨k', n'⟩ | q, l⟩ hk hn
    · rfl
    · cases hk
  refine ⟨fun k => ?_, fun k n => ?_, ?_⟩
  · rw [hleft]
    exact hs.all k
  · rw [hleft]
    exact hs.named k n
  · rw [underPredicates_filter fun q => q.1.id ≠ p.id, ← hs.filters]
    · rfl
    · simp [HubCall.cancels]

/-- What a call makes of a hub, it makes of the list of registrations. -/
theorem step (hs : Shows h log) (call : HubCall ℓ) :
    Shows (call.onHub h) (HubCall.onLog log call) := by
  have hkept (hnone : ∀ r, call.cancels r = false) : log.filter (!call.cancels ·) = log :=
    List.filter_eq_self.2 fun r _ => by rw [hnone r]; rfl
  unfold HubCall.onLog
  cases call with
  | bind kind name l =>
    rw [hkept fun _ => rfl]
    exact hs.bind kind name l
  | bindFilter p l =>
    rw [hkept fun _ => rfl]
    exact hs.bindFilter p l
  | unbind kind name l =>
    rw [HubCall.makes, List.append_nil]
    exact hs.unbind kind name l
  | unbindFilter p =>
    rw [HubCall.makes, List.append_nil]
    exact hs.unbindFilter p

theorem foldl (hs : Shows h log) (calls : List (HubCall ℓ)) :
    Shows (calls.foldl HubCall.onHub h) (calls.foldl HubCall.onLog log) := by
  induction calls generalizing h log with
  | nil => exact hs
  | cons call calls ih => exact ih (hs.step call)

end Shows

/-- A hub is at any time what the list of registrations comes to. -/
theorem shows_after {ℓ : Type} [DecidableEq ℓ] (calls : List (HubCall ℓ)) :
    Shows (Hub.after calls) (registrations calls) := by
  have hempty : Shows ({} : Hub ℓ) [] := ⟨fun _ => rfl, fun _ _ => rfl, rfl⟩
  exact hempty.foldl calls

end TiddlerShelf
