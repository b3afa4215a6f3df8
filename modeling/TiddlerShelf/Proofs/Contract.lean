import TiddlerShelf.Store.Location

/-! # Contracts of programs

A program works in stretches: from its call, or from the end of a wait, to the next wait or to its
end. A contract says of each stretch what may set it going, from which store to which it leads, and
what it asks of the server in the end. While a program waits, anything may happen to the store, so
that the next stretch may begin in any. -/

namespace TiddlerShelf.Program

/-- What sets a stretch of work going: the call, the answer to a request that was made in an earlier
state of the store, or what has become of finding out the defaults. -/
inductive Cause
  | called
  | answered (since : Store) (r : Request) (answer : Except RemoteError r.Reply)
  | resolved (result : Except StoreError Defaults)

/-- Whether the defaults are known in a stretch that has come to a store: the store has them, or the
stretch has begun with them. -/
def Cause.Knows (k : Cause) (s : Store) (d : Defaults) : Prop :=
  s.resolver = .resolved d ∨ k = .resolved (.ok d)

/-- How a stretch of work ends: the call is over, it has asked the server, or it waits for the
defaults. -/
inductive Halt
  | over
  | asks (r : Request)
  | waits

/-- What a stretch of work may do: its cause, the store it begins in and the one it leads to, and
how it ends. -/
abbrev Contract := Cause → Store → Store → Halt → Prop

variable {α β : Type} {C : Contract}

/-- Whether all stretches of a program keep to a contract. The present one has the cause `k`, has
begun in the store `s₀` and has come to `s`. At its end the program must fulfil `Q`. -/
def Meets (C : Contract) (Q : Cause → Store → Store → α → Prop) :
    Program α → Cause → Store → Store → Prop
  | done a, k, s₀, s => Q k s₀ s a
  | look next, k, s₀, s => Meets C Q (next s) k s₀ s
  | write s next, k, s₀, _ => Meets C Q next k s₀ s
  | ask r next, k, s₀, s =>
    C k s₀ s (.asks r) ∧ ∀ answer s', Meets C Q (next answer) (.answered s r answer) s' s'
  | resolve next, k, s₀, s =>
    match s.resolver with
    | .resolved d => Meets C Q (next (.ok d)) k s₀ s
    | _ => C k s₀ s .waits ∧ ∀ result s', Meets C Q (next result) (.resolved result) s' s'

/-- Whether a program keeps to a contract up to its end. -/
def Keeps (C : Contract) (p : Program α) : Cause → Store → Store → Prop :=
  Meets C (fun k s₀ s _ => C k s₀ s .over) p

/-- A program that goes on with another keeps to a contract if at the end of the first part the
second one does. -/
theorem meets_bind {Q : Cause → Store → Store → β → Prop} {p : Program α} {f : α → Program β}
    {k : Cause} {s₀ s : Store} :
    Meets C Q (p >>= f) k s₀ s ↔ Meets C (fun k s₀ s a => Meets C Q (f a) k s₀ s) p k s₀ s := by
  show Meets C Q (p.bind f) k s₀ s ↔ _
  induction p generalizing k s₀ s with
  | done a => exact Iff.rfl
  | look next ih => exact ih s
  | write s next ih => exact ih
  | ask r next ih => exact and_congr_right fun _ => forall₂_congr fun answer _ => ih answer
  | resolve next ih =>
    simp only [bind, Meets]
    split
    · exact ih _
    · exact and_congr_right fun _ => forall₂_congr fun result _ => ih result

/-- Doing something with the result makes no difference to a contract. -/
theorem keeps_map {f : α → β} {p : Program α} {k : Cause} {s₀ s : Store} :
    Keeps C (f <$> p) k s₀ s ↔ Keeps C p k s₀ s :=
  meets_bind

/-- A contract and what is required at the end of a program may be weakened. -/
theorem Meets.imp {D : Contract} {Q R : Cause → Store → Store → α → Prop} {p : Program α}
    {k : Cause} {s₀ s : Store} (h : Meets C Q p k s₀ s)
    (hCD : ∀ k s₀ s halt, C k s₀ s halt → D k s₀ s halt)
    (hQR : ∀ k s₀ s a, Q k s₀ s a → R k s₀ s a) : Meets D R p k s₀ s := by
  induction p generalizing k s₀ s with
  | done a => exact hQR _ _ _ _ h
  | look next ih => exact ih s h
  | write s next ih => exact ih h
  | ask r next ih =>
    refine ⟨hCD _ _ _ _ h.1, ?_⟩
    intro answer s'
    exact ih answer (h.2 answer s')
  | resolve next ih =>
    simp only [Meets] at h ⊢
    split
    · rename_i d hd
      rw [hd] at h
      exact ih _ h
    · rename_i hne
      split at h
      · rename_i d hd
        exact absurd hd (hne d)
      · refine ⟨hCD _ _ _ _ h.1, ?_⟩
        intro result s'
        exact ih result (h.2 result s')

theorem Meets.mono {Q R : Cause → Store → Store → α → Prop} {p : Program α} {k : Cause}
    {s₀ s : Store} (h : Meets C Q p k s₀ s) (hQR : ∀ k s₀ s a, Q k s₀ s a → R k s₀ s a) :
    Meets C R p k s₀ s :=
  h.imp (fun _ _ _ _ hC => hC) hQR

/-- A program that keeps to a contract keeps to every weaker one. -/
theorem Keeps.imp {D : Contract} {p : Program α} {k : Cause} {s₀ s : Store} (h : p.Keeps C k s₀ s)
    (hCD : ∀ k s₀ s halt, C k s₀ s halt → D k s₀ s halt) : p.Keeps D k s₀ s :=
  Meets.imp h hCD fun k s₀ s _ => hCD k s₀ s .over

/-- Every program keeps to a contract that allows everything. -/
theorem keeps_of_forall (h : ∀ k s₀ s halt, C k s₀ s halt) (p : Program α) (k : Cause)
    (s₀ s : Store) : p.Keeps C k s₀ s := by
  induction p generalizing k s₀ s with
  | done a => exact h k s₀ s .over
  | look next ih => exact ih s k s₀ s
  | write s' next ih => exact ih k s₀ s'
  | ask r next ih => exact ⟨h k s₀ s (.asks r), fun answer s' => ih answer _ s' s'⟩
  | resolve next ih =>
    unfold Keeps Meets
    split
    · exact ih _ k s₀ s
    · exact ⟨h k s₀ s .waits, fun result s' => ih result _ s' s'⟩

/-- A program that needs the defaults goes on with them where the store has them. -/
theorem keeps_resolve_of_known {next : Except StoreError Defaults → Program α} {k : Cause}
    {s₀ s : Store} {d : Defaults} (hd : s.resolver = .resolved d) :
    Keeps C (resolve next) k s₀ s ↔ Keeps C (next (.ok d)) k s₀ s := by
  simp only [Keeps, Meets, hd]

/-- It waits for them where the store does not have them. -/
theorem keeps_resolve_of_unknown {next : Except StoreError Defaults → Program α} {k : Cause}
    {s₀ s : Store} (hne : ∀ d, s.resolver ≠ .resolved d) :
    Keeps C (resolve next) k s₀ s ↔
      C k s₀ s .waits ∧ ∀ result s', Keeps C (next result) (.resolved result) s' s' := by
  simp only [Keeps, Meets]

/-- Running a program for each item keeps up what running it for one item does. -/
theorem meets_each {I : Cause → Store → Store → Prop} {f : α → Program β} {as : List α}
    (hf : ∀ a ∈ as, ∀ k s₀ s, I k s₀ s → Meets C (fun k s₀ s _ => I k s₀ s) (f a) k s₀ s)
    {k : Cause} {s₀ s : Store} (h : I k s₀ s) :
    Meets C (fun k s₀ s _ => I k s₀ s) (each f as) k s₀ s := by
  induction as generalizing k s₀ s with
  | nil => exact h
  | cons a as ih =>
    have hrest := fun a' (ha' : a' ∈ as) => hf a' (List.mem_cons_of_mem a ha')
    unfold each
    rw [meets_bind]
    refine (hf a List.mem_cons_self k s₀ s h).mono fun k s₀ s b hb => ?_
    rw [meets_bind]
    exact (ih hrest hb).mono fun _ _ _ _ hI => hI

section Steps

variable {Q : Cause → Store → Store → α → Prop} {k : Cause} {s₀ s : Store}

theorem meets_store {f : Store → Program α} :
    Meets C Q (store >>= f) k s₀ s ↔ Meets C Q (f s) k s₀ s := Iff.rfl

theorem meets_act {g : Store → β × Store} {f : β → Program α} :
    Meets C Q (act g >>= f) k s₀ s ↔ Meets C Q (f (g s).1) k s₀ (g s).2 := Iff.rfl

theorem meets_request {r : Request} {f : Except RemoteError r.Reply → Program α} :
    Meets C Q (request r >>= f) k s₀ s ↔
      C k s₀ s (.asks r) ∧ ∀ answer s', Meets C Q (f answer) (.answered s r answer) s' s' := Iff.rfl

end Steps

/-- Finding the place: either the defaults are known, and the store moves at once, or the stretch
ends, and another one begins when it is known what has become of them. -/
theorem meets_getDefaults {Q : Cause → Store → Store → α → Prop} {k : Cause} {s₀ s : Store}
    {f : Except StoreError Defaults → Program α}
    (hknown : ∀ d, s.resolver = .resolved d → Meets C Q (f (.ok d)) k s₀ (s.moveTo d.pullFrom))
    (hwait : (∀ d, s.resolver ≠ .resolved d) → C k s₀ s .waits)
    (hfound : ∀ d s', Meets C Q (f (.ok d)) (.resolved (.ok d)) s' (s'.moveTo d.pullFrom))
    (hfailed : ∀ e s', Meets C Q (f (.error e)) (.resolved (.error e)) s' s') :
    Meets C Q (Store.getDefaults >>= f) k s₀ s := by
  rw [meets_bind]
  unfold Store.getDefaults
  show Meets C _ (resolve _) k s₀ s
  unfold Meets
  split
  · rename_i d hd
    exact hknown d hd
  · rename_i hne
    refine ⟨hwait hne, ?_⟩
    intro result s'
    cases result with
    | ok d => exact hfound d s'
    | error e => exact hfailed e s'

/-! ## Contracts that every step keeps to -/

/-- The contract of stretches that keep up an invariant all along and make requests of some kinds
only. -/
def within (I : Cause → Store → Store → Prop) (R : Request → Prop) : Contract :=
  fun k s₀ s halt => I k s₀ s ∧ ∀ r, halt = .asks r → R r

/-- Whether a program keeps up the invariant of such a contract from wherever it holds. -/
def Within (I : Cause → Store → Store → Prop) (R : Request → Prop) (p : Program α) : Prop :=
  ∀ k s₀ s, I k s₀ s → Meets (within I R) (fun k s₀ s _ => I k s₀ s) p k s₀ s

section Within

variable {I : Cause → Store → Store → Prop} {R : Request → Prop}

theorem within_over {k : Cause} {s₀ s : Store} (h : I k s₀ s) : within I R k s₀ s .over :=
  ⟨h, fun _ hr => Halt.noConfusion hr⟩

theorem within_waits {k : Cause} {s₀ s : Store} (h : I k s₀ s) : within I R k s₀ s .waits :=
  ⟨h, fun _ hr => Halt.noConfusion hr⟩

theorem within_asks {k : Cause} {s₀ s : Store} (h : I k s₀ s) {r : Request} (hr : R r) :
    within I R k s₀ s (.asks r) :=
  ⟨h, fun _ hr' => Halt.asks.inj hr' ▸ hr⟩

theorem Within.keeps {p : Program α} (h : Within I R p) {k : Cause} {s₀ s : Store}
    (hI : I k s₀ s) : Keeps (within I R) p k s₀ s :=
  (h k s₀ s hI).mono fun _ _ _ _ => within_over

theorem Within.pure (a : α) : Within I R (pure a) := fun _ _ _ h => h

theorem Within.bind {p : Program α} {f : α → Program β} (hp : Within I R p)
    (hf : ∀ a, Within I R (f a)) : Within I R (p >>= f) := by
  intro k s₀ s h
  rw [meets_bind]
  exact (hp k s₀ s h).mono fun k s₀ s a h => hf a k s₀ s h

theorem Within.map {f : α → β} {p : Program α} (hp : Within I R p) : Within I R (f <$> p) :=
  hp.bind fun _ => .pure _

theorem Within.store : Within I R store := fun _ _ _ h => h

theorem Within.act {g : Store → α × Store} (hg : ∀ k s₀ s, I k s₀ s → I k s₀ (g s).2) :
    Within I R (act g) :=
  hg

theorem Within.change {g : Store → Store} (hg : ∀ k s₀ s, I k s₀ s → I k s₀ (g s)) :
    Within I R (change g) :=
  hg

theorem Within.request {r : Request} (hr : R r)
    (hI : ∀ since answer s, I (.answered since r answer) s s) : Within I R (request r) :=
  fun _ _ s h => ⟨within_asks h hr, fun answer s' => hI s answer s'⟩

theorem Within.getDefaults
    (hmove : ∀ {k s₀ s d}, I k s₀ s → k.Knows s d → I k s₀ (s.moveTo d.pullFrom))
    (hfound : ∀ d s, I (.resolved (.ok d)) s (s.moveTo d.pullFrom))
    (hfailed : ∀ e s, I (.resolved (.error e)) s s) : Within I R Store.getDefaults := by
  intro k s₀ s h
  unfold Store.getDefaults
  show Meets _ _ (resolve _) k s₀ s
  unfold Meets
  split
  · rename_i d hd
    exact hmove h (.inl hd)
  · refine ⟨within_waits h, ?_⟩
    intro result s'
    cases result with
    | ok d => exact hfound d s'
    | error e => exact hfailed e s'

theorem Within.each {f : α → Program β} (hf : ∀ a, Within I R (f a)) (as : List α) :
    Within I R (each f as) :=
  fun _ _ _ => meets_each fun a _ => hf a

end Within

/-! ## Going on to the next wait -/

/-- Where a stretch of work ends, and how the program goes on from there. -/
inductive Pause (α : Type)
  | ended (a : α)
  | asking (r : Request) (next : Except RemoteError r.Reply → Program α)
  | resolving (next : Except StoreError Defaults → Program α)

/-- How a stretch of work ends. -/
def Pause.halt : Pause α → Halt
  | ended _ => .over
  | asking r _ => .asks r
  | resolving _ => .waits

/-- Goes on in a store to the end of the present stretch. -/
def proceed : Program α → Store → Store × Pause α
  | done a, s => (s, .ended a)
  | look next, s => (next s).proceed s
  | write s next, _ => next.proceed s
  | ask r next, s => (s, .asking r next)
  | resolve next, s =>
    match s.resolver with
    | .resolved d => (next (.ok d)).proceed s
    | _ => (s, .resolving next)

theorem proceed_resolve {next : Except StoreError Defaults → Program α} {s : Store} {d : Defaults}
    (hd : s.resolver = .resolved d) : (resolve next).proceed s = (next (.ok d)).proceed s := by
  simp only [proceed, hd]

/-- Where a program ends without a wait, the one that goes on from it starts there. -/
theorem proceed_bind_of_ended {p : Program α} {f : α → Program β} {s s' : Store} {a : α}
    (h : p.proceed s = (s', .ended a)) : (p >>= f).proceed s = (f a).proceed s' := by
  show (p.bind f).proceed s = _
  induction p generalizing s with
  | done b =>
    cases h
    rfl
  | look next ih => exact ih s h
  | write s next ih => exact ih h
  | ask r next ih => cases h
  | resolve next ih =>
    simp only [bind, proceed] at h ⊢
    split at h
    · exact ih _ h
    · cases h

/-- Where a program asks the server, the one that goes on from it does. -/
theorem proceed_bind_of_asking {p : Program α} {f : α → Program β} {s s' : Store} {r : Request}
    {next : Except RemoteError r.Reply → Program α} (h : p.proceed s = (s', .asking r next)) :
    (p >>= f).proceed s = (s', .asking r fun answer => next answer >>= f) := by
  show (p.bind f).proceed s = _
  induction p generalizing s with
  | done a => cases h
  | look next ih => exact ih s h
  | write s next ih => exact ih h
  | ask r' next ih =>
    cases h
    rfl
  | resolve next ih =>
    simp only [bind, proceed] at h ⊢
    split at h
    · exact ih _ h
    · cases h

/-- Whether what comes after the end of a stretch keeps to a contract. -/
def Pause.Keeps (C : Contract) (s : Store) : Pause α → Prop
  | ended _ => True
  | asking r next => ∀ answer s', (next answer).Keeps C (.answered s r answer) s' s'
  | resolving next =>
    (∀ d, s.resolver ≠ .resolved d) ∧ ∀ result s', (next result).Keeps C (.resolved result) s' s'

/-- The stretch that a program goes through is one that its contract allows, and what comes after it
keeps to the contract again. -/
theorem Keeps.proceed {p : Program α} {k : Cause} {s₀ s : Store} (h : p.Keeps C k s₀ s) :
    C k s₀ (p.proceed s).1 (p.proceed s).2.halt ∧ (p.proceed s).2.Keeps C (p.proceed s).1 := by
  induction p generalizing s with
  | done a => exact ⟨h, trivial⟩
  | look next ih => exact ih s h
  | write s next ih => exact ih h
  | ask r next ih => exact h
  | resolve next ih =>
    unfold Keeps Meets at h
    unfold Program.proceed
    split at h
    · exact ih _ h
    · rename_i hne
      exact ⟨h.1, hne, h.2⟩

end TiddlerShelf.Program
