/-
# `Lib.Faulty` — programs whose primitives may fail

A machine has a state, primitives that change it and may refuse, and notes:
changes of the program's own data, which cannot fail.  A program is the tree
of what it does next after each answer, so that it can touch the state in no
other way.

It runs against an environment, which sees how many calls were made, the
call and the state, and may let the call fail before or after its effect.
`wp R Q E m s` says what `m` does from `s` against every environment whose
answers the regime `R` allows: it returns into `Q` or raises into `E`, and
every state that a call leaves behind is safe.  `Does I A N Q m` says which
calls and notes can occur in `m` at all.

## The rules

`wp` has a rule for each way a program is built (`wp_bind`, `wp_catching`,
`wp_ensuring`, `wp_call`), consequence (`wp.mono`), and `wp.run`, which takes a
triple to a run: every state in the trace is safe and the end lands in `Q` or
`E`.  `Does` has the same rules, and `Does.wp` turns a bound on the calls into
a triple for any invariant that these calls keep.

A call that fails after its effect is the case that makes the difference: the
state has changed and the program is told that it has not.
-/
import Mathlib.Logic.Basic

namespace Faulty

structure Machine where
  Call : Type
  Note : Type
  State : Type
  Error : Type
  effect : Call → State → Except Error State
  noted : Note → State → State

variable {M : Machine}

inductive Prog (M : Machine) (α : Type)
  | ret (a : α)
  | raise (e : M.Error)
  | read (k : M.State → Prog M α)
  | note (n : M.Note) (k : Prog M α)
  | act (c : M.Call) (k : Option M.Error → Prog M α)

variable {α β : Type}

namespace Prog

def seq : Prog M α → (α → Prog M β) → Prog M β
  | ret a, k => k a
  | raise e, _ => raise e
  | read f, k => read fun s => (f s).seq k
  | note n m, k => note n (m.seq k)
  | act c f, k => act c fun answer => (f answer).seq k

/-- `try: m except: handler`. -/
def catching : Prog M α → (M.Error → Prog M α) → Prog M α
  | ret a, _ => ret a
  | raise e, handler => handler e
  | read f, handler => read fun s => (f s).catching handler
  | note n m, handler => note n (m.catching handler)
  | act c f, handler => act c fun answer => (f answer).catching handler

instance : Monad (Prog M) where
  pure := ret
  bind := seq

/-- `try: m finally: last`: an error of `last` takes the place of the
outcome of `m`. -/
def ensuring (m : Prog M α) (last : Prog M Unit) : Prog M α :=
  (m.catching fun e => last.seq fun _ => raise e).seq fun a => last.seq fun _ => ret a

/-- A value read off the state. -/
def get (f : M.State → α) : Prog M α := read fun s => ret (f s)

def put (n : M.Note) : Prog M Unit := note n (ret ())

def call (c : M.Call) : Prog M Unit :=
  act c fun
    | none => ret ()
    | some e => raise e

end Prog

/-! ## Runs

An environment answers every call: it lets the call take effect, raises before
it, or raises after it.  A run keeps a trace of what was called and answered. -/

/-- How a call fails: before its effect, or after it. -/
inductive Fault (ε : Type)
  | before (error : ε)
  | after (error : ε)

/-- A call that was made, the states around it and its answer. -/
structure Step (M : Machine) where
  call : M.Call
  before : M.State
  answer : Option M.Error
  after : M.State

/-- A state and, latest first, the calls that led there. -/
structure Config (M : Machine) where
  state : M.State
  trace : List (Step M)

/-- What decides whether a call fails, and how. -/
abbrev Env (M : Machine) := Nat → M.Call → M.State → Option (Fault M.Error)

/-- The environment without faults. -/
def quiet : Env M := fun _ _ _ => none

/-- The answer to a call and the state it leaves. -/
def answer (fault : Option (Fault M.Error)) (c : M.Call) (s : M.State) :
    Option M.Error × M.State :=
  match fault with
  | some (.before e) => (some e, s)
  | some (.after e) =>
      match M.effect c s with
      | .ok t => (some e, t)
      | .error refusal => (some refusal, s)
  | none =>
      match M.effect c s with
      | .ok t => (none, t)
      | .error refusal => (some refusal, s)

def Config.perform (config : Config M) (env : Env M) (c : M.Call) : Option M.Error × Config M :=
  let outcome := answer (env config.trace.length c config.state) c config.state
  (outcome.1, ⟨outcome.2, ⟨c, config.state, outcome.1, outcome.2⟩ :: config.trace⟩)

def Prog.run (env : Env M) : Prog M α → Config M → Except M.Error α × Config M
  | .ret a, config => (.ok a, config)
  | .raise e, config => (.error e, config)
  | .read k, config => (k config.state).run env config
  | .note n m, config => m.run env { config with state := M.noted n config.state }
  | .act c k, config =>
      (k (config.perform env c).1).run env (config.perform env c).2

/-- Run from a state, with nothing done yet. -/
def Prog.start (m : Prog M α) (env : Env M) (s : M.State) : Except M.Error α × Config M :=
  m.run env ⟨s, []⟩

/-- A call is answered, in one way or another, with or without its effect. -/
def Answers (c : M.Call) (s : M.State) : Option M.Error → M.State → Prop
  | none, t => M.effect c s = .ok t
  | some _, t => t = s ∨ M.effect c s = .ok t

theorem answers_answer (fault : Option (Fault M.Error)) (c : M.Call) (s : M.State) :
    Answers c s (answer fault c s).1 (answer fault c s).2 := by
  unfold answer
  split
  · exact Or.inl rfl
  · split
    · next h => exact Or.inr h
    · exact Or.inl rfl
  · split
    · next h => exact h
    · exact Or.inl rfl

/-- Calls are only added to the trace. -/
theorem Prog.mem_trace {env : Env M} {m : Prog M α} {config : Config M} {step : Step M}
    (h : step ∈ config.trace) : step ∈ (m.run env config).2.trace := by
  induction m generalizing config with
  | ret a => exact h
  | raise e => exact h
  | read k ih => exact ih config.state h
  | note n m ih => exact ih h
  | act c k ih => exact ih _ (List.mem_cons_of_mem _ h)

/-- What every answer of the environment is, every answer of a run is. -/
theorem Prog.answered {env : Env M} {P : M.Call → M.State → Option M.Error → Prop}
    (h : ∀ number c s, P c s (answer (env number c s) c s).1) (m : Prog M α) {config : Config M}
    (hconfig : ∀ step ∈ config.trace, P step.call step.before step.answer) :
    ∀ step ∈ (m.run env config).2.trace, P step.call step.before step.answer := by
  induction m generalizing config with
  | ret a => exact hconfig
  | raise e => exact hconfig
  | read k ih => exact ih config.state hconfig
  | note n m ih => exact ih hconfig
  | act c k ih =>
      refine ih _ fun step hstep => ?_
      rcases List.mem_cons.1 hstep with rfl | hstep
      · exact h _ _ _
      · exact hconfig step hstep

/-! ## What a program does against a regime

The weakest precondition for return and raise, over all answers that a regime
allows.  The rules follow the constructors of a program. -/

/-- The answers that may come, and the states that may be left behind. -/
structure Regime (M : Machine) where
  allows : M.Call → M.State → Option M.Error → Prop
  safe : M.State → Prop

/-- Every answer of the trace is one the regime allows. -/
def Regime.Governs (R : Regime M) (trace : List (Step M)) : Prop :=
  ∀ step ∈ trace, R.allows step.call step.before step.answer

def wp (R : Regime M) (Q : α → M.State → Prop) (E : M.Error → M.State → Prop) :
    Prog M α → M.State → Prop
  | .ret a, s => Q a s
  | .raise e, s => E e s
  | .read k, s => wp R Q E (k s) s
  | .note n m, s => wp R Q E m (M.noted n s)
  | .act c k, s => ∀ r t, R.allows c s r → Answers c s r t → R.safe t ∧ wp R Q E (k r) t

/-- Where an outcome has to end up. -/
def Lands (Q : α → M.State → Prop) (E : M.Error → M.State → Prop) (s : M.State) :
    Except M.Error α → Prop
  | .ok a => Q a s
  | .error e => E e s

theorem Lands.of_ok {Q : α → M.State → Prop} {E : M.Error → M.State → Prop} {s : M.State}
    {outcome : Except M.Error α} (h : Lands Q E s outcome) {a : α} (ha : outcome = .ok a) :
    Q a s := by
  subst ha
  exact h

theorem Lands.of_error {Q : α → M.State → Prop} {E : M.Error → M.State → Prop} {s : M.State}
    {outcome : Except M.Error α} (h : Lands Q E s outcome) {e : M.Error} (he : outcome = .error e) :
    E e s := by
  subst he
  exact h

variable {R : Regime M} {Q Q' : α → M.State → Prop} {E E' : M.Error → M.State → Prop}
  {s : M.State}

theorem wp.run {m : Prog M α} {env : Env M} {config : Config M} (h : wp R Q E m config.state)
    (hgov : R.Governs (m.run env config).2.trace)
    (hsafe : ∀ step ∈ config.trace, R.safe step.after) :
    (∀ step ∈ (m.run env config).2.trace, R.safe step.after) ∧
      Lands Q E (m.run env config).2.state (m.run env config).1 := by
  induction m generalizing config with
  | ret a => exact ⟨hsafe, h⟩
  | raise e => exact ⟨hsafe, h⟩
  | read k ih => exact ih config.state h hgov hsafe
  | note n m ih => exact ih h hgov hsafe
  | act c k ih =>
      have hmem : ⟨c, config.state, (config.perform env c).1, (config.perform env c).2.state⟩ ∈
          ((k (config.perform env c).1).run env (config.perform env c).2).2.trace :=
        Prog.mem_trace List.mem_cons_self
      obtain ⟨hleft, hrest⟩ := h _ _ (hgov _ hmem)
        (answers_answer (env config.trace.length c config.state) c config.state)
      refine ih _ hrest hgov ?_
      intro step hstep
      rcases List.mem_cons.1 hstep with rfl | hstep
      · exact hleft
      · exact hsafe step hstep

/-- What `wp` says about a run from the start. -/
theorem wp.start {m : Prog M α} {env : Env M} (h : wp R Q E m s)
    (hgov : R.Governs (m.start env s).2.trace) :
    (∀ step ∈ (m.start env s).2.trace, R.safe step.after) ∧
      Lands Q E (m.start env s).2.state (m.start env s).1 := by
  have hrun : wp R Q E m (⟨s, []⟩ : Config M).state := h
  exact hrun.run hgov (by simp)

theorem wp.mono {m : Prog M α} (h : wp R Q E m s) (hQ : ∀ a t, Q a t → Q' a t)
    (hE : ∀ e t, E e t → E' e t) : wp R Q' E' m s := by
  induction m generalizing s with
  | ret a => exact hQ a s h
  | raise e => exact hE e s h
  | read k ih => exact ih s h
  | note n m ih => exact ih h
  | act c k ih =>
      intro r t hallow hans
      obtain ⟨hsafe, hrest⟩ := h r t hallow hans
      exact ⟨hsafe, ih r hrest⟩

theorem wp_get {f : M.State → α} : wp R Q E (.get f) s ↔ Q (f s) s := Iff.rfl

theorem wp_put {n : M.Note} {Q : Unit → M.State → Prop} :
    wp R Q E (.put n) s ↔ Q () (M.noted n s) := Iff.rfl

theorem wp_bind {m : Prog M α} {k : α → Prog M β} {Q : β → M.State → Prop} :
    wp R Q E (m >>= k) s ↔ wp R (fun a => wp R Q E (k a)) E m s := by
  show wp R Q E (m.seq k) s ↔ _
  induction m generalizing s with
  | ret a => exact Iff.rfl
  | raise e => exact Iff.rfl
  | read f ih => exact ih s
  | note n m ih => exact ih
  | act c f ih =>
      exact forall_congr' fun r => forall_congr' fun t => imp_congr_right fun _ =>
        imp_congr_right fun _ => and_congr_right fun _ => ih r

theorem wp_catching {m : Prog M α} {handler : M.Error → Prog M α} :
    wp R Q E (m.catching handler) s ↔ wp R Q (fun e => wp R Q E (handler e)) m s := by
  induction m generalizing s with
  | ret a => exact Iff.rfl
  | raise e => exact Iff.rfl
  | read f ih => exact ih s
  | note n m ih => exact ih
  | act c f ih =>
      exact forall_congr' fun r => forall_congr' fun t => imp_congr_right fun _ =>
        imp_congr_right fun _ => and_congr_right fun _ => ih r

theorem wp_ensuring {m : Prog M α} {last : Prog M Unit}
    (h : wp R (fun a => wp R (fun _ => Q a) E last) (fun e => wp R (fun _ => E e) E last) m s) :
    wp R Q E (m.ensuring last) s := by
  show wp R Q E ((m.catching fun e => last >>= fun _ => .raise e) >>= fun a =>
    last >>= fun _ => pure a) s
  rw [wp_bind, wp_catching]
  refine h.mono (fun a t h => ?_) (fun e t h => ?_)
  · rw [wp_bind]
    exact h.mono (fun _ _ h => h) (fun _ _ h => h)
  · rw [wp_bind]
    exact h.mono (fun _ _ h => h) (fun _ _ h => h)

/-- The rule for a call: it may take effect and return, or fail with or
without its effect. -/
theorem wp_call {c : M.Call} {Q : Unit → M.State → Prop}
    (hok : ∀ t, R.allows c s none → M.effect c s = .ok t → R.safe t ∧ Q () t)
    (herr : ∀ e t, R.allows c s (some e) → t = s ∨ M.effect c s = .ok t → R.safe t ∧ E e t) :
    wp R Q E (.call c) s := by
  intro r t hallow hans
  cases r with
  | none => exact hok t hallow hans
  | some e => exact herr e t hallow hans

/-- Two conclusions about one program. -/
theorem wp.and {R' : Regime M} {m : Prog M α} (h : wp R Q E m s) (h' : wp R' Q' E' m s) :
    wp ⟨fun c s r => R.allows c s r ∧ R'.allows c s r, fun t => R.safe t ∧ R'.safe t⟩
      (fun a t => Q a t ∧ Q' a t) (fun e t => E e t ∧ E' e t) m s := by
  induction m generalizing s with
  | ret a => exact ⟨h, h'⟩
  | raise e => exact ⟨h, h'⟩
  | read k ih => exact ih s h h'
  | note n m ih => exact ih h h'
  | act c k ih =>
      intro r t hallow hans
      obtain ⟨hsafe, hrest⟩ := h r t hallow.1 hans
      obtain ⟨hsafe', hrest'⟩ := h' r t hallow.2 hans
      exact ⟨⟨hsafe, hsafe'⟩, ih r hrest hrest'⟩

theorem wp.regime {R' : Regime M} {m : Prog M α} (h : wp R Q E m s)
    (hallows : ∀ c s r, R'.allows c s r → R.allows c s r) (hsafe : ∀ t, R.safe t → R'.safe t) :
    wp R' Q E m s := by
  induction m generalizing s with
  | ret a => exact h
  | raise e => exact h
  | read k ih => exact ih s h
  | note n m ih => exact ih h
  | act c k ih =>
      intro r t hallow hans
      obtain ⟨hleft, hrest⟩ := h r t (hallows c s r hallow) hans
      exact ⟨hsafe t hleft, ih r hrest⟩

theorem wp.both {m : Prog M α} (h : wp R Q E m s) (h' : wp R Q' E' m s) :
    wp R (fun a t => Q a t ∧ Q' a t) (fun e t => E e t ∧ E' e t) m s :=
  (h.and h').regime (fun _ _ _ h => ⟨h, h⟩) fun _ h => h.1

theorem wp_of_safe {m : Prog M α} (hsafe : ∀ t, R.safe t) (s : M.State) :
    wp R (fun _ _ => True) (fun _ _ => True) m s := by
  induction m generalizing s with
  | ret a => trivial
  | raise e => trivial
  | read k ih => exact ih s s
  | note n m ih => exact ih _
  | act c k ih => exact fun r t _ _ => ⟨hsafe t, ih r t⟩

/-- Where only the last step matters. -/
theorem wp_last {m : Prog M α} {k : α → Prog M β} {Q : β → M.State → Prop}
    (hsafe : ∀ t, R.safe t) (h : ∀ a t, wp R Q (fun _ _ => True) (k a) t) :
    wp R Q (fun _ _ => True) (m >>= k) s :=
  wp_bind.2 ((wp_of_safe hsafe s).mono (fun a t _ => h a t) fun _ _ _ => trivial)

/-! ## What can occur in a program

A judgment about the program itself: whatever the answers, it makes only calls
of `A` and notes of `N`.  It is proved along the program's text and then used
for any invariant. -/

/-- Every call of `m` is in `A`, every note in `N`, and what it returns
satisfies `Q`, as long as the states it reads satisfy `I`. -/
def Prog.Does (I : M.State → Prop) (A : M.Call → Prop) (N : M.Note → Prop) (Q : α → Prop) :
    Prog M α → Prop
  | .ret a => Q a
  | .raise _ => True
  | .read k => ∀ s, I s → (k s).Does I A N Q
  | .note n m => N n ∧ m.Does I A N Q
  | .act c k => A c ∧ ∀ r, (k r).Does I A N Q

namespace Prog

variable {I : M.State → Prop} {A : M.Call → Prop} {N : M.Note → Prop} {P : α → Prop}

theorem does_pure {a : α} : (pure a : Prog M α).Does I A N P ↔ P a := Iff.rfl

theorem does_get {f : M.State → α} : (get f).Does I A N P ↔ ∀ s, I s → P (f s) := Iff.rfl

theorem does_put {n : M.Note} {P : Unit → Prop} : (put n).Does I A N P ↔ N n ∧ P () := Iff.rfl

theorem does_call {c : M.Call} {P : Unit → Prop} (hc : A c) (hP : P ()) :
    (call c).Does I A N P := by
  refine ⟨hc, fun r => ?_⟩
  cases r with
  | none => exact hP
  | some e => trivial

theorem does_bind {m : Prog M α} {k : α → Prog M β} {P : β → Prop} :
    (m >>= k).Does I A N P ↔ m.Does I A N fun a => (k a).Does I A N P := by
  show (m.seq k).Does I A N P ↔ _
  induction m with
  | ret a => exact Iff.rfl
  | raise e => exact Iff.rfl
  | read f ih => exact forall_congr' fun s => imp_congr_right fun _ => ih s
  | note n m ih => exact and_congr_right fun _ => ih
  | act c f ih => exact and_congr_right fun _ => forall_congr' fun r => ih r

theorem Does.mono {I' : M.State → Prop} {A' : M.Call → Prop} {N' : M.Note → Prop} {P' : α → Prop}
    {m : Prog M α} (h : m.Does I A N P) (hI : ∀ s, I' s → I s) (hA : ∀ c, A c → A' c)
    (hN : ∀ n, N n → N' n) (hP : ∀ a, P a → P' a) : m.Does I' A' N' P' := by
  induction m with
  | ret a => exact hP a h
  | raise e => trivial
  | read f ih => exact fun s hs => ih s (h s (hI s hs))
  | note n m ih => exact ⟨hN n h.1, ih h.2⟩
  | act c f ih => exact ⟨hA c h.1, fun r => ih r (h.2 r)⟩

theorem Does.post {P' : α → Prop} {m : Prog M α} (h : m.Does I A N P) (hP : ∀ a, P a → P' a) :
    m.Does I A N P' :=
  h.mono (fun _ h => h) (fun _ h => h) (fun _ h => h) hP

theorem does_catching {m : Prog M α} {handler : M.Error → Prog M α} (h : m.Does I A N P)
    (hhandler : ∀ e, (handler e).Does I A N P) : (m.catching handler).Does I A N P := by
  induction m with
  | ret a => exact h
  | raise e => exact hhandler e
  | read f ih => exact fun s hs => ih s (h s hs)
  | note n m ih => exact ⟨h.1, ih h.2⟩
  | act c f ih => exact ⟨h.1, fun r => ih r (h.2 r)⟩

theorem does_ensuring {m : Prog M α} {last : Prog M Unit} (h : m.Does I A N P)
    (hlast : last.Does I A N fun _ => True) : (m.ensuring last).Does I A N P := by
  show ((m.catching fun e => last >>= fun _ => raise e) >>= fun a => last >>= fun _ => pure a).Does
    I A N P
  rw [does_bind]
  have hdone : m.Does I A N fun a => (last >>= fun _ => pure a).Does I A N P :=
    h.post fun a ha => does_bind.2 (hlast.post fun _ _ => ha)
  exact does_catching hdone fun e => does_bind.2 (hlast.post fun _ _ => trivial)

/-- What all calls and notes of a program keep, the program keeps. -/
theorem Does.wp {J : M.State → Prop} {m : Prog M α} (h : m.Does I A N P)
    (hI : ∀ s, J s → I s) (hcall : ∀ c, A c → ∀ s t, J s → M.effect c s = .ok t → J t)
    (hnote : ∀ n, N n → ∀ s, J s → J (M.noted n s)) (hsafe : ∀ s, J s → R.safe s) (hs : J s) :
    Faulty.wp R (fun a t => P a ∧ J t) (fun _ t => J t) m s := by
  induction m generalizing s with
  | ret a => exact ⟨h, hs⟩
  | raise e => exact hs
  | read f ih => exact ih s (h s (hI s hs)) hs
  | note n m ih => exact ih h.2 (hnote n h.1 s hs)
  | act c f ih =>
      intro r t _ hans
      have ht : J t := by
        cases r with
        | none => exact hcall c h.1 s t hs hans
        | some e =>
            rcases hans with rfl | heff
            · exact hs
            · exact hcall c h.1 s t hs heff
      exact ⟨hsafe t ht, ih r (h.2 r) ht⟩

end Prog

/-! ## What a program can raise

The same for the errors, since a handler may raise what it has not been given. -/

/-- The calls of `m` are in `A` and, as long as these raise nothing outside
`F`, neither does `m`. -/
def Prog.Raises (A : M.Call → Prop) (F : M.Error → Prop) : Prog M α → Prop
  | .ret _ => True
  | .raise e => F e
  | .read k => ∀ s, (k s).Raises A F
  | .note _ m => m.Raises A F
  | .act c k => A c ∧ ∀ r, (∀ e ∈ r, F e) → (k r).Raises A F

namespace Prog

variable {A : M.Call → Prop} {F : M.Error → Prop}

theorem raises_pure {a : α} : (pure a : Prog M α).Raises A F := trivial

theorem raises_get {f : M.State → α} : (get f).Raises A F := fun _ => trivial

theorem raises_put {n : M.Note} : (put n).Raises A F := trivial

theorem raises_call {c : M.Call} (hc : A c) : (call c).Raises A F := by
  refine ⟨hc, fun r hr => ?_⟩
  cases r with
  | none => trivial
  | some e => exact hr e rfl

theorem raises_bind {m : Prog M α} {k : α → Prog M β} (h : m.Raises A F)
    (hk : ∀ a, (k a).Raises A F) : (m >>= k).Raises A F := by
  show (m.seq k).Raises A F
  induction m with
  | ret a => exact hk a
  | raise e => exact h
  | read f ih => exact fun s => ih s (h s)
  | note n m ih => exact ih h
  | act c f ih => exact ⟨h.1, fun r hr => ih r (h.2 r hr)⟩

theorem raises_catching {m : Prog M α} {handler : M.Error → Prog M α} (h : m.Raises A F)
    (hhandler : ∀ e, F e → (handler e).Raises A F) : (m.catching handler).Raises A F := by
  induction m with
  | ret a => trivial
  | raise e => exact hhandler e h
  | read f ih => exact fun s => ih s (h s)
  | note n m ih => exact ih h
  | act c f ih => exact ⟨h.1, fun r hr => ih r (h.2 r hr)⟩

theorem raises_ensuring {m : Prog M α} {last : Prog M Unit} (h : m.Raises A F)
    (hlast : last.Raises A F) : (m.ensuring last).Raises A F :=
  raises_bind (raises_catching h fun _ he => raises_bind hlast fun _ => he) fun _ =>
    raises_bind hlast fun _ => raises_pure

theorem Raises.wp {m : Prog M α} (h : m.Raises A F)
    (hcall : ∀ c s e, A c → R.allows c s (some e) → F e) (hsafe : ∀ t, R.safe t) (s : M.State) :
    Faulty.wp R (fun _ _ => True) (fun e _ => F e) m s := by
  induction m generalizing s with
  | ret a => trivial
  | raise e => exact h
  | read f ih => exact ih s (h s) s
  | note n m ih => exact ih h _
  | act c f ih =>
      intro r t hallow _
      refine ⟨hsafe t, ih r (h.2 r fun e he => ?_) t⟩
      obtain rfl := he
      exact hcall c s e h.1 hallow

end Prog

/-! ## What every step of a program keeps

For a property of all states that a run goes through, not only of its end. -/

/-- From `s`, every change that `m` makes to the state leads into `J` and is
one of `L`, whatever the answers. -/
def Prog.KeepsFrom (J : M.State → Prop) (L : M.State → M.State → Prop) :
    Prog M α → M.State → Prop
  | .ret _, _ | .raise _, _ => True
  | .read k, s => (k s).KeepsFrom J L s
  | .note n m, s => J (M.noted n s) ∧ L s (M.noted n s) ∧ m.KeepsFrom J L (M.noted n s)
  | .act c k, s => ∀ r t, Answers c s r t → J t ∧ L s t ∧ (k r).KeepsFrom J L t

def Prog.Keeps (J : M.State → Prop) (L : M.State → M.State → Prop) (m : Prog M α) : Prop :=
  ∀ s, J s → m.KeepsFrom J L s

/-- The states around the calls, latest first. -/
def Config.history (config : Config M) : List M.State :=
  config.state :: config.trace.flatMap fun step => [step.after, step.before]

namespace Prog

variable {J : M.State → Prop} {L : M.State → M.State → Prop}

theorem keepsFrom_bind {m : Prog M α} {k : α → Prog M β} (h : m.KeepsFrom J L s) (hs : J s)
    (hk : ∀ a, (k a).Keeps J L) : (m >>= k).KeepsFrom J L s := by
  show (m.seq k).KeepsFrom J L s
  induction m generalizing s with
  | ret a => exact hk a s hs
  | raise e => trivial
  | read f ih => exact ih s h hs
  | note n m ih => exact ⟨h.1, h.2.1, ih h.2.2 h.1⟩
  | act c f ih =>
      intro r t hans
      obtain ⟨ht, hstep, hrest⟩ := h r t hans
      exact ⟨ht, hstep, ih r hrest ht⟩

theorem keepsFrom_catching {m : Prog M α} {handler : M.Error → Prog M α} (h : m.KeepsFrom J L s)
    (hs : J s) (hhandler : ∀ e, (handler e).Keeps J L) : (m.catching handler).KeepsFrom J L s := by
  induction m generalizing s with
  | ret a => trivial
  | raise e => exact hhandler e s hs
  | read f ih => exact ih s h hs
  | note n m ih => exact ⟨h.1, h.2.1, ih h.2.2 h.1⟩
  | act c f ih =>
      intro r t hans
      obtain ⟨ht, hstep, hrest⟩ := h r t hans
      exact ⟨ht, hstep, ih r hrest ht⟩

theorem keeps_pure {a : α} : (pure a : Prog M α).Keeps J L := fun _ _ => trivial

theorem keeps_raise {e : M.Error} : (raise e : Prog M α).Keeps J L := fun _ _ => trivial

theorem keeps_get {f : M.State → α} : (get f).Keeps J L := fun _ _ => trivial

theorem keeps_bind {m : Prog M α} {k : α → Prog M β} (h : m.Keeps J L)
    (hk : ∀ a, (k a).Keeps J L) : (m >>= k).Keeps J L :=
  fun s hs => keepsFrom_bind (h s hs) hs hk

theorem keeps_catching {m : Prog M α} {handler : M.Error → Prog M α} (h : m.Keeps J L)
    (hhandler : ∀ e, (handler e).Keeps J L) : (m.catching handler).Keeps J L :=
  fun s hs => keepsFrom_catching (h s hs) hs hhandler

theorem keeps_ensuring {m : Prog M α} {last : Prog M Unit} (h : m.Keeps J L)
    (hlast : last.Keeps J L) : (m.ensuring last).Keeps J L :=
  keeps_bind (keeps_catching h fun _ => keeps_bind hlast fun _ => keeps_raise) fun _ =>
    keeps_bind hlast fun _ => keeps_pure

theorem Keeps.mono {L' : M.State → M.State → Prop} {m : Prog M α} (h : m.Keeps J L)
    (hL : ∀ s t, L s t → L' s t) : m.Keeps J L' := by
  intro s hs
  have hfrom := h s hs
  clear h hs
  induction m generalizing s with
  | ret a => trivial
  | raise e => trivial
  | read f ih => exact ih s s hfrom
  | note n m ih => exact ⟨hfrom.1, hL _ _ hfrom.2.1, ih _ hfrom.2.2⟩
  | act c f ih =>
      intro r t hans
      obtain ⟨ht, hstep, hrest⟩ := hfrom r t hans
      exact ⟨ht, hL _ _ hstep, ih r t hrest⟩

/-- What all calls and notes of a program keep, its steps keep. -/
theorem Does.keeps {I : M.State → Prop} {A : M.Call → Prop} {N : M.Note → Prop} {P : α → Prop}
    {m : Prog M α} (h : m.Does I A N P) (hI : ∀ s, J s → I s)
    (hcall : ∀ c, A c → ∀ s t, J s → M.effect c s = .ok t → J t ∧ L s t)
    (hnote : ∀ n, N n → ∀ s, J s → J (M.noted n s) ∧ L s (M.noted n s)) (hrefl : ∀ s, L s s) :
    m.Keeps J L := by
  induction m with
  | ret a => exact fun _ _ => trivial
  | raise e => exact fun _ _ => trivial
  | read f ih => exact fun s hs => ih s (h s (hI s hs)) s hs
  | note n m ih =>
      intro s hs
      obtain ⟨ht, hstep⟩ := hnote n h.1 s hs
      exact ⟨ht, hstep, ih h.2 _ ht⟩
  | act c f ih =>
      intro s hs r t hans
      have ht : J t ∧ L s t := by
        cases r with
        | none => exact hcall c h.1 s t hs hans
        | some e =>
            rcases hans with rfl | heff
            · exact ⟨hs, hrefl t⟩
            · exact hcall c h.1 s t hs heff
      exact ⟨ht.1, ht.2, ih r (h.2 r) t ht.1⟩

/-- A program that keeps a preorder leads along it. -/
theorem KeepsFrom.wp {base : M.State} {m : Prog M α} (h : m.KeepsFrom J L s) (hs : J s)
    (hbase : L base s) (htrans : ∀ a b c, L a b → L b c → L a c) (hsafe : ∀ t, R.safe t) :
    Faulty.wp R (fun _ t => J t ∧ L base t) (fun _ t => J t ∧ L base t) m s := by
  induction m generalizing s with
  | ret a => exact ⟨hs, hbase⟩
  | raise e => exact ⟨hs, hbase⟩
  | read f ih => exact ih s h hs hbase
  | note n m ih => exact ih h.2.2 h.1 (htrans _ _ _ hbase h.2.1)
  | act c f ih =>
      intro r t _ hans
      obtain ⟨ht, hstep, hrest⟩ := h r t hans
      exact ⟨hsafe t, ih r hrest ht (htrans _ _ _ hbase hstep)⟩

/-- In a run of a program that keeps a preorder, after what has passed
before it, all states stand in order. -/
theorem KeepsFrom.run {m : Prog M α} {env : Env M} (config : Config M) {past : List M.State}
    (h : m.KeepsFrom J L config.state) (hs : J config.state) (hrefl : ∀ s, L s s)
    (htrans : ∀ a b c, L a b → L b c → L a c)
    (hpast : (config.history ++ past).Pairwise fun later earlier => L earlier later) :
    J (m.run env config).2.state ∧
      ((m.run env config).2.history ++ past).Pairwise fun later earlier => L earlier later := by
  induction m generalizing config with
  | ret a => exact ⟨hs, hpast⟩
  | raise e => exact ⟨hs, hpast⟩
  | read f ih => exact ih config.state config h hs hpast
  | note n m ih =>
      obtain ⟨hfirst, hrest⟩ := List.pairwise_cons.1 hpast
      refine ih { config with state := M.noted n config.state } h.2.2 h.1
        (List.pairwise_cons.2 ⟨fun earlier hmem => ?_, hrest⟩)
      exact htrans _ _ _ (hfirst earlier hmem) h.2.1
  | act c f ih =>
      obtain ⟨ht, hstep, hrest⟩ := h _ _
        (answers_answer (env config.trace.length c config.state) c config.state)
      refine ih _ (config.perform env c).2 hrest ht ?_
      have hafter : ∀ earlier ∈ config.history ++ past,
          L earlier (config.perform env c).2.state := by
        intro earlier hmem
        rcases List.mem_cons.1 hmem with rfl | hmem
        · exact hstep
        · exact htrans _ _ _ ((List.pairwise_cons.1 hpast).1 earlier hmem) hstep
      have honce : ((config.perform env c).2.state :: (config.history ++ past)).Pairwise
          fun later earlier => L earlier later := List.pairwise_cons.2 ⟨hafter, hpast⟩
      refine List.pairwise_cons.2 ⟨fun earlier hmem => ?_, honce⟩
      rcases List.mem_cons.1 hmem with rfl | hmem
      · exact hrefl _
      · exact hafter earlier hmem

end Prog

end Faulty
