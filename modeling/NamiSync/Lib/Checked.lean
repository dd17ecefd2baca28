/-
# `Lib.Checked` — what a successful `Except` computation did

The inversion rules for sequences of checks that may raise.

A reader of the source is a `do` block in `Except`.  `bind_eq_ok` takes such a
block apart into what each step returned, so a proof about a block that
returned reads from top to bottom like the block.
-/
import Mathlib.Data.List.Basic

namespace Checked

universe u

variable {ε : Type*} {α β : Type u}

theorem ok_bind {a : α} {f : α → Except ε β} : ((.ok a : Except ε α) >>= f) = f a := rfl

theorem bind_eq_ok {x : Except ε α} {f : α → Except ε β} {b : β} :
    (x >>= f) = .ok b ↔ ∃ a, x = .ok a ∧ f a = .ok b := by
  cases x with
  | error e => simp [bind, Except.bind]
  | ok a => simp [bind, Except.bind]

theorem ok_of_get {x : Except ε α} (h : x.toOption.isSome = true) :
    x = .ok (x.toOption.get h) := by
  cases x with
  | error e => exact absurd h (by simp [Except.toOption])
  | ok a => rfl

theorem map_eq_ok {x : Except ε α} {f : α → β} {b : β} :
    f <$> x = .ok b ↔ ∃ a, x = .ok a ∧ f a = b := by
  cases x with
  | error e => simp [Functor.map, Except.map]
  | ok a => simp [Functor.map, Except.map]

/-- A sequence of two checks passes when both do. -/
theorem seq_eq_ok {α : Type} {x : Except ε Unit} {y : Except ε α} {a : α} :
    (x >>= fun _ => y) = .ok a ↔ x = .ok () ∧ y = .ok a := by
  rw [bind_eq_ok]
  constructor
  · rintro ⟨⟨⟩, hx, hy⟩
    exact ⟨hx, hy⟩
  · rintro ⟨hx, hy⟩
    exact ⟨(), hx, hy⟩

/-- What `mapM` yields was yielded for an element. -/
theorem mem_of_mapM {f : α → Except ε β} {l : List α} {ys : List β} (h : l.mapM f = .ok ys) :
    ∀ y ∈ ys, ∃ a ∈ l, f a = .ok y := by
  induction l generalizing ys with
  | nil =>
      obtain rfl := Except.ok.inj h
      simp
  | cons a l ih =>
      rw [List.mapM_cons, bind_eq_ok] at h
      obtain ⟨b, hb, h⟩ := h
      obtain ⟨bs, hbs, h⟩ := bind_eq_ok.1 h
      obtain rfl : b :: bs = ys := Except.ok.inj h
      intro y hy
      rcases List.mem_cons.1 hy with rfl | hy
      · exact ⟨a, List.mem_cons_self, hb⟩
      · obtain ⟨a', ha', hfa⟩ := ih hbs y hy
        exact ⟨a', List.mem_cons_of_mem _ ha', hfa⟩

theorem mapM_map {γ : Type*} {f : α → Except ε β} {g : γ → α} {h : γ → β} {l : List γ}
    (hl : ∀ c ∈ l, f (g c) = .ok (h c)) : (l.map g).mapM f = .ok (l.map h) := by
  induction l with
  | nil => rfl
  | cons c l ih =>
      rw [List.map_cons, List.mapM_cons, hl c List.mem_cons_self, ok_bind,
        ih fun d hd => hl d (List.mem_cons_of_mem _ hd)]
      rfl

/-- The elements may come in another order. -/
theorem mapM_of_perm {f : α → Except ε β} {l l' : List α} (hperm : l.Perm l') {ys : List β}
    (h : l.mapM f = .ok ys) : ∃ ys', l'.mapM f = .ok ys' ∧ ys'.Perm ys := by
  induction hperm generalizing ys with
  | nil => exact ⟨ys, h, List.Perm.refl _⟩
  | cons a _ ih =>
      rw [List.mapM_cons, bind_eq_ok] at h
      obtain ⟨b, hb, h⟩ := h
      obtain ⟨bs, hbs, h⟩ := bind_eq_ok.1 h
      obtain rfl : b :: bs = ys := Except.ok.inj h
      obtain ⟨bs', hbs', hperm⟩ := ih hbs
      exact ⟨b :: bs', by rw [List.mapM_cons, hb, ok_bind, hbs']; rfl, hperm.cons b⟩
  | swap a a' l =>
      rw [List.mapM_cons, List.mapM_cons, bind_eq_ok] at h
      obtain ⟨b', hb', h⟩ := h
      rw [bind_eq_ok] at h
      obtain ⟨bs', htail, h⟩ := h
      obtain ⟨b, hb, hrest⟩ := bind_eq_ok.1 htail
      obtain ⟨bs, hbs, heq⟩ := bind_eq_ok.1 hrest
      obtain rfl : b :: bs = bs' := Except.ok.inj heq
      obtain rfl : b' :: b :: bs = ys := Except.ok.inj h
      refine ⟨b :: b' :: bs, ?_, List.Perm.swap _ _ _⟩
      rw [List.mapM_cons, List.mapM_cons, hb, ok_bind, hb', ok_bind, hbs]
      rfl
  | trans _ _ ih ih' =>
      obtain ⟨ys', hys', hperm⟩ := ih h
      obtain ⟨ys'', hys'', hperm'⟩ := ih' hys'
      exact ⟨ys'', hys'', hperm'.trans hperm⟩

end Checked
