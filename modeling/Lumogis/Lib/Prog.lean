import Mathlib.Logic.Relation

/-!
# Lib.Prog

Programs whose only effects are atomic calls on a shared state.

A `Prog S E α` is a tree: it returns, raises, or makes a call. A call has a guard (it blocks
while the guard is false), an effect, a continuation for the reply, and a continuation for the
case that the call itself raises. The same tree is read in three ways:

* `exec` (here): alone and without faults. `none` means that the program blocked.
* `Faulty` (`Lib.Fault`): alone, and any call may raise.
* `Step` (`Lib.Rely`): several programs interleaved call by call.

`wp` is the total-correctness reading of `exec`, and `Always φ` says that every call of the
program, wherever it is reached from, changes the state only along `φ`.
-/

inductive Prog (S E α : Type) where
  | ret (a : α)
  | raise (e : E)
  | call (guard : S → Bool) (eff : S → S) (next : S → Prog S E α) (fault : Prog S E α)

namespace Prog

variable {S E α β : Type}

def bind : Prog S E α → (α → Prog S E β) → Prog S E β
  | .ret a, f => f a
  | .raise e, _ => .raise e
  | .call g u k h, f => .call g u (fun s => (k s).bind f) (h.bind f)

instance : Monad (Prog S E) where
  pure := .ret
  bind := bind

/-- Runs `p` and returns what came of it, a value or an exception. Never raises. -/
def attempt : Prog S E α → Prog S E (Except E α)
  | .ret a => .ret (.ok a)
  | .raise e => .ret (.error e)
  | .call g u k h => .call g u (fun s => (k s).attempt) h.attempt

/-- `try: p except e: h e`. -/
def tryCatch (p : Prog S E α) (h : E → Prog S E α) : Prog S E α := do
  match ← p.attempt with
  | .ok a => pure a
  | .error e => h e

/-- `try: p finally: fin`. -/
def tryFinally (p : Prog S E α) (fin : Prog S E Unit) : Prog S E α := do
  let r ← p.attempt
  fin
  match r with
  | .ok a => pure a
  | .error e => .raise e

/-- One call that replies with `(f s).1` and leaves `(f s).2`; raises `e` when it faults. -/
def act (e : E) (f : S → α × S) : Prog S E α :=
  .call (fun _ => true) (fun s => (f s).2) (fun s => .ret (f s).1) (.raise e)

/-- A call that only reads. -/
def query (e : E) (f : S → α) : Prog S E α := act e fun s => (f s, s)

/-- A call that may be refused: on an error reply the state is as `f` leaves it. -/
def actE (e : E) (f : S → Except E α × S) : Prog S E α := do
  match ← act e f with
  | .ok a => pure a
  | .error x => .raise x

/-- A call that waits until `g` holds. -/
def await (e : E) (g : S → Bool) (u : S → S) : Prog S E Unit :=
  .call g u (fun _ => .ret ()) (.raise e)

/-- `for x in xs: acc = f(acc, x)`. -/
def foldM (f : β → α → Prog S E β) : β → List α → Prog S E β
  | b, [] => pure b
  | b, x :: xs => do foldM f (← f b x) xs

/-- `for x in xs: f(x)`. -/
def forEach (f : α → Prog S E Unit) : List α → Prog S E Unit
  | [] => pure ()
  | x :: xs => do f x; forEach f xs

theorem bind_assoc {γ : Type} (p : Prog S E α) (f : α → Prog S E β) (g : β → Prog S E γ) :
    (p >>= f) >>= g = p >>= fun a => f a >>= g := by
  show (p.bind f).bind g = p.bind fun a => (f a).bind g
  induction p with
  | ret a => rfl
  | raise e => rfl
  | call guard u k h ih ihh =>
    simp only [bind, ihh]
    congr 1
    funext s
    exact ih s

/-! ## Running alone, without faults -/

def exec : Prog S E α → S → Option (Except E α × S)
  | .ret a, s => some (.ok a, s)
  | .raise e, s => some (.error e, s)
  | .call g u k _, s => if g s then (k s).exec (u s) else none

/-- What `exec` of a sequence does with the outcome of the first part. -/
def thenExec (f : α → Prog S E β) : Except E α × S → Option (Except E β × S)
  | (.ok a, s) => (f a).exec s
  | (.error e, s) => some (.error e, s)

@[simp] theorem pure_eq (a : α) : (pure a : Prog S E α) = .ret a := rfl

@[simp] theorem exec_ret (a : α) (s : S) : (Prog.ret a : Prog S E α).exec s = some (.ok a, s) := rfl

@[simp] theorem exec_raise (e : E) (s : S) :
    (Prog.raise e : Prog S E α).exec s = some (.error e, s) := rfl

theorem exec_bind (p : Prog S E α) (f : α → Prog S E β) (s : S) :
    (p >>= f).exec s = (p.exec s).bind (thenExec f) := by
  show (p.bind f).exec s = _
  induction p generalizing s with
  | ret a => rfl
  | raise e => rfl
  | call g u k h ih _ =>
    simp only [bind, exec]
    split
    · exact ih s (u s)
    · rfl

theorem exec_attempt (p : Prog S E α) (s : S) :
    p.attempt.exec s = (p.exec s).map fun x => (.ok x.1, x.2) := by
  induction p generalizing s with
  | ret a => rfl
  | raise e => rfl
  | call g u k h ih _ =>
    simp only [attempt, exec]
    split
    · exact ih s (u s)
    · rfl

@[simp] theorem exec_act (e : E) (f : S → α × S) (s : S) :
    (act e f).exec s = some (.ok (f s).1, (f s).2) := rfl

@[simp] theorem exec_query (e : E) (f : S → α) (s : S) :
    (query e f).exec s = some (.ok (f s), s) := rfl

theorem exec_actE (e : E) (f : S → Except E α × S) (s : S) :
    (actE e f).exec s = some (f s) := by
  rw [actE, exec_bind, exec_act]
  obtain ⟨r, t⟩ := f s
  cases r <;> rfl

/-- The state in which `p` ends. -/
def after (p : Prog S E α) (s : S) : S := ((p.exec s).map Prod.snd).getD s

theorem exec_after {p : Prog S E α} {s : S} {r : Except E α}
    (h : (p.exec s).map Prod.fst = some r) : p.exec s = some (r, p.after s) := by
  obtain ⟨⟨r', t⟩, he, rfl⟩ := Option.map_eq_some_iff.mp h
  simp [after, he]

/-! ## Total correctness -/

/-- From `s`, without faults, `p` does not block and what it ends in satisfies `Q`. -/
def wp (Q : Except E α → S → Prop) : Prog S E α → S → Prop
  | .ret a, s => Q (.ok a) s
  | .raise e, s => Q (.error e) s
  | .call g u k _, s => g s = true ∧ wp Q (k s) (u s)

theorem wp_iff {Q : Except E α → S → Prop} {p : Prog S E α} {s : S} :
    wp Q p s ↔ ∃ r s', p.exec s = some (r, s') ∧ Q r s' := by
  induction p generalizing s with
  | ret a => exact ⟨fun h => ⟨_, _, rfl, h⟩, fun ⟨_, _, he, h⟩ => by cases he; exact h⟩
  | raise e => exact ⟨fun h => ⟨_, _, rfl, h⟩, fun ⟨_, _, he, h⟩ => by cases he; exact h⟩
  | call g u k h ih _ =>
    simp only [wp, exec]
    by_cases hg : g s = true
    · simp [hg, ih]
    · simp [hg]

theorem wp.exec {Q : Except E α → S → Prop} {p : Prog S E α} {s s' : S} {r : Except E α}
    (h : wp Q p s) (he : p.exec s = some (r, s')) : Q r s' := by
  obtain ⟨r', s'', h', hq⟩ := wp_iff.mp h
  rw [he] at h'
  cases h'
  exact hq

theorem wp.mono {Q Q' : Except E α → S → Prop} {p : Prog S E α} {s : S} (h : wp Q p s)
    (hq : ∀ r s', Q r s' → Q' r s') : wp Q' p s := by
  induction p generalizing s with
  | ret a => exact hq _ _ h
  | raise e => exact hq _ _ h
  | call g u k f ih _ => exact ⟨h.1, ih s h.2⟩

/-- What the first part of a sequence must end in for the whole to end in `Q`. -/
@[reducible] def seqPost (Q : Except E β → S → Prop) (f : α → S → Prop) : Except E α → S → Prop
  | .ok a, s => f a s
  | .error e, s => Q (.error e) s

theorem wp_bind {Q : Except E β → S → Prop} {p : Prog S E α} {f : α → Prog S E β} {s : S} :
    wp Q (p >>= f) s ↔ wp (seqPost Q fun a => wp Q (f a)) p s := by
  show wp Q (p.bind f) s ↔ _
  induction p generalizing s with
  | ret a => rfl
  | raise e => rfl
  | call g u k h ih _ => simp only [bind, wp, ih]

theorem wp_attempt {Q : Except E (Except E α) → S → Prop} {p : Prog S E α} {s : S} :
    wp Q p.attempt s ↔ wp (fun r => Q (.ok r)) p s := by
  induction p generalizing s with
  | ret a => rfl
  | raise e => rfl
  | call g u k h ih _ => simp only [attempt, wp, ih]

@[simp] theorem wp_ret {Q : Except E α → S → Prop} {a : α} {s : S} :
    wp Q (.ret a) s ↔ Q (.ok a) s := Iff.rfl

@[simp] theorem wp_raise {Q : Except E α → S → Prop} {e : E} {s : S} :
    wp Q (.raise e) s ↔ Q (.error e) s := Iff.rfl

@[simp] theorem wp_act {Q : Except E α → S → Prop} {e : E} {f : S → α × S} {s : S} :
    wp Q (act e f) s ↔ Q (.ok (f s).1) (f s).2 := by
  simp [act, wp]

@[simp] theorem wp_query {Q : Except E α → S → Prop} {e : E} {f : S → α} {s : S} :
    wp Q (query e f) s ↔ Q (.ok (f s)) s := wp_act

@[simp] theorem wp_await {Q : Except E Unit → S → Prop} {e : E} {g : S → Bool} {u : S → S}
    {s : S} : wp Q (await e g u) s ↔ g s = true ∧ Q (.ok ()) (u s) := Iff.rfl

@[simp] theorem wp_actE {Q : Except E α → S → Prop} {e : E} {f : S → Except E α × S} {s : S} :
    wp Q (actE e f) s ↔ Q (f s).1 (f s).2 := by
  rw [actE, wp_bind, wp_act]
  simp only [seqPost]
  cases h : (f s).1 <;> simp

theorem wp_tryCatch {Q : Except E α → S → Prop} {p : Prog S E α} {h : E → Prog S E α} {s : S} :
    wp Q (p.tryCatch h) s ↔
      wp (fun r s' => match r with
        | .ok a => Q (.ok a) s'
        | .error e => wp Q (h e) s') p s := by
  rw [tryCatch, wp_bind, wp_attempt]
  constructor <;> intro hp <;> refine hp.mono fun r s' hr => ?_
  · cases r <;> exact hr
  · cases r <;> exact hr

/-- The rule of a loop that carries an accumulator: `I` holds of the items done so far. -/
theorem wp_foldM {Q : Except E β → S → Prop} {f : β → α → Prog S E β}
    (I : List α → β → S → Prop) {xs : List α} {b : β} {s : S} (h0 : I [] b s)
    (hstep : ∀ ys x b s, ys ++ [x] <+: xs → I ys b s →
      wp (seqPost Q fun b' s' => I (ys ++ [x]) b' s') (f b x) s)
    (hend : ∀ b s, I xs b s → Q (.ok b) s) : wp Q (foldM f b xs) s := by
  suffices key : ∀ zs ys b s, ys ++ zs = xs → I ys b s → wp Q (foldM f b zs) s from
    key xs [] b s rfl h0
  intro zs
  induction zs with
  | nil =>
    intro ys b s he hi
    rw [List.append_nil] at he
    exact hend b s (he ▸ hi)
  | cons z zs ih =>
    intro ys b s he hi
    rw [foldM, wp_bind]
    refine (hstep ys z b s ⟨zs, by simpa using he⟩ hi).mono fun r s' hr => ?_
    cases r with
    | ok b' => exact ih (ys ++ [z]) b' s' (by simpa using he) hr
    | error e => exact hr

theorem wp_forEach {Q : Except E Unit → S → Prop} {f : α → Prog S E Unit}
    (I : List α → S → Prop) {xs : List α} {s : S} (h0 : I [] s)
    (hstep : ∀ ys x s, ys ++ [x] <+: xs → I ys s →
      wp (seqPost Q fun _ s' => I (ys ++ [x]) s') (f x) s)
    (hend : ∀ s, I xs s → Q (.ok ()) s) : wp Q (forEach f xs) s := by
  suffices key : ∀ zs ys s, ys ++ zs = xs → I ys s → wp Q (forEach f zs) s from
    key xs [] s rfl h0
  intro zs
  induction zs with
  | nil =>
    intro ys s he hi
    rw [List.append_nil] at he
    exact hend s (he ▸ hi)
  | cons z zs ih =>
    intro ys s he hi
    rw [forEach, wp_bind]
    refine (hstep ys z s ⟨zs, by simpa using he⟩ hi).mono fun r s' hr => ?_
    cases r with
    | ok b' => exact ih (ys ++ [z]) s' (by simpa using he) hr
    | error e => exact hr

/-! ## What every call does -/

/-- Every call of the program, from any state in which it may run, moves along `φ`. -/
def Always (φ : S → S → Prop) : Prog S E α → Prop
  | .ret _ => True
  | .raise _ => True
  | .call g u k h => (∀ s, g s = true → φ s (u s)) ∧ (∀ s, Always φ (k s)) ∧ Always φ h

variable {φ ψ : S → S → Prop}

@[simp] theorem always_ret (a : α) : Always φ (.ret a : Prog S E α) := trivial

@[simp] theorem always_pure (a : α) : Always φ (pure a : Prog S E α) := trivial

@[simp] theorem always_raise (e : E) : Always φ (.raise e : Prog S E α) := trivial

theorem Always.mono {p : Prog S E α} (h : Always φ p) (hi : ∀ s s', φ s s' → ψ s s') :
    Always ψ p := by
  induction p with
  | ret a => trivial
  | raise e => trivial
  | call g u k f ih ihf =>
    exact ⟨fun s hg => hi _ _ (h.1 s hg), fun s => ih s (h.2.1 s), ihf h.2.2⟩

theorem Always.and {p : Prog S E α} (h : Always φ p) (h' : Always ψ p) :
    Always (fun s t => φ s t ∧ ψ s t) p := by
  induction p with
  | ret a => exact True.intro
  | raise e => exact True.intro
  | call g u k f ih ihf =>
    exact ⟨fun s hg => ⟨h.1 s hg, h'.1 s hg⟩, fun s => ih s (h.2.1 s) (h'.2.1 s),
      ihf h.2.2 h'.2.2⟩

theorem Always.trivial (p : Prog S E α) : Always (fun _ _ => True) p := by
  induction p with
  | ret a => exact True.intro
  | raise e => exact True.intro
  | call g u k f ih ihf => exact ⟨fun _ _ => True.intro, ih, ihf⟩

theorem Always.bind {p : Prog S E α} {f : α → Prog S E β} (h : Always φ p)
    (hf : ∀ a, Always φ (f a)) : Always φ (p >>= f) := by
  show Always φ (p.bind f)
  induction p with
  | ret a => exact hf a
  | raise e => trivial
  | call g u k h' ih ihf => exact ⟨h.1, fun s => ih s (h.2.1 s), ihf h.2.2⟩

theorem Always.attempt {p : Prog S E α} (h : Always φ p) : Always φ p.attempt := by
  induction p with
  | ret a => trivial
  | raise e => trivial
  | call g u k h' ih ihf => exact ⟨h.1, fun s => ih s (h.2.1 s), ihf h.2.2⟩

theorem Always.tryCatch {p : Prog S E α} {h : E → Prog S E α} (hp : Always φ p)
    (hh : ∀ e, Always φ (h e)) : Always φ (p.tryCatch h) := by
  refine Always.bind hp.attempt fun r => ?_
  cases r with
  | ok a => trivial
  | error e => exact hh e

theorem Always.tryFinally {p : Prog S E α} {fin : Prog S E Unit} (hp : Always φ p)
    (hf : Always φ fin) : Always φ (p.tryFinally fin) := by
  refine Always.bind hp.attempt fun r => Always.bind hf fun _ => ?_
  cases r <;> trivial

theorem always_act {e : E} {f : S → α × S} (h : ∀ s, φ s (f s).2) : Always φ (act e f) :=
  ⟨fun s _ => h s, fun _ => trivial, trivial⟩

theorem always_query {e : E} {f : S → α} (h : ∀ s, φ s s) : Always φ (query e f) := always_act h

theorem always_actE {e : E} {f : S → Except E α × S} (h : ∀ s, φ s (f s).2) :
    Always φ (actE e f) := by
  refine Always.bind (always_act h) fun r => ?_
  cases r <;> trivial

theorem Always.foldM {f : β → α → Prog S E β} {xs : List α}
    (h : ∀ b, ∀ x ∈ xs, Always φ (f b x)) (b : β) : Always φ (foldM f b xs) := by
  induction xs generalizing b with
  | nil => trivial
  | cons x xs ih =>
    exact Always.bind (h b x (by simp)) fun b' => ih (fun b y hy => h b y (by simp [hy])) b'

theorem Always.forEach {f : α → Prog S E Unit} {xs : List α} (h : ∀ x ∈ xs, Always φ (f x)) :
    Always φ (forEach f xs) := by
  induction xs with
  | nil => trivial
  | cons x xs ih =>
    exact Always.bind (h x (by simp)) fun _ => ih fun y hy => h y (by simp [hy])

/-- A run alone moves along `φ` as a whole, when `φ` is reflexive and transitive. -/
theorem Always.exec {p : Prog S E α} (h : Always φ p) (hr : ∀ s, φ s s)
    (ht : ∀ a b c, φ a b → φ b c → φ a c) {s s' : S} {r : Except E α}
    (he : p.exec s = some (r, s')) : φ s s' := by
  induction p generalizing s with
  | ret a => cases he; exact hr _
  | raise e => cases he; exact hr _
  | call g u k f ih _ =>
    simp only [Prog.exec] at he
    split at he
    · rename_i hg
      exact ht _ _ _ (h.1 s hg) (ih s (h.2.1 s) he)
    · cases he

/-- A run alone of a sequence whose first part moves along `φ`: it ends there with an error, or goes
on from there. -/
theorem Always.exec_bind {p : Prog S E α} {f : α → Prog S E β} (h : Always φ p) (hr : ∀ s, φ s s)
    (ht : ∀ a b c, φ a b → φ b c → φ a c) {s s' : S} {r : Except E β}
    (he : (p >>= f).exec s = some (r, s')) :
    (∃ e, r = .error e ∧ φ s s') ∨
      ∃ a t, p.exec s = some (.ok a, t) ∧ φ s t ∧ (f a).exec t = some (r, s') := by
  rw [Prog.exec_bind, Option.bind_eq_some_iff] at he
  obtain ⟨⟨x, t⟩, hp, hf⟩ := he
  have hφ := h.exec hr ht hp
  cases x with
  | ok a => exact .inr ⟨a, t, hp, hφ, hf⟩
  | error e =>
    cases hf
    exact .inl ⟨e, rfl, hφ⟩

end Prog
