import Lumogis.Lib.Prog

/-!
# Lib.Fault

Programs run alone when any call may raise.

`Faulty p s r s'`: from `s`, `p` can end with outcome `r` in `s'`. Each call either succeeds,
or raises without having had its effect (`lost`), or raises after its effect took place (`late`:
the reply was lost). Any number of calls may fault.

`Post Q p s` is the matching weakest precondition: whatever faults occur, the outcome satisfies
`Q`. `Post.faulty` is its soundness; the rules follow the constructors of programs.
-/

namespace Prog

variable {S E α β : Type}

inductive Faulty : Prog S E α → S → Except E α → S → Prop where
  | ret {a : α} {s : S} : Faulty (.ret a) s (.ok a) s
  | raise {e : E} {s : S} : Faulty (.raise e) s (.error e) s
  | step {g : S → Bool} {u : S → S} {k : S → Prog S E α} {h : Prog S E α} {s s' : S}
      {r : Except E α} : g s = true → Faulty (k s) (u s) r s' → Faulty (.call g u k h) s r s'
  | lost {g : S → Bool} {u : S → S} {k : S → Prog S E α} {h : Prog S E α} {s s' : S}
      {r : Except E α} : Faulty h s r s' → Faulty (.call g u k h) s r s'
  | late {g : S → Bool} {u : S → S} {k : S → Prog S E α} {h : Prog S E α} {s s' : S}
      {r : Except E α} : g s = true → Faulty h (u s) r s' → Faulty (.call g u k h) s r s'

/-- A run without faults is one of the runs with faults. -/
theorem Faulty.of_exec {p : Prog S E α} {s s' : S} {r : Except E α}
    (h : p.exec s = some (r, s')) : Faulty p s r s' := by
  induction p generalizing s with
  | ret a => cases h; exact .ret
  | raise e => cases h; exact .raise
  | call g u k f ih _ =>
    simp only [exec] at h
    split at h
    · rename_i hg
      exact .step hg (ih s h)
    · cases h

/-- What becomes of one call: it succeeds, or it raises before or after its effect. -/
inductive Fate where
  | ok | lost | late
  deriving DecidableEq

/-- Runs `p` with the fate of each call given in order; calls beyond the list succeed. -/
def execFates : Prog S E α → List Fate → S → Option (Except E α × S)
  | .ret a, _, s => some (.ok a, s)
  | .raise e, _, s => some (.error e, s)
  | .call g u k _, [], s => if g s then (k s).execFates [] (u s) else none
  | .call g u k _, .ok :: fs, s => if g s then (k s).execFates fs (u s) else none
  | .call _ _ _ h, .lost :: fs, s => h.execFates fs s
  | .call g u _ h, .late :: fs, s => if g s then h.execFates fs (u s) else none

/-- `Faulty` is running with some choice of fates. -/
theorem faulty_iff {p : Prog S E α} {s s' : S} {r : Except E α} :
    Faulty p s r s' ↔ ∃ fs, p.execFates fs s = some (r, s') := by
  constructor
  · intro h
    induction h with
    | ret => exact ⟨[], rfl⟩
    | raise => exact ⟨[], rfl⟩
    | step hg _ ih =>
      obtain ⟨fs, hf⟩ := ih
      exact ⟨.ok :: fs, by simpa [execFates, hg] using hf⟩
    | lost _ ih =>
      obtain ⟨fs, hf⟩ := ih
      exact ⟨.lost :: fs, hf⟩
    | late hg _ ih =>
      obtain ⟨fs, hf⟩ := ih
      exact ⟨.late :: fs, by simpa [execFates, hg] using hf⟩
  · rintro ⟨fs, hf⟩
    induction p generalizing s fs with
    | ret a => cases hf; exact .ret
    | raise e => cases hf; exact .raise
    | call g u k h ih ihh =>
      cases fs with
      | nil =>
        simp only [execFates] at hf
        split at hf
        · rename_i hg
          exact .step hg (ih s [] hf)
        · cases hf
      | cons f fs =>
        cases f with
        | ok =>
          simp only [execFates] at hf
          split at hf
          · rename_i hg
            exact .step hg (ih s fs hf)
          · cases hf
        | lost => exact .lost (ihh fs hf)
        | late =>
          simp only [execFates] at hf
          split at hf
          · rename_i hg
            exact .late hg (ihh fs hf)
          · cases hf

/-- Without faults. -/
theorem execFates_nil (p : Prog S E α) (s : S) : p.execFates [] s = p.exec s := by
  induction p generalizing s with
  | ret a => rfl
  | raise e => rfl
  | call g u k h ih _ =>
    simp only [execFates, exec]
    split
    · exact ih s (u s)
    · rfl

theorem execFates_act (e : E) (f : S → α × S) (fate : Fate) (s : S) :
    (act e f).execFates [fate] s = some (match fate with
      | .ok => (.ok (f s).1, (f s).2)
      | .lost => (.error e, s)
      | .late => (.error e, (f s).2)) := by
  cases fate <;> rfl

/-- `execFates`, with the fates that are left over. -/
def runFates : Prog S E α → List Fate → S → Option (Except E α × S × List Fate)
  | .ret a, fs, s => some (.ok a, s, fs)
  | .raise e, fs, s => some (.error e, s, fs)
  | .call g u k _, [], s => if g s then (k s).runFates [] (u s) else none
  | .call g u k _, .ok :: fs, s => if g s then (k s).runFates fs (u s) else none
  | .call _ _ _ h, .lost :: fs, s => h.runFates fs s
  | .call g u _ h, .late :: fs, s => if g s then h.runFates fs (u s) else none

theorem execFates_eq (p : Prog S E α) (fs : List Fate) (s : S) :
    p.execFates fs s = (p.runFates fs s).map fun x => (x.1, x.2.1) := by
  induction p generalizing fs s with
  | ret a => rfl
  | raise e => rfl
  | call g u k h ih ihh =>
    cases fs with
    | nil =>
      simp only [execFates, runFates, ih]
      split <;> rfl
    | cons f fs =>
      cases f with
      | ok =>
        simp only [execFates, runFates, ih]
        split <;> rfl
      | lost => exact ihh fs s
      | late =>
        simp only [execFates, runFates, ihh]
        split <;> rfl

theorem runFates_query (e : E) (f : S → α) (fs : List Fate) (s : S) :
    (query e f).runFates fs s =
      some (if fs.head?.any (· != .ok) then .error e else .ok (f s), s, fs.tail) := by
  cases fs with
  | nil => rfl
  | cons fate fs => cases fate <;> rfl

theorem runFates_act (e : E) (f : S → α × S) (fs : List Fate) (s : S) :
    (act e f).runFates fs s = some (match fs.head?.getD .ok with
      | .ok => (.ok (f s).1, (f s).2, fs.tail)
      | .lost => (.error e, s, fs.tail)
      | .late => (.error e, (f s).2, fs.tail)) := by
  cases fs with
  | nil => rfl
  | cons fate fs => cases fate <;> rfl

theorem runFates_attempt (p : Prog S E α) (fs : List Fate) (s : S) :
    p.attempt.runFates fs s = (p.runFates fs s).map fun x => (.ok x.1, x.2) := by
  induction p generalizing fs s with
  | ret a => rfl
  | raise e => rfl
  | call g u k h ih ihh =>
    cases fs with
    | nil =>
      simp only [attempt, runFates, ih]
      split <;> rfl
    | cons fate fs =>
      cases fate with
      | ok =>
        simp only [attempt, runFates, ih]
        split <;> rfl
      | lost => exact ihh fs s
      | late =>
        simp only [attempt, runFates, ihh]
        split <;> rfl

theorem runFates_faulty {p : Prog S E α} {fs rest : List Fate} {s s' : S} {r : Except E α}
    (h : p.runFates fs s = some (r, s', rest)) : Faulty p s r s' :=
  faulty_iff.mpr ⟨fs, by rw [execFates_eq, h]; rfl⟩

/-- What `runFates` of a sequence does with the outcome of the first part. -/
def thenFates (f : α → Prog S E β) :
    Except E α × S × List Fate → Option (Except E β × S × List Fate)
  | (.ok a, s, fs) => (f a).runFates fs s
  | (.error e, s, fs) => some (.error e, s, fs)

/-- The second part of a sequence takes the fates that the first one leaves. -/
theorem runFates_bind (p : Prog S E α) (f : α → Prog S E β) (fs : List Fate) (s : S) :
    (p >>= f).runFates fs s = (p.runFates fs s).bind (thenFates f) := by
  show (p.bind f).runFates fs s = _
  induction p generalizing fs s with
  | ret a => rfl
  | raise e => rfl
  | call g u k h ih ihh =>
    cases fs with
    | nil =>
      simp only [bind, runFates]
      split
      · exact ih s [] (u s)
      · rfl
    | cons fate fs =>
      cases fate with
      | ok =>
        simp only [bind, runFates]
        split
        · exact ih s fs (u s)
        · rfl
      | lost => exact ihh fs s
      | late =>
        simp only [bind, runFates]
        split
        · exact ihh fs (u s)
        · rfl

/-- A sequence that returns has run both of its parts. -/
theorem runFates_bind_ok {p : Prog S E α} {f : α → Prog S E β} {fs rest : List Fate} {s t : S} {b : β}
    (h : (p >>= f).runFates fs s = some (.ok b, t, rest)) : ∃ a u fs',
      p.runFates fs s = some (.ok a, u, fs') ∧ (f a).runFates fs' u = some (.ok b, t, rest) := by
  rw [runFates_bind] at h
  obtain ⟨x, hx, h⟩ := Option.bind_eq_some_iff.mp h
  obtain ⟨r, u, fs'⟩ := x
  cases r with
  | ok a => exact ⟨a, u, fs', hx, h⟩
  | error e => cases h

/-- A call that returns has met no fault. -/
theorem runFates_act_ok {e : E} {f : S → α × S} {fs rest : List Fate} {s t : S} {a : α}
    (h : (act e f).runFates fs s = some (.ok a, t, rest)) : a = (f s).1 ∧ t = (f s).2 ∧ rest = fs.tail := by
  rw [runFates_act] at h
  cases hfate : fs.head?.getD .ok <;> rw [hfate] at h <;> cases h
  exact ⟨rfl, rfl, rfl⟩

theorem runFates_actE_ok {e : E} {f : S → Except E α × S} {fs rest : List Fate} {s t : S} {a : α}
    (h : (actE e f).runFates fs s = some (.ok a, t, rest)) : f s = (.ok a, t) ∧ rest = fs.tail := by
  obtain ⟨r, u, fs', hact, h⟩ := runFates_bind_ok h
  obtain ⟨rfl, rfl, rfl⟩ := runFates_act_ok hact
  cases hr : (f s).1 with
  | ok b =>
    rw [hr] at h
    cases h
    exact ⟨Prod.ext hr rfl, rfl⟩
  | error x =>
    rw [hr] at h
    cases h

/-- Whatever faults occur, `p` from `s` ends in `Q`. -/
def Post (Q : Except E α → S → Prop) : Prog S E α → S → Prop
  | .ret a, s => Q (.ok a) s
  | .raise e, s => Q (.error e) s
  | .call g u k h, s =>
    (g s = true → Post Q (k s) (u s)) ∧ Post Q h s ∧ (g s = true → Post Q h (u s))

theorem Post.faulty {Q : Except E α → S → Prop} {p : Prog S E α} {s s' : S} {r : Except E α}
    (h : Post Q p s) (hr : Faulty p s r s') : Q r s' := by
  induction hr with
  | ret => exact h
  | raise => exact h
  | step hg _ ih => exact ih (h.1 hg)
  | lost _ ih => exact ih h.2.1
  | late hg _ ih => exact ih (h.2.2 hg)

/-- Every end of `p` that faults allow. -/
theorem post_iff_faulty {Q : Except E α → S → Prop} {p : Prog S E α} {s : S} :
    Post Q p s ↔ ∀ r t, Faulty p s r t → Q r t := by
  constructor
  · exact fun h r t hr => h.faulty hr
  · intro h
    induction p generalizing s with
    | ret a => exact h _ _ .ret
    | raise e => exact h _ _ .raise
    | call g u k f ih ihf =>
      exact ⟨fun hg => ih s fun r t hr => h r t (.step hg hr), ihf fun r t hr => h r t (.lost hr),
        fun hg => ihf fun r t hr => h r t (.late hg hr)⟩

theorem Post.mono {Q Q' : Except E α → S → Prop} {p : Prog S E α} {s : S} (h : Post Q p s)
    (hq : ∀ r s', Q r s' → Q' r s') : Post Q' p s := by
  induction p generalizing s with
  | ret a => exact hq _ _ h
  | raise e => exact hq _ _ h
  | call g u k f ih ihf =>
    exact ⟨fun hg => ih s (h.1 hg), ihf h.2.1, fun hg => ihf (h.2.2 hg)⟩

theorem Post.and {Q Q' : Except E α → S → Prop} {p : Prog S E α} {s : S} (h : Post Q p s)
    (h' : Post Q' p s) : Post (fun r t => Q r t ∧ Q' r t) p s := by
  induction p generalizing s with
  | ret a => exact ⟨h, h'⟩
  | raise e => exact ⟨h, h'⟩
  | call g u k f ih ihf =>
    exact ⟨fun hg => ih s (h.1 hg) (h'.1 hg), ihf h.2.1 h'.2.1,
      fun hg => ihf (h.2.2 hg) (h'.2.2 hg)⟩

@[simp] theorem post_ret {Q : Except E α → S → Prop} {a : α} {s : S} :
    Post Q (.ret a) s ↔ Q (.ok a) s := Iff.rfl

@[simp] theorem post_raise {Q : Except E α → S → Prop} {e : E} {s : S} :
    Post Q (.raise e) s ↔ Q (.error e) s := Iff.rfl

theorem post_bind {Q : Except E β → S → Prop} {p : Prog S E α} {f : α → Prog S E β} {s : S} :
    Post Q (p >>= f) s ↔ Post (seqPost Q fun a => Post Q (f a)) p s := by
  show Post Q (p.bind f) s ↔ _
  induction p generalizing s with
  | ret a => rfl
  | raise e => rfl
  | call g u k h ih ihh => simp only [bind, Post, ih, ihh]

theorem post_attempt {Q : Except E (Except E α) → S → Prop} {p : Prog S E α} {s : S} :
    Post Q p.attempt s ↔ Post (fun r => Q (.ok r)) p s := by
  induction p generalizing s with
  | ret a => rfl
  | raise e => rfl
  | call g u k h ih ihh => simp only [attempt, Post, ih, ihh]

theorem post_act {Q : Except E α → S → Prop} {e : E} {f : S → α × S} {s : S} :
    Post Q (act e f) s ↔ Q (.ok (f s).1) (f s).2 ∧ Q (.error e) s ∧ Q (.error e) (f s).2 := by
  simp [act, Post]

/-- The ends of one call, by its fate. -/
theorem post_act_iff {Q : Except E α → S → Prop} {e : E} {f : S → α × S} {s : S} :
    Post Q (act e f) s ↔ ∀ fate r t, (act e f).execFates [fate] s = some (r, t) → Q r t := by
  rw [post_act]
  constructor
  · intro h fate r t hr
    rw [execFates_act] at hr
    cases fate <;> cases hr
    · exact h.1
    · exact h.2.1
    · exact h.2.2
  · exact fun h => ⟨h .ok _ _ rfl, h .lost _ _ rfl, h .late _ _ rfl⟩

theorem post_query {Q : Except E α → S → Prop} {e : E} {f : S → α} {s : S} :
    Post Q (query e f) s ↔ Q (.ok (f s)) s ∧ Q (.error e) s := by
  simp [query, post_act]

theorem post_actE {Q : Except E α → S → Prop} {e : E} {f : S → Except E α × S} {s : S} :
    Post Q (actE e f) s ↔ Q (f s).1 (f s).2 ∧ Q (.error e) s ∧ Q (.error e) (f s).2 := by
  rw [actE, post_bind, post_act]
  simp only [seqPost]
  cases h : (f s).1 <;> simp

theorem execFates_actE (e : E) (f : S → Except E α × S) (fate : Fate) (s : S) :
    (actE e f).execFates [fate] s = some (match fate with
      | .ok => f s
      | .lost => (.error e, s)
      | .late => (.error e, (f s).2)) := by
  rw [execFates_eq, actE, runFates_bind]
  cases fate
  · simp only [act, runFates, Option.bind_some, thenFates, ↓reduceIte]
    cases hf : f s with
    | mk r t => cases r <;> rfl
  · rfl
  · rfl

theorem post_actE_iff {Q : Except E α → S → Prop} {e : E} {f : S → Except E α × S} {s : S} :
    Post Q (actE e f) s ↔ ∀ fate r t, (actE e f).execFates [fate] s = some (r, t) → Q r t := by
  rw [post_actE]
  simp only [execFates_actE]
  constructor
  · intro h fate r t hr
    cases fate with
    | ok =>
      have hr := Option.some.inj hr
      dsimp only at hr
      rw [hr] at h
      exact h.1
    | lost => cases hr; exact h.2.1
    | late => cases hr; exact h.2.2
  · exact fun h => ⟨h .ok _ _ rfl, h .lost _ _ rfl, h .late _ _ rfl⟩

theorem post_tryCatch {Q : Except E α → S → Prop} {p : Prog S E α} {h : E → Prog S E α} {s : S} :
    Post Q (p.tryCatch h) s ↔
      Post (fun r s' => match r with
        | .ok a => Q (.ok a) s'
        | .error e => Post Q (h e) s') p s := by
  rw [tryCatch, post_bind, post_attempt]
  constructor <;> intro hp <;> refine hp.mono fun r s' hr => ?_
  · cases r <;> exact hr
  · cases r <;> exact hr

/-- A program all of whose calls move along `φ` ends where `φ` leads, faults included. -/
theorem Always.post {φ : S → S → Prop} {p : Prog S E α} (h : Always φ p) (hr : ∀ s, φ s s)
    (ht : ∀ a b c, φ a b → φ b c → φ a c) (s : S) : Post (fun _ s' => φ s s') p s := by
  suffices key : ∀ t, φ s t → Post (fun _ s' => φ s s') p t from key s (hr s)
  induction p with
  | ret a => intro t hst; exact hst
  | raise e => intro t hst; exact hst
  | call g u k f ih ihf =>
    intro t hst
    exact ⟨fun hg => ih t (h.2.1 t) _ (ht _ _ _ hst (h.1 t hg)), ihf h.2.2 t hst,
      fun hg => ihf h.2.2 _ (ht _ _ _ hst (h.1 t hg))⟩

/-! ## Successful outcomes -/

/-- Whatever faults occur, if `p` from `s` returns then `Q` holds of what it returns. -/
def OnOk (Q : α → S → Prop) (p : Prog S E α) (s : S) : Prop :=
  Post (fun r t => ∀ a, r = .ok a → Q a t) p s

section OnOk

variable {Q Q' : α → S → Prop} {p : Prog S E α} {s s' : S}

theorem OnOk.faulty {a : α} (h : OnOk Q p s) (hr : Faulty p s (.ok a) s') : Q a s' :=
  Post.faulty h hr a rfl

theorem OnOk.mono (h : OnOk Q p s) (hq : ∀ a t, Q a t → Q' a t) : OnOk Q' p s :=
  Post.mono h fun _ t hr a ha => hq a t (hr a ha)

theorem OnOk.ret {a : α} (h : Q a s) : OnOk Q (.ret a : Prog S E α) s := fun _ hb => by cases hb; exact h

theorem OnOk.raise {e : E} : OnOk Q (.raise e : Prog S E α) s := fun _ hb => by cases hb

theorem OnOk.bind {Q : β → S → Prop} {f : α → Prog S E β} (h : OnOk (fun a => OnOk Q (f a)) p s) :
    OnOk Q (p >>= f) s := by
  refine post_bind.mpr (Post.mono h fun r t hr => ?_)
  cases r with
  | ok a => exact hr a rfl
  | error e => exact fun _ hb => by cases hb

theorem OnOk.act {e : E} {f : S → α × S} (h : Q (f s).1 (f s).2) : OnOk Q (act e f) s := by
  refine post_act.mpr ⟨fun a ha => ?_, fun _ hb => ?_, fun _ hb => ?_⟩
  · cases ha; exact h
  · cases hb
  · cases hb

theorem OnOk.query {e : E} {f : S → α} (h : Q (f s) s) : OnOk Q (query e f) s := OnOk.act h

/-- The rule of a loop that carries an accumulator: `I` holds of the items done so far. -/
theorem OnOk.foldM {γ : Type} {Q : β → S → Prop} {f : β → γ → Prog S E β}
    (I : List γ → β → S → Prop) {xs : List γ} {b : β} {s : S} (h0 : I [] b s)
    (hstep : ∀ ys x b s, ys ++ [x] <+: xs → I ys b s →
      OnOk (fun b' t => I (ys ++ [x]) b' t) (f b x) s)
    (hend : ∀ b s, I xs b s → Q b s) : OnOk Q (Prog.foldM f b xs) s := by
  suffices key : ∀ zs ys b s, ys ++ zs = xs → I ys b s → OnOk Q (Prog.foldM f b zs) s from
    key xs [] b s rfl h0
  intro zs
  induction zs with
  | nil =>
    intro ys b s he hi
    rw [List.append_nil] at he
    exact OnOk.ret (hend b s (he ▸ hi))
  | cons z zs ih =>
    intro ys b s he hi
    exact OnOk.bind ((hstep ys z b s ⟨zs, by simpa using he⟩ hi).mono fun b' t hb =>
      ih (ys ++ [z]) b' t (by simpa using he) hb)

theorem OnOk.forEach {γ : Type} {Q : Unit → S → Prop} {f : γ → Prog S E Unit}
    (I : List γ → S → Prop) {xs : List γ} {s : S} (h0 : I [] s)
    (hstep : ∀ ys x s, ys ++ [x] <+: xs → I ys s → OnOk (fun _ t => I (ys ++ [x]) t) (f x) s)
    (hend : ∀ s, I xs s → Q () s) : OnOk Q (Prog.forEach f xs) s := by
  suffices key : ∀ zs ys s, ys ++ zs = xs → I ys s → OnOk Q (Prog.forEach f zs) s from
    key xs [] s rfl h0
  intro zs
  induction zs with
  | nil =>
    intro ys s he hi
    rw [List.append_nil] at he
    exact OnOk.ret (hend s (he ▸ hi))
  | cons z zs ih =>
    intro ys s he hi
    exact OnOk.bind ((hstep ys z s ⟨zs, by simpa using he⟩ hi).mono fun _ t ht =>
      ih (ys ++ [z]) t (by simpa using he) ht)

theorem OnOk.tryCatch {f : E → Prog S E α} (h : OnOk Q p s) (hf : ∀ e t, OnOk Q (f e) t) :
    OnOk Q (p.tryCatch f) s := by
  refine post_tryCatch.mpr (Post.mono h fun r t hr => ?_)
  cases r with
  | ok a => exact hr
  | error e => exact hf e t

theorem OnOk.of_forall (h : ∀ a t, Q a t) : OnOk Q p s :=
  ((Always.trivial p).post (fun _ => trivial) (fun _ _ _ _ _ => trivial) s).mono
    fun _ t _ a _ => h a t

theorem OnOk.attempt {Q : Except E α → S → Prop} (h : Post Q p s) : OnOk Q p.attempt s :=
  post_attempt.mpr (Post.mono h fun _ _ hr _ ha => by cases ha; exact hr)

theorem OnOk.tryFinally {fin : Prog S E Unit}
    (h : OnOk (fun a => OnOk (fun _ => Q a) fin) p s) : OnOk Q (p.tryFinally fin) s := by
  refine OnOk.bind (OnOk.attempt (Post.mono h fun r t hr => ?_))
  cases r with
  | ok a => exact OnOk.bind ((hr a rfl).mono fun _ _ hq => OnOk.ret hq)
  | error e =>
    exact OnOk.bind (OnOk.of_forall fun _ _ => OnOk.raise)

/-- A sequence whose first part moves along `φ`, and may fail anywhere along it. -/
theorem Post.seq {φ : S → S → Prop} {Q : Except E β → S → Prop} {f : α → Prog S E β}
    (ha : Always φ p) (hr : ∀ s, φ s s) (ht : ∀ a b c, φ a b → φ b c → φ a c)
    (h : OnOk (fun a t => φ s t → Post Q (f a) t) p s) (he : ∀ e t, φ s t → Q (.error e) t) :
    Post Q (p >>= f) s := by
  refine post_bind.mpr ((Post.and h (ha.post hr ht s)).mono fun r t hrt => ?_)
  cases r with
  | ok a => exact hrt.1 a rfl hrt.2
  | error e => exact he e t hrt.2

/-- A program whose calls all move along `φ` returns, if it does, where `φ` leads. -/
theorem Always.onOk {φ : S → S → Prop} (h : Always φ p) (hr : ∀ s, φ s s)
    (ht : ∀ a b c, φ a b → φ b c → φ a c) (s : S) : OnOk (fun _ t => φ s t) p s :=
  (h.post hr ht s).mono fun _ _ hst _ _ => hst

end OnOk

end Prog
